import Termroom.Store.Calls

/-!
# The one active File Run of a Workspace

What the interleavings of `claim_file_run` and `transition_file_run` keep. A stored run's
claim (its id, Workspace, key and payload) never changes and its row is never removed, so a
key stands for one run from the claim that created it on. The partial index keeps a second
active run out, whichever call would make it.

The state of a row is the caller's business: `transition_file_run` moves any state its
`expected_states` name. So an ended run stays ended exactly as long as no caller expects an
ended state, and nothing in the store prevents one from doing so
(`ended_run_restarted`).
-/

set_option autoImplicit false

namespace Termroom.Store

open Conc Data RemoteRun

/-! ## 1. One active run -/

/-- No Workspace has two File Runs in `preparing` or `running`. -/
def Tables.OneActive (T : Tables) : Prop :=
  ∀ workspaceId,
    (T.fileRuns.filter fun run => run.workspaceId = workspaceId && run.active).length ≤ 1

theorem Tables.Constrained.oneActive {T : Tables} (hT : T.Constrained) : T.OneActive := by
  intro workspaceId
  have key (run : FileRun) : decide (run.activeIndex = some workspaceId) =
      (run.workspaceId = workspaceId && run.active) := by
    unfold FileRun.activeIndex
    cases run.active <;> simp
  simpa [key] using hT.active.length_le_one hT.fileRunIds workspaceId

/-! ## 2. A stored claim -/

/-- The claim that created a run. -/
def FileRun.claim (run : FileRun) : FileRunClaim where
  id := run.id
  workspaceId := run.workspaceId
  idempotencyKey := run.idempotencyKey
  relativePath := run.relativePath
  sourceDigest := run.sourceDigest
  runnerId := run.runnerId
  runnerVersion := run.runnerVersion
  argv := run.argv

theorem FileRunClaim.keyed_iff {claim : FileRunClaim} {run : FileRun} :
    claim.Keyed run ↔ run.claim.workspaceId = claim.workspaceId ∧
      run.claim.idempotencyKey = claim.idempotencyKey := Iff.rfl

/-- The claim has the same key as another. -/
def FileRunClaim.SameKey (claim other : FileRunClaim) : Prop :=
  claim.workspaceId = other.workspaceId ∧ claim.idempotencyKey = other.idempotencyKey

/-- The claim has the same payload as another, their ids apart. -/
def FileRunClaim.samePayload (claim other : FileRunClaim) : Bool :=
  claim.relativePath = other.relativePath && claim.sourceDigest = other.sourceDigest &&
    claim.runnerId = other.runnerId && claim.runnerVersion = other.runnerVersion &&
    claim.argv = other.argv

theorem FileRun.matches_eq (run : FileRun) (claim : FileRunClaim) :
    run.matches claim = run.claim.samePayload claim := rfl

theorem FileRunClaim.samePayload_comm (claim other : FileRunClaim) :
    claim.samePayload other = other.samePayload claim := by
  simp [samePayload, eq_comm]

theorem FileRunClaim.samePayload_congr {claim other third : FileRunClaim}
    (h : claim.samePayload other = true) :
    claim.samePayload third = other.samePayload third := by
  simp only [samePayload, Bool.and_eq_true, decide_eq_true_eq] at h
  obtain ⟨⟨⟨⟨h₁, h₂⟩, h₃⟩, h₄⟩, h₅⟩ := h
  simp [samePayload, h₁, h₂, h₃, h₄, h₅]

variable {T T' : Tables} {o : StoreOp} {u v : StoreWorld}

/-- **A change keeps every stored claim**, and moves the state of a run only by a transition
    that expects it. -/
theorem StoreOp.Changes.keeps (h : o.Changes T T') {run : FileRun} (hrun : run ∈ T.fileRuns)
    (hT : T.Constrained) :
    ∃ run' ∈ T'.fileRuns, run'.claim = run.claim ∧ (run'.state = run.state ∨
      ∃ t previous now, o = .updateFileRun run.id t previous now ∧
        run.state ∈ t.expectedStates ∧ t.state = some run'.state) := by
  cases h with
  | claimed => exact ⟨run, List.mem_append_left _ hrun, rfl, .inl rfl⟩
  | @fileRun id t previous now moved _ found expected =>
    rw [Tables.insertEvent_fileRuns]
    by_cases hid : run.id = id
    · obtain rfl : moved = run := by
        have := Table.find_of_mem hT.fileRunIds hrun
        rw [hid] at this
        exact Option.some.inj (found.symm.trans this)
      refine ⟨t.update moved, Table.mem_replace_self hrun rfl, rfl, ?_⟩
      cases hs : t.state with
      | none => exact .inl (by simp [FileTransition.update, hs])
      | some s =>
        refine .inr ⟨t, previous, now, by rw [hid], expected, ?_⟩
        simp [FileTransition.update, hs]
    · refine ⟨run, Table.mem_replace_of_ne hrun ?_, rfl, .inl rfl⟩
      have hmoved : moved.id = id := Table.find_key found
      exact fun h => hid (h.trans hmoved)
  | created => exact ⟨run, hrun, rfl, .inl rfl⟩
  | remoteRun =>
    rw [Tables.insertEvent_fileRuns]
    exact ⟨run, hrun, rfl, .inl rfl⟩
  | backfilled =>
    rw [backfill_frame]
    exact ⟨run, hrun, rfl, .inl rfl⟩

theorem StoreOp.step_keeps {a : o.Ans} (h : o.step a u v) {run : FileRun}
    (hrun : run ∈ u.tables.fileRuns) (hu : u.tables.Constrained) :
    ∃ run' ∈ v.tables.fileRuns, run'.claim = run.claim ∧ (run'.state = run.state ∨
      ∃ t previous now, o = .updateFileRun run.id t previous now ∧
        run.state ∈ t.expectedStates ∧ t.state = some run'.state) := by
  rcases StoreOp.step_cases h with rfl | rfl | ⟨T, rfl, hT⟩
  · exact ⟨run, hrun, rfl, .inl rfl⟩
  · exact ⟨run, hrun, rfl, .inl rfl⟩
  · exact hT.keeps hrun hu

/-- A stored claim is there for good. -/
theorem claim_persists {p q : Pool storeSystem} {es : List (Conc.Event storeSystem)}
    (run : Run (Pool.Step storeSystem) p es q) (hp : p.world.tables.Constrained)
    {row : FileRun} (hrow : row ∈ p.world.tables.fileRuns) :
    q.world.tables.Constrained ∧ ∃ row' ∈ q.world.tables.fileRuns, row'.claim = row.claim := by
  refine store_invariant (fun w => w.tables.Constrained ∧
    ∃ row' ∈ w.tables.fileRuns, row'.claim = row.claim) ?_ run ⟨hp, row, hrow, rfl⟩
  intro o a u v step ⟨hu, row', hrow', hclaim⟩
  obtain ⟨row'', hrow'', hc, -⟩ := StoreOp.step_keeps step hrow' hu
  exact ⟨StoreOp.step_constrained step hu, row'', hrow'', hc.trans hclaim⟩

/-! ## 3. Claiming -/

/-- The answer to a claim whose key is stored, unless SQLite fails. -/
def FileRunClaim.replay (claim : FileRunClaim) (row : FileRun) :
    Except StoreError (ClaimStatus × FileRun) :=
  if row.matches claim then .ok (.idempotent, row) else .error reusedKey

theorem claim_stored {claim : FileRunClaim} {now : Nat}
    {a : Except StoreError (ClaimStatus × FileRun)}
    (h : (StoreOp.claimFileRun claim now).step a u v) (hu : u.tables.Constrained)
    {row : FileRun} (hrow : row ∈ u.tables.fileRuns) (hkey : claim.Keyed row) :
    v.tables = u.tables ∧ (a = claim.replay row ∨ ∃ message, a = .error (.database message)) := by
  have unique {row' : FileRun} (h : row' ∈ u.tables.fileRuns) (hk : claim.Keyed row') :
      row' = row := by
    have hid := hu.keys row' h row hrow _ rfl
      (by simp [FileRun.keyIndex, hk.1, hk.2, hkey.1, hkey.2])
    exact List.inj_on_of_nodup_map hu.fileRunIds h hrow hid
  have answer {r : Except StoreError ((ClaimStatus × FileRun) × Tables)}
      (hr : Store.claimFileRun claim now u.tables = r) :
      r = if row.matches claim then .ok ((.idempotent, row), u.tables) else .error reusedKey := by
    rcases claimFileRun_cases hr with ⟨row', hrow', hk, h⟩ | ⟨hnone, -⟩
    · rwa [unique hrow' hk] at h
    · exact absurd hkey (hnone row hrow)
  unfold FileRunClaim.replay
  cases h with
  | committed ran =>
    have := answer ran
    split at this
    · obtain ⟨rfl, rfl⟩ := Prod.mk.inj (Except.ok.inj this)
      exact ⟨rfl, .inl (by rw [if_pos ‹_›])⟩
    · cases this
  | raised ran =>
    have := answer ran
    split at this
    · cases this
    · obtain rfl := Except.error.inj this
      exact ⟨rfl, .inl (by rw [if_neg ‹_›])⟩
  | failed => exact ⟨rfl, .inr ⟨_, rfl⟩⟩

/-- A claim that returns a run of its own has stored its key and payload. -/
theorem claim_returned {claim : FileRunClaim} {now : Nat} {status : ClaimStatus}
    {row : FileRun}
    (h : (StoreOp.claimFileRun claim now).step (.ok (status, row)) u v)
    (own : status ≠ .occupied) :
    row ∈ v.tables.fileRuns ∧ claim.Keyed row ∧ row.matches claim = true := by
  cases h with
  | committed ran =>
    rename_i T
    rcases claimFileRun_cases ran with ⟨row', hrow', hk, hr⟩ | ⟨-, ⟨row', -, -, -, hr⟩ | ⟨-, hr⟩⟩
    · split at hr
      · obtain ⟨hp, rfl⟩ := Prod.mk.inj (Except.ok.inj hr)
        obtain ⟨-, rfl⟩ := Prod.mk.inj hp
        exact ⟨hrow', hk, ‹_›⟩
      · exact nomatch hr
    · obtain ⟨hp, -⟩ := Prod.mk.inj (Except.ok.inj hr)
      exact absurd (Prod.mk.inj hp).1 own
    · rcases hr with hr | ⟨-, -, hr⟩
      · exact nomatch hr
      · obtain ⟨hp, rfl⟩ := Prod.mk.inj (Except.ok.inj hr)
        obtain ⟨-, rfl⟩ := Prod.mk.inj hp
        refine ⟨List.mem_append_right _ (List.mem_singleton_self _), ⟨rfl, rfl⟩, ?_⟩
        simp [FileRun.matches, FileRunClaim.run]

/-! ## 4. Over runs -/

/-- **The slot of a Workspace, over every interleaving of calls.** From tables that meet
    their constraints, in every state `p` reached:

    * no Workspace has two active File Runs;
    * once a claim has returned a run of its own (`p₁`), every later claim with its key
      (`p₂` to `p₃`) changes nothing, and returns that run's id if the payload is the same
      and raises if it is not, unless SQLite itself fails;
    * an ended run keeps its state, except across a transition of that run whose
      `expected_states` name that state and whose `state` is the new one. -/
theorem file_run_slot {w : StoreWorld} {es : List (Conc.Event storeSystem)}
    {p : Pool storeSystem} (hw : w.tables.Constrained) (run : storeSystem.Runs w es p) :
    p.world.tables.OneActive ∧
    (∀ t l claim now status row p₁,
      Pool.Step storeSystem p (.act t l (.claimFileRun claim now) (.ok (status, row))) p₁ →
      status ≠ .occupied →
      ∀ es' p₂ t' l' claim' now' a p₃, Run (Pool.Step storeSystem) p₁ es' p₂ →
        Pool.Step storeSystem p₂ (.act t' l' (.claimFileRun claim' now') a) p₃ →
        claim'.SameKey claim →
        p₃.world.tables = p₂.world.tables ∧
          ((∃ message, a = .error (.database message)) ∨
            if claim'.samePayload claim then
              ∃ row', a = .ok (.idempotent, row') ∧ row'.id = row.id
            else a = .error reusedKey)) ∧
    (∀ e q, Pool.Step storeSystem p e q → ∀ row ∈ p.world.tables.fileRuns,
      row.state.terminal = true → ∃ row' ∈ q.world.tables.fileRuns, row'.id = row.id ∧
        (row'.state = row.state ∨ ∃ t l tr previous now a,
          e = .act t l (.updateFileRun row.id tr previous now) a ∧
            row.state ∈ tr.expectedStates ∧ tr.state = some row'.state)) := by
  have hp : p.world.tables.Constrained :=
    store_invariant (fun w => w.tables.Constrained) (fun _ _ _ _ => StoreOp.step_constrained) run
      hw
  refine ⟨hp.oneActive, ?_, ?_⟩
  · intro t l claim now status row p₁ st own es' p₂ t' l' claim' now' a p₃ later st' same
    cases st with
    | act here stepped =>
      obtain ⟨hrow, hkey, hmatch⟩ := claim_returned stepped own
      have hp₁ := StoreOp.step_constrained (o := .claimFileRun claim now) stepped hp
      obtain ⟨hp₂, row', hrow', hclaim⟩ := claim_persists later hp₁ hrow
      have hkey' : claim'.Keyed row' := by
        rw [FileRunClaim.keyed_iff, hclaim]
        exact ⟨hkey.1.trans same.1.symm, hkey.2.trans same.2.symm⟩
      cases st' with
      | act here' stepped' =>
        obtain ⟨htables, ha⟩ := claim_stored stepped' hp₂ hrow' hkey'
        refine ⟨htables, ha.symm.imp id fun ha => ?_⟩
        have hpay : row'.matches claim' = claim'.samePayload claim := by
          rw [FileRun.matches_eq, hclaim, FileRunClaim.samePayload_comm claim']
          exact FileRunClaim.samePayload_congr (by rwa [← FileRun.matches_eq])
        rw [ha, FileRunClaim.replay, hpay]
        split
        · exact ⟨row', rfl, congrArg FileRunClaim.id hclaim⟩
        · rfl
  · intro e q st row hrow _
    cases st with
    | call started => cases started; exact ⟨row, hrow, rfl, .inl rfl⟩
    | env moved => cases moved; exact ⟨row, hrow, rfl, .inl rfl⟩
    | @act t l o k a w here stepped =>
      obtain ⟨row', hrow', hclaim, hs⟩ := StoreOp.step_keeps stepped hrow hp
      refine ⟨row', hrow', congrArg FileRunClaim.id hclaim, hs.imp id ?_⟩
      rintro ⟨tr, previous, now, rfl, hexp, hst⟩
      exact ⟨t, l, tr, previous, now, a, rfl, hexp, hst⟩

/-! ## 5. Two schedules -/

def sampleClaim : FileRunClaim where
  id := "run"
  workspaceId := "workspace"
  idempotencyKey := "key"
  relativePath := "main.py"
  sourceDigest := "digest"
  runnerId := "python"
  runnerVersion := 1
  argv := ["python3", "main.py"]

/-- A store with one Workspace. -/
def oneWorkspace : StoreWorld := ⟨.fresh [⟨"workspace", "Work"⟩] [], []⟩

/-- Claim the slot twice under one key. -/
theorem file_run_slot_claimed :
    ∃ p : Pool storeSystem, p.world.tables.fileRuns.map FileRun.state = [.preparing] ∧
      p.world.tables.OneActive := by
  have played : (storePlayer.play (.init oneWorkspace)
      [.call (.claimFileRun sampleClaim), .act 0 (.clock 5), .act 0 .proceed,
        .call (.claimFileRun sampleClaim), .act 1 (.clock 6), .act 1 .proceed]).map
      (fun p => p.world.tables.fileRuns.map FileRun.state) = some [.preparing] := by
    decide +kernel
  obtain ⟨p, hp, hstates⟩ := Option.map_eq_some_iff.mp played
  obtain ⟨es, run⟩ := storePlayer.play_sound hp
  exact ⟨p, hstates, (file_run_slot (Tables.fresh_constrained _ _) run).1⟩

/-- **An end that does not last.** `transition_file_run` with `finished` among its expected
    states starts a finished run again. -/
theorem ended_run_restarted :
    ∃ (es : List (Conc.Event storeSystem)) (p q : Pool storeSystem)
      (e : Conc.Event storeSystem), storeSystem.Runs oneWorkspace es p ∧
      Pool.Step storeSystem p e q ∧
      ∃ row ∈ p.world.tables.fileRuns, row.state.terminal = true ∧
        ∃ row' ∈ q.world.tables.fileRuns, row'.id = row.id ∧ row'.state = .running := by
  let view (p : Pool storeSystem) := p.world.tables.fileRuns.map fun run => (run.id, run.state)
  have played : ((storePlayer.play (.init oneWorkspace)
      [.call (.claimFileRun sampleClaim), .act 0 (.clock 5), .act 0 .proceed,
        .call (.transitionFileRun "run" { expectedStates := [.preparing], state := some .finished }),
        .act 1 .proceed, .act 1 (.clock 6), .act 1 .proceed,
        .call (.transitionFileRun "run" { expectedStates := [.finished], state := some .running }),
        .act 2 .proceed, .act 2 (.clock 7)]).bind fun p =>
          (storePlayer.next p (.act 2 .proceed)).map fun q => (p, q)).map
      (fun (p, q) => (view p, view q)) =
      some ([("run", .finished)], [("run", .running)]) := by decide +kernel
  obtain ⟨⟨p, q⟩, hpq, hview⟩ := Option.map_eq_some_iff.mp played
  obtain ⟨p', hp, hnext⟩ := Option.bind_eq_some_iff.mp hpq
  obtain ⟨q', hq, hpair⟩ := Option.map_eq_some_iff.mp hnext
  obtain ⟨rfl, rfl⟩ := Prod.mk.inj hpair
  obtain ⟨es, run⟩ := storePlayer.play_sound hp
  obtain ⟨l, o, k, a, -, st⟩ := storePlayer.next_act hq
  obtain ⟨before, after⟩ := Prod.mk.inj hview
  obtain ⟨row, hrow, hr⟩ := List.map_eq_singleton_iff.mp before
  obtain ⟨row', hrow', hr'⟩ := List.map_eq_singleton_iff.mp after
  obtain ⟨hid, hstate⟩ := Prod.mk.inj hr
  obtain ⟨hid', hstate'⟩ := Prod.mk.inj hr'
  exact ⟨es, _, _, _, run, st, row, hrow ▸ List.mem_singleton_self row, by rw [hstate]; rfl,
    row', hrow' ▸ List.mem_singleton_self row', hid'.trans hid.symm, hstate'⟩

end Termroom.Store
