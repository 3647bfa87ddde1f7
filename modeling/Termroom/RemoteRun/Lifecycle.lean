import Termroom.RemoteRun.Footprint
import Termroom.RemoteRun.Play

/-!
# The lifecycle of a stored Run

Every write of the manager is a compare-and-set whose caller read the row some time before.
`RunOp.step_row` says what one operation can do to the row, whatever its caller had read.
With the footprints this settles all methods but one: a `Routine` write moves the Run
forward. The exception is `retry_preparation`, whose compare-and-set expects `failed` but
does not look at the Source kind. That kind never changes while the row exists, so what the
retry read at its beginning still holds when it writes; this is the one place where the
proof follows a program along its interleavings.
-/

set_option autoImplicit false

namespace Termroom.RemoteRun

open Conc Prog

/-! ## 1. What one operation does to the row -/

section

variable {B : Remote} {t : Nat} {o : RunOp} {a : o.Ans} {u v : RunWorld B.State}

/-- **The row rule.** All that an operation can do to the stored row. -/
theorem RunOp.step_row (h : o.step B t a u v) :
    v.row = u.row ∨
    (∃ tr row, o = .transition tr ∧ u.row = some row ∧ tr.selects row = true ∧
      v.row = some (tr.update row)) ∨
    (∃ now row, o = .expireNow now ∧ u.row = some row ∧ row.state.terminal = true ∧
      v.row = some { row with expiresAt := some now }) ∨
    (∃ row id, u.row = some row ∧ v.row = some { row with workspaceId := id }) ∨
    (o = .deleteRow ∧ v.row = none) := by
  cases o with
  | transition tr =>
    obtain ⟨-, rfl⟩ := h
    cases hrow : u.row with
    | none => exact .inl rfl
    | some row =>
      cases hs : tr.selects row with
      | false => exact .inl (by simp [Transition.apply, hs])
      | true => exact .inr (.inl ⟨tr, row, rfl, rfl, hs, by simp [Transition.apply, hs]⟩)
  | expireNow now =>
    obtain ⟨-, rfl⟩ := h
    cases hrow : u.row with
    | none => exact .inl rfl
    | some row =>
      cases hs : row.state.terminal with
      | false => exact .inl (by simp [expireRemoteRunNow, hs])
      | true =>
        exact .inr (.inr (.inl ⟨now, row, rfl, rfl, hs, by simp [expireRemoteRunNow, hs]⟩))
  | deleteWorkspace =>
    simp only [step] at h
    split at h
    · exact .inl (by rw [h.2])
    · rename_i row hrow
      exact .inr (.inr (.inr (.inl ⟨row, none, hrow, by rw [h.2]⟩)))
  | openWorkspace =>
    simp only [step] at h
    split at h
    · exact .inl (by rw [h.2])
    · rename_i row hrow
      rcases h with rfl | ⟨id, rfl⟩
      · exact .inl rfl
      · exact .inr (.inr (.inr (.inl ⟨row, some id, hrow, rfl⟩)))
  | deleteRow =>
    simp only [step] at h
    split at h
    · exact .inl (by rw [h.2])
    · exact .inr (.inr (.inr (.inr ⟨rfl, by rw [h.2]⟩)))
  | schedule =>
    obtain ⟨-, rfl⟩ := h
    refine .inl ?_
    split <;> rfl
  | taskDoneCallback _ =>
    simp only [step] at h
    refine .inl ?_
    rw [h]
    split <;> rfl
  | acquire => rcases h with ⟨-, rfl⟩ | ⟨n, -, rfl⟩ <;> exact .inl rfl
  | release => obtain ⟨n, -, rfl⟩ := h; exact .inl rfl
  | backend c => obtain ⟨r, -, rfl⟩ := h; exact .inl rfl
  | setCancel _ | taskFinish _ => exact .inl (by rw [show v = _ from h]; rfl)
  | writeSidecar | removeSpool | utcNow | validateZip | receiveUpload
  | unlinkPart | scheduleSpoolExpiry | writeCollectionManifest | requireWorkspace
  | connectWorkspace => exact .inl (by rw [show v = _ from h])
  | getRemoteRun | getComputer | listAbandoned _ | listExpired _ | getPreparation | taskDone _
  | isCancelled _ | spoolReady => exact .inl (by rw [h.2])

/-- **The handle rule.** All that an operation can do to the preparation handles. -/
theorem RunOp.step_handles (h : o.step B t a u v) :
    v.handles = u.handles ∨
    (∃ k, o = .setCancel k ∧
      v.handles = u.handles.modify k fun hd => { hd with cancel := true }) ∨
    (∃ k, o = .taskFinish k ∧
      v.handles = u.handles.modify k fun hd => { hd with done := true }) ∨
    (o = .schedule ∧ u.currentLive = false ∧ v = u.createTask) := by
  cases o with
  | setCancel k => exact .inr (.inl ⟨k, rfl, by rw [show v = _ from h]; rfl⟩)
  | taskFinish k => exact .inr (.inr (.inl ⟨k, rfl, by rw [show v = _ from h]; rfl⟩))
  | schedule =>
    obtain ⟨-, rfl⟩ := h
    cases hc : u.currentLive with
    | true => exact .inl rfl
    | false => exact .inr (.inr (.inr ⟨rfl, rfl, by simp⟩))
  | deleteWorkspace =>
    simp only [step] at h
    split at h <;> exact .inl (by rw [h.2])
  | openWorkspace =>
    simp only [step] at h
    split at h
    · exact .inl (by rw [h.2])
    · rcases h with rfl | ⟨id, rfl⟩ <;> exact .inl rfl
  | deleteRow =>
    simp only [step] at h
    split at h <;> exact .inl (by rw [h.2])
  | taskDoneCallback _ =>
    simp only [step] at h
    refine .inl ?_
    rw [h]
    split <;> rfl
  | acquire => rcases h with ⟨-, rfl⟩ | ⟨n, -, rfl⟩ <;> exact .inl rfl
  | release => obtain ⟨n, -, rfl⟩ := h; exact .inl rfl
  | backend c => obtain ⟨r, -, rfl⟩ := h; exact .inl rfl
  | writeSidecar | removeSpool | utcNow | validateZip | receiveUpload
  | unlinkPart | scheduleSpoolExpiry | writeCollectionManifest | requireWorkspace
  | connectWorkspace => exact .inl (by rw [show v = _ from h])
  | getRemoteRun | getComputer | transition _ | expireNow _ | listAbandoned _ | listExpired _
  | getPreparation | taskDone _ | isCancelled _ | spoolReady => exact .inl (by rw [h.2])

/-- **The Remote rule.** Only a backend call reaches the Remote. -/
theorem RunOp.step_remote (h : o.step B t a u v) (hc : ∀ c, o ≠ .backend c) :
    v.remote = u.remote := by
  cases o with
  | backend c => exact absurd rfl (hc c)
  | deleteWorkspace =>
    simp only [step] at h
    split at h <;> rw [h.2]
  | openWorkspace =>
    simp only [step] at h
    split at h
    · rw [h.2]
    · rcases h with rfl | ⟨id, rfl⟩ <;> rfl
  | deleteRow =>
    simp only [step] at h
    split at h <;> rw [h.2]
  | schedule =>
    obtain ⟨-, rfl⟩ := h
    split <;> rfl
  | taskDoneCallback _ =>
    simp only [step] at h
    rw [h]
    split <;> rfl
  | acquire => rcases h with ⟨-, rfl⟩ | ⟨n, -, rfl⟩ <;> rfl
  | release => obtain ⟨n, -, rfl⟩ := h; rfl
  | setCancel _ | taskFinish _ => rw [show v = _ from h]; rfl
  | writeSidecar | removeSpool | utcNow | validateZip | receiveUpload | unlinkPart
  | scheduleSpoolExpiry | writeCollectionManifest | requireWorkspace | connectWorkspace =>
    rw [show v = _ from h]
  | getRemoteRun | getComputer | transition _ | expireNow _ | listAbandoned _ | listExpired _
  | getPreparation | taskDone _ | isCancelled _ | spoolReady => rw [h.2]

end

/-! ## 2. The moves of the stored state -/

/-- The moves of a Run's stored state; `retry` says that `retry_preparation` made it. -/
inductive StateMove (retry : Prop) (row : RunRow) : RunState → Prop
  | stays : StateMove retry row row.state
  | starts (here : row.state = .preparing) : StateMove retry row .running
  | ends {s : RunState} (here : row.state.terminal = false) (there : s.terminal = true) :
      StateMove retry row s
  | retried (h : retry) (here : row.state = .failed) (zip : row.sourceKind = .archive) :
      StateMove retry row .preparing

theorem StateMove.ofForward {retry : Prop} {row : RunRow} {s : RunState}
    (h : row.state.forward s = true) : StateMove retry row s := by
  by_cases hs : s = row.state
  · subst hs; exact .stays
  cases hr : row.state with
  | preparing =>
    cases s with
    | preparing => exact absurd hr.symm hs
    | running => exact .starts hr
    | _ => exact .ends (by rw [hr]; rfl) rfl
  | running =>
    cases s with
    | preparing => rw [hr] at h; exact absurd h (by simp [RunState.forward])
    | running => exact absurd hr.symm hs
    | _ => exact .ends (by rw [hr]; rfl) rfl
  | _ =>
    rw [hr] at h hs
    exact absurd (RunState.forward_terminal h rfl) hs

/-- Nothing else changes a terminal state. -/
theorem StateMove.terminal {retry : Prop} {row : RunRow} {s : RunState}
    (h : StateMove retry row s) (ht : row.state.terminal = true) (hs : s ≠ row.state) :
    retry ∧ row.state = .failed ∧ row.sourceKind = .archive ∧ s = .preparing := by
  cases h with
  | stays => exact absurd rfl hs
  | starts here => rw [here] at ht; exact absurd ht (by simp [RunState.terminal])
  | ends here => rw [here] at ht; exact absurd ht (by simp)
  | retried h here zip => exact ⟨h, here, zip, rfl⟩

/-! ## 3. One operation of a forward-going program -/

/-- Every stored row is well formed. -/
def StoredWf {R : Type} (w : RunWorld R) : Prop := ∀ row, w.row = some row → row.Wf

/-- A row that is still there has the Source kind it had. -/
def KindKept {R : Type} (u v : RunWorld R) : Prop :=
  ∀ row, v.row = some row → ∃ row₀, u.row = some row₀ ∧ row.sourceKind = row₀.sourceKind

/-- The state moves of one step. -/
def Moved {R : Type} (retry : Prop) (u v : RunWorld R) : Prop :=
  ∀ row row', u.row = some row → v.row = some row' → StateMove retry row row'.state

theorem KindKept.refl {R : Type} (u : RunWorld R) : KindKept u u := fun row h => ⟨row, h, rfl⟩

theorem KindKept.trans {R : Type} {u v w : RunWorld R} (h : KindKept u v) (h' : KindKept v w) :
    KindKept u w := by
  intro row hrow
  obtain ⟨row₁, h₁, hk₁⟩ := h' row hrow
  obtain ⟨row₀, h₀, hk₀⟩ := h row₁ h₁
  exact ⟨row₀, h₀, hk₁.trans hk₀⟩

theorem KindKept.of_row {R : Type} {u v : RunWorld R} (h : v.row = u.row) : KindKept u v :=
  fun row hrow => ⟨row, by rw [← h]; exact hrow, rfl⟩

section

variable {B : Remote} {t : Nat} {o : RunOp} {a : o.Ans} {u v : RunWorld B.State}

theorem RunOp.step_kindKept (h : o.step B t a u v) : KindKept u v := by
  intro row' hv
  rcases RunOp.step_row h with hr | ⟨tr, row, -, hu, -, hr⟩ | ⟨now, row, -, hu, -, hr⟩ |
    ⟨row, id, hu, hr⟩ | ⟨-, hr⟩
  · exact KindKept.of_row hr row' hv
  · exact ⟨row, hu, by rw [hr] at hv; rw [← Option.some.inj hv]; rfl⟩
  · exact ⟨row, hu, by rw [hr] at hv; rw [← Option.some.inj hv]⟩
  · exact ⟨row, hu, by rw [hr] at hv; rw [← Option.some.inj hv]⟩
  · rw [hr] at hv; exact absurd hv (by simp)

/-- Apart from a transition, an operation leaves the state and keeps the row well formed. -/
theorem RunOp.step_lifecycle {retry : Prop} (hw : StoredWf u) (h : o.step B t a u v)
    (hT : ∀ tr row, o = .transition tr → u.row = some row → tr.selects row = true →
      (tr.update row).Wf ∧ StateMove retry row (tr.update row).state) :
    StoredWf v ∧ Moved retry u v := by
  rcases RunOp.step_row h with hr | ⟨tr, row, ho, hu, hs, hr⟩ | ⟨now, row, -, hu, ht, hr⟩ |
    ⟨row, id, hu, hr⟩ | ⟨-, hr⟩
  · refine ⟨fun row hv => hw row (by rw [← hr]; exact hv), fun row row' hu hv => ?_⟩
    rw [hr, hu] at hv
    rw [← Option.some.inj hv]
    exact .stays
  · have hrow := hT tr row ho hu hs
    refine ⟨fun row' hv => ?_, fun row₀ row' hu' hv => ?_⟩
    · rw [hr] at hv
      rw [← Option.some.inj hv]
      exact hrow.1
    · rw [hr] at hv
      rw [hu] at hu'
      rw [← Option.some.inj hv, ← Option.some.inj hu']
      exact hrow.2
  · have hrow := hw row hu
    refine ⟨fun row' hv => ?_, fun row₀ row' hu' hv => ?_⟩
    · rw [hr] at hv
      rw [← Option.some.inj hv]
      exact ⟨hrow.running, fun ht => ⟨(hrow.terminal ht).1, (hrow.terminal ht).2.1, rfl⟩⟩
    · rw [hr] at hv
      rw [hu] at hu'
      rw [← Option.some.inj hv, ← Option.some.inj hu']
      exact .stays
  · have hrow := hw row hu
    refine ⟨fun row' hv => ?_, fun row₀ row' hu' hv => ?_⟩
    · rw [hr] at hv
      rw [← Option.some.inj hv]
      exact ⟨hrow.running, hrow.terminal⟩
    · rw [hr] at hv
      rw [hu] at hu'
      rw [← Option.some.inj hv, ← Option.some.inj hu']
      exact .stays
  · exact ⟨fun row hv => by rw [hr] at hv; exact absurd hv (by simp),
      fun row row' _ hv => by rw [hr] at hv; exact absurd hv (by simp)⟩

theorem RunOp.Keeps.lifecycle {retry : Prop} (ho : o.Keeps) (hw : StoredWf u)
    (h : o.step B t a u v) : StoredWf v ∧ Moved retry u v := by
  refine RunOp.step_lifecycle hw h fun tr row htr hu hs => ?_
  subst htr
  exact ⟨Transition.Forward.wf ho hs (hw row hu), .ofForward (Transition.Forward.forward ho hs)⟩

end

/-! ## 4. The manager's proof outline -/

/-- The lifecycle, as a rely-guarantee proof: rows stay well formed, a row keeps its Source
    kind, and the state of a row makes one of the moves. -/
def lifecycleOutline (cfg : Config) (B : Remote) (allowed : RunCall → Prop) :
    Outline (manager cfg B allowed) where
  inv := StoredWf
  rely := fun _ _ => KindKept
  ok := fun _ l _ _ u v => Moved (l = .retryPreparation) u v
  post := fun _ _ _ _ => True
  rely_refl := fun _ _ => KindKept.refl
  rely_trans := fun _ _ _ _ _ => KindKept.trans
  start_keeps := by
    intro t l u v hu hs
    have hrow : v.row = u.row := by
      cases l with
      | prepare h => rw [hs.2.2]; rfl
      | _ => rw [show v = u from hs.2]
    exact ⟨fun row hv => hu row (by rw [← hrow]; exact hv), fun _ _ _ => .of_row hrow⟩
  env_keeps := by
    rintro u v hu ⟨r, -, rfl⟩
    exact ⟨hu, fun _ _ => .of_row rfl⟩

section

variable {cfg : Config} {B : Remote} {allowed : RunCall → Prop} {t : Nat} {l : RunCall}

theorem lifecycle_ok {o : RunOp} {a : o.Ans} {u v : RunWorld B.State} (ho : o.Keeps)
    (hu : StoredWf u) (hs : o.step B t a u v) :
    ((lifecycleOutline cfg B allowed).contract t l).ok o a u v := by
  obtain ⟨hv, hm⟩ : StoredWf v ∧ Moved (l = .retryPreparation) u v := ho.lifecycle hu hs
  exact ⟨hv, fun _ _ _ => RunOp.step_kindKept hs, hm⟩

/-- Any program whose transitions move forward meets its contract. -/
theorem lifecycle_of_all {α : Type} {p : RunProg α} {w : RunWorld B.State}
    (h : p.All RunOp.Keeps) :
    p.wp ((lifecycleOutline cfg B allowed).contract t l) (fun _ _ => True) w :=
  wp_of_all (fun _ _ _ _ ho hu hs => lifecycle_ok ho hu hs) h fun _ _ => trivial

/-! ## 5. The retry -/

/-- The row, if it is there, is that of a ZIP Run. -/
def IsZip {R : Type} (w : RunWorld R) : Prop :=
  ∀ row, w.row = some row → row.sourceKind = .archive

theorem IsZip.kept {R : Type} {u v : RunWorld R} (h : KindKept u v) (hu : IsZip u) : IsZip v := by
  intro row hrow
  obtain ⟨row₀, h₀, hk⟩ := h row hrow
  rw [hk]
  exact hu row₀ h₀

/-- What the retry performs after its check. -/
def RunOp.Retries (o : RunOp) : Prop := o.Keeps ∨ o = .transition retryTransition

/-- On a ZIP Run the compare-and-set of the retry makes its one move. -/
theorem RunOp.Retries.ok {o : RunOp} {a : o.Ans} {u v : RunWorld B.State} (ho : o.Retries)
    (hz : IsZip u) (hu : StoredWf u) (hs : o.step B t a u v) :
    ((lifecycleOutline cfg B allowed).contract t .retryPreparation).ok o a u v ∧ IsZip v := by
  have kept := RunOp.step_kindKept hs
  obtain ⟨hv, hm⟩ :
      StoredWf v ∧ Moved (RunCall.retryPreparation = .retryPreparation) u v := by
    rcases ho with ho | rfl
    · exact ho.lifecycle hu hs
    · refine RunOp.step_lifecycle hu hs fun tr row htr hrow hsel => ?_
      obtain rfl := RunOp.transition.inj htr
      refine ⟨⟨?_, ?_⟩, .retried rfl ?_ (hz row hrow)⟩
      · simp [Transition.update, retryTransition]
      · simp [Transition.update, retryTransition, RunState.terminal]
      · simpa [retryTransition] using Transition.selects_state hsel
  exact ⟨⟨hv, fun _ _ _ => kept, hm⟩, hz.kept kept⟩

theorem retries_of {α : Type} {p : RunProg α} (h : p.All RunOp.Routine) :
    p.All RunOp.Retries := h.mono fun _ ho => .inl ho.keeps

/-- What `get` returned is still true of the row's Source kind. -/
theorem get_zip {w : RunWorld B.State} :
    get.wp ((lifecycleOutline cfg B allowed).contract t l)
      (fun r v => ∀ run, r = .ok run → run.sourceKind = .archive → IsZip v) w := by
  refine wp_mono (fun r v h run hrun hzip => ?_) (get_spec fun o a u v ho hu hs => ?_)
  · obtain ⟨u, v₀, v₁, -, ⟨hu, rfl⟩, hk, -, rfl⟩ := h run hrun
    refine IsZip.kept hk fun row hrow => ?_
    rw [← hu] at hrow
    rw [← Option.some.inj hrow]
    exact hzip
  · rcases ho with rfl | rfl
    · exact lifecycle_ok trivial hu hs
    · exact lifecycle_ok trivial hu hs

theorem retryPreparation_lifecycle {w : RunWorld B.State} :
    (retryPreparation cfg).wp
      ((lifecycleOutline cfg B allowed).contract t .retryPreparation) (fun _ _ => True) w := by
  unfold retryPreparation
  simp only [wp_bind]
  refine wp_mono (fun r v hv => ?_) get_zip
  cases r with
  | error e => trivial
  | ok run =>
    simp only [onResult_ok]
    by_cases hrun : run.sourceKind ≠ .archive ∨ run.state ≠ .failed
    · rw [if_pos hrun]; trivial
    rw [if_neg hrun]
    have hz : IsZip v := hv run rfl (by simp at hrun; exact hrun.1)
    refine wp_mono (fun _ _ _ => trivial) (wp_of_uses (P := RunOp.Retries)
      (fun _ _ => IsZip.kept) (fun o a u v => RunOp.Retries.ok) (R := fun _ => True) ?_ hz)
    show Prog.All _ _
    refine (all_atomic (.inl trivial)).bind fun ready => ?_
    split
    · refine (retries_of targetBackend_all).bind fun _ => ?_
      refine (all_atomic (.inl trivial)).bind fun deleted => ?_
      have write : (do
          if ← atomic (.transition retryTransition) then do
            let _ ← atomic .schedule
            get
          else .raise (.conflict "Remote Run retry was superseded" "state_conflict") :
          RunProg Run).All RunOp.Retries := by
        refine (all_atomic (.inr rfl)).bind fun won => ?_
        split
        · exact (all_atomic (.inl trivial)).bind fun _ => retries_of get_all
        · exact .raise
      split
      · exact write
      · exact write
      · exact .raise
    · exact .raise

/-- **Every method meets its lifecycle contract.** -/
theorem lifecycle_proved {w : RunWorld B.State} :
    (lifecycleOutline cfg B allowed).Proved w := by
  intro t l u v hu _ hs
  cases l with
  | schedule => exact lifecycle_of_all (all_atomic trivial)
  | prepare h => exact lifecycle_of_all (keeps_of prepare_all)
  | uploadArchive safeName contentLength =>
    refine lifecycle_of_all (uploadArchive_all.mono fun o ho => ?_)
    rcases ho with ho | rfl
    · exact ho.keeps
    · trivial
  | poll => exact lifecycle_of_all (poll_all.mono fun o => RunOp.Observes.keeps)
  | reconcile => exact lifecycle_of_all (reconcile_all.mono fun o => RunOp.Observes.keeps)
  | stop => exact lifecycle_of_all (keeps_of stop_all)
  | kill => exact lifecycle_of_all (keeps_of kill_all)
  | requestDelete => exact lifecycle_of_all requestDelete_all
  | forget => exact lifecycle_of_all forget_all
  | cleanupExpired => exact lifecycle_of_all cleanupExpired_all
  | retryPreparation => exact retryPreparation_lifecycle
  | reconcileStartup =>
    exact lifecycle_of_all (reconcileStartup_all.mono fun o => RunOp.Observes.keeps)
  | spoolExpiry => exact lifecycle_of_all (all_atomic trivial)

end

/-! ## 6. Any set of Runs -/

/-- The row `create` stores: a new Run is preparing. -/
def createdRow (sourceKind : SourceKind) (archiveName : String) (now : Nat) : RunRow where
  sourceKind := sourceKind
  archiveName := archiveName
  state := .preparing
  phase := some (match sourceKind with
    | .archive => .waitingUpload
    | .git => .cloning
    | .workspace => .scanning)
  startedAt := none
  stopRequestedAt := none
  endedAt := none
  expiresAt := if sourceKind = .archive then some (now + WAITING_UPLOAD_TTL) else none
  exitCode := none
  errorCode := none
  errorDetail := none
  sourceRevision := none
  sourceSize := none
  workspaceId := none
  lifecycleRevision := 0

theorem createdRow_wf {sourceKind : SourceKind} {archiveName : String} {now : Nat} :
    (createdRow sourceKind archiveName now).Wf :=
  ⟨by simp [createdRow], by simp [createdRow, RunState.terminal]⟩

section

variable {ι : Type} {cfg : Config} {B : ι → Remote}

/-- Any set of Runs, each with every call of the manager on it: one step is a step of one
    of them. -/
abbrev FleetStep (cfg : Config) (B : ι → Remote) :=
  Beside fun i => Pool.Step (manager cfg (B i) fun _ => True)

/-- The event is an operation of `retry_preparation`. -/
def IsRetry {cfg : Config} {B : Remote} {allowed : RunCall → Prop} :
    Event (manager cfg B allowed) → Prop
  | .act _ l _ _ => l = .retryPreparation
  | _ => False

theorem Moved.of_row {R : Type} {retry : Prop} {u v : RunWorld R} (h : v.row = u.row) :
    Moved retry u v := by
  intro row row' hu hv
  rw [h, hu] at hv
  rw [← Option.some.inj hv]
  exact .stays

/-- One step on one Run, in any run of the manager on it. -/
theorem lifecycle_step {B : Remote} {allowed : RunCall → Prop} {w : RunWorld B.State}
    (hw : StoredWf w) {es : List (Event (manager cfg B allowed))}
    {p p' : Pool (manager cfg B allowed)} (run : (manager cfg B allowed).Runs w es p)
    {e : Event (manager cfg B allowed)} (st : Pool.Step (manager cfg B allowed) p e p') :
    Moved (IsRetry e) p.world p'.world := by
  cases e with
  | call l =>
    cases st with
    | call started =>
      refine Moved.of_row ?_
      cases l with
      | prepare h => rw [started.2.2]; rfl
      | _ => rw [show _ = p.world from started.2]
  | act t l o a => exact Outline.ok_of_run lifecycle_proved hw run st
  | env =>
    cases st with
    | env moved =>
      obtain ⟨r, -, rfl⟩ := moved
      exact Moved.of_row rfl

/-- **The lifecycle of every stored Run.** From rows that are well formed, as `create` stores
    them, and through any interleaving of any calls on any set of Runs: every stored row
    stays well formed, and each step changes the state of a row only from preparing to
    running, from preparing or running to an end, or, by `retry_preparation`, from the
    failure of a ZIP Run back to preparing. -/
theorem stored_run_lifecycle {w : ∀ i, RunWorld (B i).State}
    (created : ∀ i row, (w i).row = some row → row.Wf)
    {es : List (Σ i, Event (manager cfg (B i) fun _ => True))}
    {p : ∀ i, Pool (manager cfg (B i) fun _ => True)}
    (run : Conc.Run (FleetStep cfg B) (fun i => .init (w i)) es p) :
    (∀ i row, (p i).world.row = some row → row.Wf) ∧
      ∀ j e p', FleetStep cfg B p ⟨j, e⟩ p' → ∀ i row row', (p i).world.row = some row →
        (p' i).world.row = some row' → StateMove (i = j ∧ IsRetry e) row row'.state := by
  constructor
  · intro i
    obtain ⟨ks, hks⟩ := run.component i
    exact Outline.inv_of_run lifecycle_proved (created i) hks
  · intro j e p' st i row row' hrow hrow'
    by_cases hij : i = j
    · subst hij
      obtain ⟨ks, hks⟩ := run.component i
      have hm := lifecycle_step (created i) hks st.1 row row' hrow hrow'
      simpa using hm
    · rw [st.2 i hij, hrow] at hrow'
      rw [← Option.some.inj hrow']
      exact .stays

/-- A ZIP Run that failed, next to a new one. -/
def failedZip : RunRow :=
  { createdRow .archive "job.zip" 0 with
    state := .failed, phase := none, endedAt := some (.at 60), expiresAt := some 86460 }

/-- The failed Run is retried: its row is read, its spool is found, its root is removed, and
    the compare-and-set takes effect. -/
theorem stored_run_lifecycle_retried :
    ∃ p : Bool → Pool (manager ⟨false, 0⟩ anyRemote fun _ => True),
      (p true).world.row.map RunRow.state = some .preparing ∧
        ∀ i row, (p i).world.row = some row → row.Wf := by
  let w : Bool → RunWorld Unit := fun i =>
    ⟨some (if i then failedZip else createdRow .archive "new.zip" 70), none, [], none, true, ()⟩
  let player := managerPlayer ⟨false, 0⟩ anyRemote fun _ => True
  have played : ∃ p, player.play (.init (w true)) (.call .retryPreparation ::
      List.replicate 5 (.act 0 { remote := deletes, after := () })) = some p ∧
      p.world.row.map RunRow.state = some .preparing := ⟨_, rfl, rfl⟩
  obtain ⟨p, hp, hstate⟩ := played
  obtain ⟨es, run⟩ := player.play_sound hp
  refine ⟨Function.update (fun i => .init (w i)) true p, by simpa using hstate, ?_⟩
  refine (stored_run_lifecycle (B := fun _ => anyRemote) (w := w) ?_ run.beside).1
  intro i row hrow
  cases i with
  | true =>
    obtain rfl : failedZip = row := Option.some.inj hrow
    exact ⟨by simp [failedZip], by simp [failedZip]⟩
  | false =>
    obtain rfl : createdRow .archive "new.zip" 70 = row := Option.some.inj hrow
    exact createdRow_wf

end

end Termroom.RemoteRun
