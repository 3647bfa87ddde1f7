import Termroom.Conc.Pool
import Termroom.Store.Tables

/-!
# Concurrent calls of the store

The methods of `StateStore` that create, move and end runs, as threads on one database. A
`transition_…` method reads the previous state in autocommit mode and then writes, so
between its first SELECT and its UPDATE any other call can commit. `claim_file_run` takes
the write lock first. A restart is a call of `initialize`; a process that is killed is one
whose threads take no further step.

The world is the committed tables and every commit so far, as the tables before and after
it (`StoreWorld.commits`); nothing reads that history.
-/

set_option autoImplicit false

namespace Termroom.Store

open Conc Data RemoteRun

/-! ## 1. Statements and transactions -/

inductive StoreOp where
  | utcNow
  /-- SELECT state … WHERE id = ? -/
  | selectState (subject : Subject)
  | claimFileRun (claim : FileRunClaim) (now : Nat)
  | updateFileRun (id : String) (t : FileTransition) (previous : Option RunState) (now : Nat)
  | createRemoteRun (values : RemoteRunValues)
  | updateRemoteRun (id : String) (t : Transition) (previous : Option RunState) (now : Nat)
  | initializeStore (now : Nat)
  deriving DecidableEq

abbrev StoreOp.Ans : StoreOp → Type
  | .utcNow => Nat
  | .selectState _ => Except StoreError (Option RunState)
  | .claimFileRun _ _ => Except StoreError (ClaimStatus × FileRun)
  | .updateFileRun _ _ _ _ | .updateRemoteRun _ _ _ _ => Except StoreError Bool
  | .createRemoteRun _ => Except StoreError (RemoteRunRow × Bool)
  | .initializeStore _ => Except StoreError Unit

abbrev StoreSig : Sig := ⟨StoreOp, StoreOp.Ans⟩

structure StoreWorld where
  tables : Tables
  commits : List (Tables × Tables)
  deriving DecidableEq

/-- The world after a commit of `T`. -/
def StoreWorld.commit (w : StoreWorld) (T : Tables) : StoreWorld :=
  ⟨T, w.commits ++ [(w.tables, T)]⟩

/-- A transaction commits, or raises and is rolled back. -/
inductive Commits {α : Type} (r : Except StoreError (α × Tables)) :
    Except StoreError α → StoreWorld → StoreWorld → Prop
  | committed {x : α} {T : Tables} {w : StoreWorld} (ran : r = .ok (x, T)) :
      Commits r (.ok x) w (w.commit T)
  | raised {e : StoreError} {w : StoreWorld} (ran : r = .error e) : Commits r (.error e) w w
  | failed {message : String} {w : StoreWorld} : Commits r (.error (.database message)) w w

/-- What an operation does, and what it answers. -/
def StoreOp.step : (o : StoreOp) → o.Ans → StoreWorld → StoreWorld → Prop
  | .utcNow, _, u, v => v = u
  | .selectState s, a, u, v =>
    v = u ∧ (a = .ok ((u.tables.lifecycle s).map Prod.fst) ∨
      ∃ message, a = .error (.database message))
  | .claimFileRun claim now, a, u, v => Commits (Store.claimFileRun claim now u.tables) a u v
  | .updateFileRun id t previous now, a, u, v =>
    Commits (Store.updateFileRun id t previous now u.tables) a u v
  | .createRemoteRun values, a, u, v => Commits (Store.createRemoteRun values u.tables) a u v
  | .updateRemoteRun id t previous now, a, u, v =>
    Commits (Store.updateRemoteRun id t previous now u.tables) a u v
  | .initializeStore now, a, u, v => Commits (.ok ((), backfill now u.tables)) a u v

/-- How an operation can change the tables. -/
inductive StoreOp.Changes (T : Tables) : StoreOp → Tables → Prop
  | claimed {claim : FileRunClaim} {now : Nat}
      (fresh : ∀ row ∈ T.fileRuns, ¬ claim.Keyed row)
      (free : ∀ row ∈ T.fileRuns, row.workspaceId = claim.workspaceId → row.active = false)
      (newId : T.fileRun claim.id = none)
      (workspace : (T.workspace claim.workspaceId).isSome) :
      Changes T (.claimFileRun claim now) { T with fileRuns := T.fileRuns ++ [claim.run now] }
  | fileRun {id : String} {t : FileTransition} {previous : Option RunState} {now : Nat}
      {run : FileRun} {event : Option Event} (found : T.fileRun id = some run)
      (expected : run.state ∈ t.expectedStates)
      (free : Table.clashes FileRun.id FileRun.activeIndex (t.update run) T.fileRuns = false)
      (announces : Announces (.fileRun id) (run.lifecycleRevision + 1)
        ((T.workspace run.workspaceId).isSome && wasActive previous &&
          (t.update run).state.terminal) event) :
      Changes T (.updateFileRun id t previous now)
        (Tables.insertEvent
          { T with fileRuns := Table.replace FileRun.id (t.update run) T.fileRuns } event)
  | created {values : RemoteRunValues} (newId : T.remoteRun values.id = none)
      (computer : (T.computer values.targetComputerId).isSome) :
      Changes T (.createRemoteRun values) { T with remoteRuns := T.remoteRuns ++ [values.run] }
  | remoteRun {id : String} {t : Transition} {previous : Option RunState} {now : Nat}
      {run : RemoteRunRow} {event : Option Event} (found : T.remoteRun id = some run)
      (selected : t.selects run.row = true)
      (announces : Announces (.remoteRun id) (run.row.lifecycleRevision + 1)
        ((T.computer run.targetComputerId).isSome && wasActive previous &&
          (t.update run.row).state.terminal) event) :
      Changes T (.updateRemoteRun id t previous now)
        (Tables.insertEvent
          { T with
            remoteRuns := Table.replace RemoteRunRow.id { run with row := t.update run.row }
              T.remoteRuns } event)
  | backfilled {now : Nat} : Changes T (.initializeStore now) (backfill now T)

/-- **What an operation can do**: leave the world as it is, commit the tables as they are, or
    commit a change. -/
theorem StoreOp.step_cases {o : StoreOp} {a : o.Ans} {u v : StoreWorld} (h : o.step a u v) :
    v = u ∨ v = u.commit u.tables ∨ ∃ T, v = u.commit T ∧ o.Changes u.tables T := by
  cases o with
  | utcNow => exact .inl h
  | selectState s => exact .inl h.1
  | claimFileRun claim now =>
    cases h with
    | committed ran =>
      rename_i answer T
      rcases claimFileRun_cases ran with ⟨row, -, -, hr⟩ | ⟨hkeys, ⟨row, -, -, -, hr⟩ | hfree⟩
      · split at hr
        · obtain ⟨-, rfl⟩ := Prod.mk.inj (Except.ok.inj hr)
          exact .inr (.inl rfl)
        · exact nomatch hr
      · obtain ⟨-, rfl⟩ := Prod.mk.inj (Except.ok.inj hr)
        exact .inr (.inl rfl)
      · rcases hfree with ⟨hfree, hr | ⟨hid, hws, hr⟩⟩
        · exact nomatch hr
        · obtain ⟨-, rfl⟩ := Prod.mk.inj (Except.ok.inj hr)
          exact .inr (.inr ⟨_, rfl, .claimed hkeys hfree hid hws⟩)
    | raised ran => exact .inl rfl
    | failed => exact .inl rfl
  | updateFileRun id t previous now =>
    cases h with
    | committed ran =>
      rcases updateFileRun_cases ran with ⟨-, rfl⟩ | ⟨run, event, -, hrun, hs, hc, rfl, ha⟩
      · exact .inr (.inl rfl)
      · exact .inr (.inr ⟨_, rfl, .fileRun hrun hs hc ha⟩)
    | raised ran => exact .inl rfl
    | failed => exact .inl rfl
  | createRemoteRun values =>
    cases h with
    | committed ran =>
      rcases createRemoteRun_cases ran with rfl | ⟨hid, hc, rfl⟩
      · exact .inr (.inl rfl)
      · exact .inr (.inr ⟨_, rfl, .created hid hc⟩)
    | raised ran => exact .inl rfl
    | failed => exact .inl rfl
  | updateRemoteRun id t previous now =>
    cases h with
    | committed ran =>
      rcases updateRemoteRun_cases ran with ⟨-, rfl⟩ | ⟨run, event, -, hrun, hs, rfl, ha⟩
      · exact .inr (.inl rfl)
      · exact .inr (.inr ⟨_, rfl, .remoteRun hrun hs ha⟩)
    | raised ran => exact .inl rfl
    | failed => exact .inl rfl
  | initializeStore now =>
    cases h with
    | committed ran =>
      obtain ⟨-, rfl⟩ := Prod.mk.inj (Except.ok.inj ran)
      exact .inr (.inr ⟨_, rfl, .backfilled⟩)
    | raised ran => exact nomatch ran
    | failed => exact .inl rfl

theorem StoreOp.Changes.constrained {o : StoreOp} {T T' : Tables} (h : o.Changes T T')
    (hT : T.Constrained) : T'.Constrained := by
  cases h with
  | claimed fresh free newId workspace =>
    rename_i claim now
    refine ⟨?_, ?_, ?_, ?_, hT.computers⟩
    · rw [List.map_append]
      refine List.Nodup.append hT.fileRunIds (by simp) ?_
      rw [List.map_singleton, List.disjoint_singleton]
      intro h
      obtain ⟨run, hrun, hid⟩ := List.mem_map.mp h
      exact Table.find_eq_none.mp newId run hrun hid
    · refine hT.keys.append (List.any_eq_false.mpr fun row hrow => ?_)
      have := fresh row hrow
      simp only [FileRunClaim.Keyed] at this
      simpa [FileRun.keyIndex, FileRunClaim.run] using fun _ => this
    · refine hT.active.append (List.any_eq_false.mpr fun row hrow => ?_)
      have := free row hrow
      by_cases hws : row.workspaceId = claim.workspaceId
      · simp [FileRun.activeIndex, this hws]
      · simp [FileRun.activeIndex, hws, FileRunClaim.run, FileRun.active, RunState.terminal]
    · intro run hrun
      rcases List.mem_append.mp hrun with hrun | hrun
      · exact hT.workspaces run hrun
      · rw [List.mem_singleton.mp hrun]
        exact workspace
  | fileRun found expected free announces =>
    rename_i id t previous now run event
    refine ⟨?_, ?_, ?_, ?_, ?_⟩
    · rw [Tables.insertEvent_fileRuns, Table.map_key_replace]
      exact hT.fileRunIds
    · rw [Tables.insertEvent_fileRuns]
      intro a ha b hb i hai hbi
      -- the UPDATE writes no column of the index
      have old {x : FileRun} (h : x ∈ Table.replace FileRun.id (t.update run) T.fileRuns) :
          ∃ y ∈ T.fileRuns, y.id = x.id ∧ y.keyIndex = x.keyIndex := by
        rcases Table.mem_replace h with rfl | ⟨h, -⟩
        · exact ⟨run, Table.find_mem found, rfl, rfl⟩
        · exact ⟨x, h, rfl, rfl⟩
      obtain ⟨a', ha', hida, hka⟩ := old ha
      obtain ⟨b', hb', hidb, hkb⟩ := old hb
      rw [← hida, ← hidb]
      exact hT.keys a' ha' b' hb' i (hka ▸ hai) (hkb ▸ hbi)
    · rw [Tables.insertEvent_fileRuns]
      exact hT.active.replace free
    · intro x hx
      rw [Tables.insertEvent_fileRuns] at hx
      rw [Tables.insertEvent_workspace]
      rcases Table.mem_replace hx with rfl | ⟨hx, -⟩
      · exact hT.workspaces run (Table.find_mem found)
      · exact hT.workspaces x hx
    · intro x hx
      rw [Tables.insertEvent_remoteRuns] at hx
      rw [Tables.insertEvent_computer]
      exact hT.computers x hx
  | created newId computer =>
    refine ⟨hT.fileRunIds, hT.keys, hT.active, hT.workspaces, fun run hrun => ?_⟩
    rcases List.mem_append.mp hrun with hrun | hrun
    · exact hT.computers run hrun
    · rw [List.mem_singleton.mp hrun]
      exact computer
  | remoteRun found selected announces =>
    rename_i id t previous now run event
    refine ⟨?_, ?_, ?_, ?_, ?_⟩
    · rw [Tables.insertEvent_fileRuns]; exact hT.fileRunIds
    · rw [Tables.insertEvent_fileRuns]; exact hT.keys
    · rw [Tables.insertEvent_fileRuns]; exact hT.active
    · intro x hx
      rw [Tables.insertEvent_fileRuns] at hx
      rw [Tables.insertEvent_workspace]
      exact hT.workspaces x hx
    · intro x hx
      rw [Tables.insertEvent_remoteRuns] at hx
      rw [Tables.insertEvent_computer]
      rcases Table.mem_replace hx with rfl | ⟨hx, -⟩
      · exact hT.computers run (Table.find_mem found)
      · exact hT.computers x hx
  | backfilled =>
    rw [backfill_frame]
    exact ⟨hT.fileRunIds, hT.keys, hT.active, hT.workspaces, hT.computers⟩

/-- **The schema's constraints hold of the committed tables.** -/
theorem StoreOp.step_constrained {o : StoreOp} {a : o.Ans} {u v : StoreWorld}
    (h : o.step a u v) (hu : u.tables.Constrained) : v.tables.Constrained := by
  rcases StoreOp.step_cases h with rfl | rfl | ⟨T, rfl, hT⟩
  · exact hu
  · exact hu
  · exact hT.constrained hu

/-! ## 2. The methods -/

abbrev StoreProg := Prog StoreSig StoreError

def atomic (o : StoreOp) : StoreProg o.Ans := @Prog.perform StoreSig StoreError o

/-- A statement whose exception goes through. -/
def execute {α : Type} (p : StoreProg (Except StoreError α)) : StoreProg α := do
  let r ← p
  .ofExcept r

inductive StoreCall where
  | claimFileRun (claim : FileRunClaim)
  | transitionFileRun (id : String) (t : FileTransition)
  | createRemoteRun (values : RemoteRunValues)
  | transitionRemoteRun (id : String) (t : Transition)
  | initializeStore
  deriving DecidableEq

abbrev StoreCall.Ret : StoreCall → Type
  | .claimFileRun _ => ClaimStatus × FileRun
  | .transitionFileRun _ _ | .transitionRemoteRun _ _ => Bool
  | .createRemoteRun _ => RemoteRunRow × Bool
  | .initializeStore => Unit

/-- `StateStore.transition_file_run`. -/
def transitionFileRun (id : String) (t : FileTransition) : StoreProg Bool :=
  if t.expectedStates.isEmpty then .raise (.value "Invalid expected File Run states")
  else if t.assigns then do
    let previous ← execute (atomic (.selectState (.fileRun id)))
    let now ← atomic .utcNow
    execute (atomic (.updateFileRun id t previous now))
  else pure false

/-- `StateStore.transition_remote_run`. -/
def transitionRemoteRun (id : String) (t : Transition) : StoreProg Bool :=
  if t.expectedStates.isEmpty then .raise (.value "Invalid expected Remote Run states")
  else if t.assigns then do
    let previous ← execute (atomic (.selectState (.remoteRun id)))
    let now ← atomic .utcNow
    execute (atomic (.updateRemoteRun id t previous now))
  else pure false

def StoreCall.body : (c : StoreCall) → StoreProg c.Ret
  | .claimFileRun claim => do
    let now ← atomic .utcNow
    execute (atomic (.claimFileRun claim now))
  | .transitionFileRun id t => Store.transitionFileRun id t
  | .createRemoteRun values => execute (atomic (.createRemoteRun values))
  | .transitionRemoteRun id t => Store.transitionRemoteRun id t
  | .initializeStore => do
    let now ← atomic .utcNow
    execute (atomic (.initializeStore now))

/-- Any number of calls on one database. -/
abbrev storeSystem : System StoreSig StoreError where
  World := StoreWorld
  Label := StoreCall
  Ret := StoreCall.Ret
  body := StoreCall.body
  step := fun _ _ o a u v => o.step a u v
  start := fun _ _ u v => v = u
  env := fun u v => v = u

/-- The calls and the environment leave the world alone, so what every operation keeps holds
    of every run. -/
theorem store_invariant (Inv : StoreWorld → Prop)
    (step : ∀ (o : StoreOp) (a : o.Ans) u v, o.step a u v → Inv u → Inv v)
    {p q : Pool storeSystem} {es : List (Conc.Event storeSystem)}
    (run : Run (Pool.Step storeSystem) p es q) (hp : Inv p.world) : Inv q.world :=
  Pool.world_invariant Inv (fun _ _ => step) (fun _ _ _ _ h hu => h ▸ hu) (fun _ _ h hu => h ▸ hu)
    run hp

/-! ## 3. Playing a schedule -/

inductive StoreChoice where
  | proceed
  /-- What the clock shows. -/
  | clock (seconds : Nat)
  deriving DecidableEq, Repr

/-- A transaction that does not fail. -/
def StoreWorld.transact {α : Type} (w : StoreWorld) (r : Except StoreError (α × Tables)) :
    Except StoreError α × StoreWorld :=
  match r with
  | .ok (x, T) => (.ok x, w.commit T)
  | .error e => (.error e, w)

theorem StoreWorld.transact_commits {α : Type} (w : StoreWorld)
    (r : Except StoreError (α × Tables)) : Commits r (w.transact r).1 w (w.transact r).2 := by
  cases r with
  | ok x => exact .committed rfl
  | error e => exact .raised rfl

def StoreOp.play : StoreChoice → (o : StoreOp) → StoreWorld → Option (o.Ans × StoreWorld)
  | .clock seconds, .utcNow, u => some (seconds, u)
  | .proceed, .selectState s, u => some (.ok ((u.tables.lifecycle s).map Prod.fst), u)
  | .proceed, .claimFileRun claim now, u =>
    some (u.transact (Store.claimFileRun claim now u.tables))
  | .proceed, .updateFileRun id t previous now, u =>
    some (u.transact (Store.updateFileRun id t previous now u.tables))
  | .proceed, .createRemoteRun values, u =>
    some (u.transact (Store.createRemoteRun values u.tables))
  | .proceed, .updateRemoteRun id t previous now, u =>
    some (u.transact (Store.updateRemoteRun id t previous now u.tables))
  | .proceed, .initializeStore now, u => some (u.transact (.ok ((), backfill now u.tables)))
  | _, _, _ => none

theorem StoreOp.play_sound {c : StoreChoice} {o : StoreOp} {a : o.Ans} {u v : StoreWorld}
    (h : StoreOp.play c o u = some (a, v)) : o.step a u v := by
  have transacted {α : Type} {r : Except StoreError (α × Tables)} {a : Except StoreError α}
      (h : some (u.transact r) = some (a, v)) : Commits r a u v := by
    have := u.transact_commits r
    rw [Option.some.inj h] at this
    exact this
  cases c with
  | clock seconds => cases o <;> simp [play, step] at h ⊢; exact h.2.symm
  | proceed =>
    cases o with
    | utcNow => exact absurd h (by simp [play])
    | selectState s =>
      simp only [play, Option.some.injEq, Prod.mk.injEq] at h
      exact ⟨h.2.symm, .inl h.1.symm⟩
    | claimFileRun claim now => exact transacted h
    | updateFileRun id t previous now => exact transacted h
    | createRemoteRun values => exact transacted h
    | updateRemoteRun id t previous now => exact transacted h
    | initializeStore now => exact transacted h

def storePlayer : Player storeSystem StoreChoice where
  start := fun _ _ u => some u
  act := fun c _ _ o u => StoreOp.play c o u
  start_sound := by rintro t l u v h; exact (Option.some.inj h).symm
  act_sound := StoreOp.play_sound

end Termroom.Store
