import Termroom.Store.Calls

/-!
# One Activity event for each end of a run

A run enters a terminal state in a commit that finds it in no terminal state and leaves it in
one; `entries` reads these off the history of commits, each with the lifecycle revision the
run has then. The events a run should have are exactly these.

`transition_file_run` and `transition_remote_run` decide whether to insert an event by the
state their first SELECT read, outside the transaction of their UPDATE, and `initialize`
inserts one for the revision it finds. `Undisturbed` says when each is right: the UPDATE
that ends a run finds it ended or not as the SELECT did, and a startup finds every ended
Remote Run at a revision at which it ended. Then the events are the entries
(`one_event_per_end`). A retry of a failed Remote Run between the two statements of a stop
breaks the first, and its end gets no event (`end_without_event`).
-/

set_option autoImplicit false

namespace Termroom.Store

open Conc Data RemoteRun

/-! ## 1. Ends and events -/

/-- The revision at which a run entered a terminal state between two tables. -/
def entered (s : Subject) (before after : Tables) : Option Nat :=
  match before.lifecycle s, after.lifecycle s with
  | some (state, _), some (state', revision) =>
    if !state.terminal && state'.terminal then some revision else none
  | _, _ => none

/-- Every entry of a run into a terminal state, in order. -/
def entries (s : Subject) (commits : List (Tables × Tables)) : List Nat :=
  commits.filterMap fun (before, after) => entered s before after

/-- The revisions of the stored events of a run, in order. -/
def eventRevisions (s : Subject) (T : Tables) : List Nat :=
  (T.events.filter fun e => e.subject = s).map Event.subjectRevision

variable {s s' : Subject} {T T' : Tables} {o : StoreOp} {u v : StoreWorld}

theorem entered_of_eq (h : T'.lifecycle s = T.lifecycle s) : entered s T T' = none := by
  unfold entered
  rw [h]
  cases T.lifecycle s with
  | none => rfl
  | some p => cases hp : p.1.terminal <;> simp [hp]

theorem entered_of_new (h : T.lifecycle s = none) : entered s T T' = none := by
  unfold entered
  rw [h]

theorem entries_commit (w : StoreWorld) (T : Tables) :
    entries s (w.commit T).commits = entries s w.commits ++ (entered s w.tables T).toList := by
  unfold entries StoreWorld.commit
  rw [List.filterMap_append]
  cases h : entered s w.tables T <;> simp [h]

theorem mem_eventRevisions {revision : Nat} :
    revision ∈ eventRevisions s T ↔ ∃ e ∈ T.events, e.subject = s ∧ e.subjectRevision = revision := by
  simp [eventRevisions, and_assoc]

/-! ## 2. Inserting an event -/

@[simp] theorem insertEvent_lifecycle (T : Tables) (event : Option Event) :
    (T.insertEvent event).lifecycle s = T.lifecycle s := by
  rw [Tables.insertEvent_frame]
  cases s <;> rfl

/-- An event for a revision that has none is one more event of its run. -/
theorem insertEvent_revisions {revision : Nat} {event : Option Event}
    (h : Announces s revision true event) (new : revision ∉ eventRevisions s T) :
    eventRevisions s' (T.insertEvent event) =
      eventRevisions s' T ++ if s' = s then [revision] else [] := by
  obtain ⟨e, rfl, hs, hr⟩ := h
  have hnew : (T.events.any fun f => f.subject = e.subject &&
      f.subjectRevision = e.subjectRevision) = false := by
    refine List.any_eq_false.mpr fun f hf => ?_
    have := fun h => new (mem_eventRevisions.mpr ⟨f, hf, h⟩)
    simpa [hs, hr] using this
  simp only [Tables.insertEvent, hnew, eventRevisions]
  by_cases hss : s' = s
  · simp [hss, hs, hr]
  · simp [hss, hs, Ne.symm hss]

/-- An event for a revision that has one changes nothing. -/
theorem insertEvent_again {revision : Nat} {announced : Bool} {event : Option Event}
    (h : Announces s revision announced event)
    (old : announced = true → revision ∈ eventRevisions s T) : T.insertEvent event = T := by
  cases announced with
  | false =>
    rw [show event = none from h]
    rfl
  | true =>
    obtain ⟨e, rfl, hs, hr⟩ := h
    obtain ⟨f, hf, hfs, hfr⟩ := mem_eventRevisions.mp (old rfl)
    have : (T.events.any fun f => f.subject = e.subject &&
        f.subjectRevision = e.subjectRevision) = true :=
      List.any_eq_true.mpr ⟨f, hf, by simp [hfs, hfr, hs, hr]⟩
    simp [Tables.insertEvent, this]

/-! ## 3. Where a change leaves each run -/

theorem lifecycle_claim {claim : FileRunClaim} {now : Nat} (h : s ≠ .fileRun claim.id) :
    Tables.lifecycle { T with fileRuns := T.fileRuns ++ [claim.run now] } s = T.lifecycle s := by
  cases s with
  | remoteRun id => rfl
  | fileRun id =>
    have hid : FileRun.id (claim.run now) ≠ id := fun e => h (e ▸ rfl)
    simp only [Tables.lifecycle, Tables.fileRun, Table.find_append_ne hid]

theorem lifecycle_create {values : RemoteRunValues} (h : s ≠ .remoteRun values.id) :
    Tables.lifecycle { T with remoteRuns := T.remoteRuns ++ [values.run] } s =
      T.lifecycle s := by
  cases s with
  | fileRun id => rfl
  | remoteRun id =>
    have hid : RemoteRunRow.id values.run ≠ id := fun e => h (e ▸ rfl)
    simp only [Tables.lifecycle, Tables.remoteRun, Table.find_append_ne hid]

theorem lifecycle_fileRun {run run' : FileRun} (found : T.fileRun run'.id = some run) :
    Tables.lifecycle { T with fileRuns := Table.replace FileRun.id run' T.fileRuns } s =
      if s = .fileRun run'.id then some (run'.state, run'.lifecycleRevision)
      else T.lifecycle s := by
  cases s with
  | remoteRun id => rfl
  | fileRun id =>
    by_cases hid : id = run'.id
    · subst hid
      rw [if_pos rfl]
      simp only [Tables.lifecycle, Tables.fileRun, Table.find_replace_self found, Option.map_some]
    · rw [if_neg (by simpa using hid)]
      simp only [Tables.lifecycle, Tables.fileRun, Table.find_replace_ne (Ne.symm hid)]

theorem lifecycle_remoteRun {run run' : RemoteRunRow} (found : T.remoteRun run'.id = some run) :
    Tables.lifecycle { T with remoteRuns := Table.replace RemoteRunRow.id run' T.remoteRuns } s =
      if s = .remoteRun run'.id then some (run'.row.state, run'.row.lifecycleRevision)
      else T.lifecycle s := by
  cases s with
  | fileRun id => rfl
  | remoteRun id =>
    by_cases hid : id = run'.id
    · subst hid
      rw [if_pos rfl]
      simp only [Tables.lifecycle, Tables.remoteRun, Table.find_replace_self found, Option.map_some]
    · rw [if_neg (by simpa using hid)]
      simp only [Tables.lifecycle, Tables.remoteRun, Table.find_replace_ne (Ne.symm hid)]

/-! ## 4. The condition -/

/-- The operation acts on what its call has read: an UPDATE that ends a run finds the run in a
    terminal state or not as the SELECT before it did, and a startup finds no Remote Run in a
    terminal state at a revision other than one at which it entered a terminal state. -/
def StoreOp.Undisturbed (u : StoreWorld) : StoreOp → Prop
  | .updateFileRun id t previous _ => ∀ run, u.tables.fileRun id = some run →
      run.state ∈ t.expectedStates → (t.update run).state.terminal = true →
      wasActive previous = !run.state.terminal
  | .updateRemoteRun id t previous _ => ∀ run, u.tables.remoteRun id = some run →
      t.selects run.row = true → (t.update run.row).state.terminal = true →
      wasActive previous = !run.row.state.terminal
  | .initializeStore _ => ∀ run ∈ u.tables.remoteRuns, run.row.state.terminal = true →
      run.row.lifecycleRevision ∈ entries (.remoteRun run.id) u.commits
  | _ => True

instance (u : StoreWorld) (o : StoreOp) : Decidable (o.Undisturbed u) :=
  match o with
  | .updateFileRun id t previous _ => inferInstanceAs (Decidable (∀ run ∈ u.tables.fileRun id,
      run.state ∈ t.expectedStates → (t.update run).state.terminal = true →
      wasActive previous = !run.state.terminal))
  | .updateRemoteRun id t previous _ =>
    inferInstanceAs (Decidable (∀ run ∈ u.tables.remoteRun id,
      t.selects run.row = true → (t.update run.row).state.terminal = true →
      wasActive previous = !run.row.state.terminal))
  | .initializeStore _ => inferInstanceAs (Decidable (∀ run ∈ u.tables.remoteRuns,
      run.row.state.terminal = true →
      run.row.lifecycleRevision ∈ entries (.remoteRun run.id) u.commits))
  | .utcNow | .selectState _ | .claimFileRun _ _ | .createRemoteRun _ => .isTrue trivial

/-- The calls whose operations are all `Undisturbed`. -/
abbrev undisturbedSystem : System StoreSig StoreError :=
  storeSystem.restrict fun _ _ o _ u _ => o.Undisturbed u

/-! ## 5. One step -/

structure ActivityInv (w : StoreWorld) : Prop where
  constrained : w.tables.Constrained
  counted : ∀ s, eventRevisions s w.tables = entries s w.commits
  /-- A run's events are of revisions it has reached. -/
  reached : ∀ s revision, revision ∈ eventRevisions s w.tables →
    ∃ state current, w.tables.lifecycle s = some (state, current) ∧ revision ≤ current

/-- What a change other than a transition or a startup does: it makes a run, or none. -/
theorem ActivityInv.grow (h : ActivityInv u) (hT : T.Constrained)
    (events : T.events = u.tables.events)
    (same : ∀ s, u.tables.lifecycle s = none ∨ T.lifecycle s = u.tables.lifecycle s) :
    ActivityInv (u.commit T) := by
  have revisions (s : Subject) : eventRevisions s T = eventRevisions s u.tables := by
    unfold eventRevisions
    rw [events]
  refine ⟨hT, fun s => ?_, fun s revision hr => ?_⟩
  · have hnone : entered s u.tables T = none := (same s).elim entered_of_new entered_of_eq
    rw [entries_commit, hnone, ← h.counted s, Option.toList_none, List.append_nil]
    exact revisions s
  · obtain ⟨state, current, hl, hle⟩ := h.reached s revision (revisions s ▸ hr)
    refine ⟨state, current, ?_, hle⟩
    rcases same s with hs | hs
    · rw [hs] at hl
      exact nomatch hl
    · exact hs.trans hl

/-- **A transition of one run.** It leaves the others alone, moves the run on by one revision
    and announces the end that it is. -/
theorem ActivityInv.move {r : Subject} {state state' : RunState} {revision : Nat}
    {announced : Bool} {event : Option Event} (h : ActivityInv u)
    (hT : (T.insertEvent event).Constrained) (events : T.events = u.tables.events)
    (from_ : u.tables.lifecycle r = some (state, revision))
    (lifecycle : ∀ s, T.lifecycle s =
      if s = r then some (state', revision + 1) else u.tables.lifecycle s)
    (announces : Announces r (revision + 1) announced event)
    (ends : announced = (!state.terminal && state'.terminal)) :
    ActivityInv (u.commit (T.insertEvent event)) := by
  have revisions (s : Subject) : eventRevisions s T = eventRevisions s u.tables := by
    unfold eventRevisions
    rw [events]
  have new : revision + 1 ∉ eventRevisions r T := by
    intro hr
    obtain ⟨_, current, hl, hle⟩ := h.reached r _ (revisions r ▸ hr)
    rw [from_] at hl
    obtain ⟨-, rfl⟩ := Prod.mk.inj (Option.some.inj hl)
    omega
  have inserted (s : Subject) : eventRevisions s (T.insertEvent event) =
      eventRevisions s u.tables ++ (entered s u.tables (T.insertEvent event)).toList := by
    have hentered : entered s u.tables (T.insertEvent event) =
        if s = r ∧ announced = true then some (revision + 1) else none := by
      by_cases hs : s = r
      · subst hs
        unfold entered
        rw [insertEvent_lifecycle, lifecycle, if_pos rfl, from_]
        simp [ends]
      · rw [if_neg (fun hsr => hs hsr.1)]
        exact entered_of_eq (by rw [insertEvent_lifecycle, lifecycle, if_neg hs])
    rw [hentered]
    cases announced with
    | false =>
      rw [show event = none from announces]
      simpa [Tables.insertEvent] using revisions s
    | true =>
      rw [insertEvent_revisions announces new, revisions]
      by_cases hs : s = r <;> simp [hs]
  refine ⟨hT, fun s => ?_, fun s rev hr => ?_⟩
  · rw [entries_commit, ← h.counted s]
    exact inserted s
  · show ∃ state current, (T.insertEvent event).lifecycle s = some (state, current) ∧ rev ≤ current
    have hr : rev ∈ eventRevisions s (T.insertEvent event) := hr
    rw [insertEvent_lifecycle, lifecycle]
    rw [inserted, List.mem_append] at hr
    have old (hr : rev ∈ eventRevisions s u.tables) := h.reached s rev hr
    by_cases hs : s = r
    · subst hs
      rw [if_pos rfl]
      refine ⟨state', revision + 1, rfl, ?_⟩
      rcases hr with hr | hr
      · obtain ⟨_, current, hl, hle⟩ := old hr
        rw [from_] at hl
        obtain ⟨-, rfl⟩ := Prod.mk.inj (Option.some.inj hl)
        omega
      · unfold entered at hr
        rw [insertEvent_lifecycle, lifecycle, if_pos rfl, from_] at hr
        split at hr <;> simp_all
    · rw [if_neg hs]
      rcases hr with hr | hr
      · exact old hr
      · rw [entered_of_eq (by rw [insertEvent_lifecycle, lifecycle, if_neg hs])] at hr
        exact absurd hr (by simp)

/-- A startup that finds every end announced writes nothing. -/
theorem backfill_again {now : Nat} (announced : ∀ run ∈ T.remoteRuns,
    run.row.state.terminal = true →
      run.row.lifecycleRevision ∈ eventRevisions (.remoteRun run.id) T) :
    backfill now T = T := by
  have again : ∀ run ∈ T.remoteRuns, backfillRun now T run = T := by
    intro run hrun
    unfold backfillRun
    split
    · rfl
    · exact insertEvent_again (remoteRunEvent_announces run _ now true) (announced run hrun)
  have fold (runs : List RemoteRunRow) (h : ∀ run ∈ runs, run ∈ T.remoteRuns) :
      runs.foldl (backfillRun now) T = T := by
    induction runs with
    | nil => rfl
    | cons run runs ih =>
      rw [List.foldl_cons, again run (h run (List.mem_cons_self ..))]
      exact ih fun run' hrun' => h run' (List.mem_cons_of_mem _ hrun')
  refine fold _ fun run hrun => ?_
  exact (List.mem_filter.mp (List.mem_mergeSort.mp hrun)).1

theorem StoreOp.Changes.activity (h : o.Changes u.tables T) (hu : ActivityInv u)
    (undisturbed : o.Undisturbed u) : ActivityInv (u.commit T) := by
  have hT := h.constrained hu.constrained
  cases h with
  | claimed fresh free newId workspace =>
    rename_i claim now
    refine hu.grow hT rfl fun s => ?_
    by_cases hs : s = .fileRun claim.id
    · subst hs
      exact .inl (by rw [Tables.lifecycle, newId]; rfl)
    · exact .inr (lifecycle_claim hs)
  | @fileRun id t previous now run event found expected free announces =>
    have hid : run.id = id := Table.find_key found
    subst hid
    have before : u.tables.lifecycle (.fileRun run.id) = some (run.state, run.lifecycleRevision) := by
      rw [Tables.lifecycle, found]
      rfl
    have after (s : Subject) : Tables.lifecycle
        { u.tables with fileRuns := Table.replace FileRun.id (t.update run) u.tables.fileRuns } s =
        if s = .fileRun run.id then some ((t.update run).state, run.lifecycleRevision + 1)
        else u.tables.lifecycle s := lifecycle_fileRun found
    refine hu.move hT rfl before after announces ?_
    rw [hu.constrained.workspaces run (Table.find_mem found), Bool.true_and]
    cases ends : (t.update run).state.terminal with
    | false => simp
    | true => simp [undisturbed run found expected ends]
  | created newId computer =>
    rename_i values
    refine hu.grow hT rfl fun s => ?_
    by_cases hs : s = .remoteRun values.id
    · subst hs
      exact .inl (by rw [Tables.lifecycle, newId]; rfl)
    · exact .inr (lifecycle_create hs)
  | @remoteRun id t previous now run event found selected announces =>
    have hid : run.id = id := Table.find_key found
    subst hid
    have before : u.tables.lifecycle (.remoteRun run.id) =
        some (run.row.state, run.row.lifecycleRevision) := by
      rw [Tables.lifecycle, found]
      rfl
    have after (s : Subject) : Tables.lifecycle
        { u.tables with
          remoteRuns := Table.replace RemoteRunRow.id { run with row := t.update run.row }
            u.tables.remoteRuns } s =
        if s = .remoteRun run.id then
          some ((t.update run.row).state, run.row.lifecycleRevision + 1)
        else u.tables.lifecycle s := lifecycle_remoteRun found
    refine hu.move hT rfl before after announces ?_
    rw [hu.constrained.computers run (Table.find_mem found), Bool.true_and]
    cases ends : (t.update run.row).state.terminal with
    | false => simp
    | true => simp [undisturbed run found selected ends]
  | backfilled =>
    rename_i now
    have again : backfill now u.tables = u.tables := by
      refine backfill_again fun run hrun ended => ?_
      rw [hu.counted]
      exact undisturbed run hrun ended
    rw [again]
    exact hu.grow hu.constrained rfl fun s => .inr rfl

/-- **The step lemma.** -/
theorem StoreOp.step_activity {a : o.Ans} (h : o.step a u v) (undisturbed : o.Undisturbed u)
    (hu : ActivityInv u) : ActivityInv v := by
  rcases StoreOp.step_cases h with rfl | rfl | ⟨T, rfl, hT⟩
  · exact hu
  · exact hu.grow hu.constrained rfl fun s => .inr rfl
  · exact hT.activity hu undisturbed

/-! ## 6. Over runs -/

theorem ActivityInv.fresh (workspaces : List Workspace) (computers : List Computer) :
    ActivityInv ⟨.fresh workspaces computers, []⟩ where
  constrained := Tables.fresh_constrained _ _
  counted := fun _ => rfl
  reached := fun _ _ h => absurd h (by simp [eventRevisions, Tables.fresh])

/-- **Exactly one event for each end.** In every interleaving of undisturbed calls and
    restarts on a store that started without runs, the stored events of a run are its entries
    into a terminal state: as many, in their order, each with the revision the run had. -/
theorem one_event_per_end {workspaces : List Workspace} {computers : List Computer}
    {es : List (Conc.Event undisturbedSystem)} {p : Pool undisturbedSystem}
    (run : undisturbedSystem.Runs ⟨.fresh workspaces computers, []⟩ es p) (s : Subject) :
    (p.world.tables.events.filter fun e => e.subject = s).map Event.subjectRevision =
      entries s p.world.commits := by
  have step (t : Nat) (l : StoreCall) (o : StoreOp) (a : o.Ans) (u v : StoreWorld)
      (h : undisturbedSystem.step t l o a u v) (hu : ActivityInv u) : ActivityInv v :=
    StoreOp.step_activity h.1 h.2 hu
  have inv : ActivityInv p.world := Pool.world_invariant ActivityInv step
    (fun _ _ _ _ h hu => h ▸ hu) (fun _ _ h hu => h ▸ hu) run (.fresh workspaces computers)
  exact inv.counted s

/-! ## 7. An end without an event -/

def sampleValues : RemoteRunValues where
  id := "run"
  sourceLabel := "archive.zip"
  targetComputerId := "computer"
  createdAt := 5
  sourceKind := .archive
  archiveName := "archive.zip"
  state := .preparing
  phase := some .waitingUpload
  expiresAt := some 605
  sourceRevision := none
  sourceSize := none
  workspaceId := none

/-- A store with one Remote. -/
def oneComputer : StoreWorld := ⟨.fresh [] [⟨"computer", "Remote"⟩], []⟩

/-- `_fail`, a stop before the program has started, and `retry_preparation`. -/
def failRun : StoreCall :=
  .transitionRemoteRun "run" { expectedStates := [.preparing], state := some .failed }

def stopRun : StoreCall :=
  .transitionRemoteRun "run" { expectedStates := [.preparing], state := some .stopped }

def retryRun : StoreCall :=
  .transitionRemoteRun "run" { expectedStates := [.failed], state := some .preparing }

/-- **A stop whose end gets no event.** It reads `failed`, the failed preparation is retried,
    and its UPDATE ends the run a second time. -/
theorem end_without_event :
    ∃ (es : List (Conc.Event storeSystem)) (p : Pool storeSystem),
      storeSystem.Runs oneComputer es p ∧
        entries (.remoteRun "run") p.world.commits = [1, 3] ∧
        eventRevisions (.remoteRun "run") p.world.tables = [1] := by
  have played : (storePlayer.play (.init oneComputer)
      [.call (.createRemoteRun sampleValues), .act 0 .proceed,
        .call failRun, .act 1 .proceed, .act 1 (.clock 6), .act 1 .proceed,
        .call stopRun, .act 2 .proceed,
        .call retryRun, .act 3 .proceed, .act 3 (.clock 7), .act 3 .proceed,
        .act 2 (.clock 8), .act 2 .proceed]).map
      (fun p => (entries (.remoteRun "run") p.world.commits,
        eventRevisions (.remoteRun "run") p.world.tables)) = some ([1, 3], [1]) := by
    decide +kernel
  obtain ⟨p, hp, hview⟩ := Option.map_eq_some_iff.mp played
  obtain ⟨hentries, hevents⟩ := Prod.mk.inj hview
  obtain ⟨es, run⟩ := storePlayer.play_sound hp
  exact ⟨es, p, run, hentries, hevents⟩

/-- A failed preparation is retried and stopped, with a restart after each end. -/
theorem one_event_per_end_retried :
    ∃ p : Pool undisturbedSystem, entries (.remoteRun "run") p.world.commits = [1, 3] ∧
      (p.world.tables.events.filter fun e => e.subject = .remoteRun "run").map
        Event.subjectRevision = entries (.remoteRun "run") p.world.commits := by
  let player : Player undisturbedSystem StoreChoice :=
    storePlayer.restrict (fun _ _ o _ u _ => decide (o.Undisturbed u))
      fun _ _ _ _ _ _ h => of_decide_eq_true h
  have played : (player.play (.init oneComputer)
      [.call (.createRemoteRun sampleValues), .act 0 .proceed,
        .call failRun, .act 1 .proceed, .act 1 (.clock 6), .act 1 .proceed,
        .call .initializeStore, .act 2 (.clock 7), .act 2 .proceed,
        .call retryRun, .act 3 .proceed, .act 3 (.clock 8), .act 3 .proceed,
        .call stopRun, .act 4 .proceed, .act 4 (.clock 9), .act 4 .proceed,
        .call .initializeStore, .act 5 (.clock 10), .act 5 .proceed]).map
      (fun p => entries (.remoteRun "run") p.world.commits) = some [1, 3] := by
    decide +kernel
  obtain ⟨p, hp, hentries⟩ := Option.map_eq_some_iff.mp played
  obtain ⟨es, run⟩ := player.play_sound hp
  exact ⟨p, hentries, one_event_per_end run _⟩

end Termroom.Store
