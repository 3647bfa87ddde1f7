import Termroom.RemoteRun.Manager

/-!
# What each method of the manager can do at all

The footprints of the manager's programs. A `Quiet` program looks around and calls the Remote;
it starts nothing and ends nothing. Most others are `Routine`: where they write the row they
move the Run forward. What else a program does is named in its lemma, and it is little: `poll`
and `reconcile` drop the spool of a running Run, an upload and a retry start a preparation,
the deleting calls remove things.

What a quiet program does every class of operations here admits (`Admits`), so its lemma is
stated once, for all of them.

One line of a proof here is one line of the program. Nothing about the state is used: these
facts hold whatever the others do.
-/

set_option autoImplicit false

namespace Termroom.RemoteRun

open Conc Prog

/-! ## 1. Classes of operations -/

/-- The operation removes the row, the Remote's files or the spool. -/
def RunOp.Removes : RunOp → Prop
  | .deleteRow | .removeSpool | .backend .deleteRoot => True
  | _ => False

/-- The operation neither removes anything nor starts a preparation, and moves the Run
    forward. -/
def RunOp.Routine : RunOp → Prop
  | .transition t => t.Forward
  | .expireNow _ | .deleteWorkspace | .deleteRow | .removeSpool | .schedule
  | .backend .deleteRoot => False
  | _ => True

/-- The operation writes the row only to move the Run forward. -/
def RunOp.Keeps : RunOp → Prop
  | .transition t => t.Forward
  | _ => True

theorem RunOp.Routine.keeps {o : RunOp} (h : o.Routine) : o.Keeps := by
  cases o <;> first | exact h | trivial

theorem Transition.forward_iff {t : Transition} : t.Forward ↔
    (∀ s ∈ t.expectedStates, s.terminal = false) ∧ match t.state with
      | none => t.phase = none ∧ t.startedAt = none ∧ t.endedAt = none ∧ t.expiresAt = none
      | some .preparing => t.expectedStates = [.preparing]
      | some .running => t.phase = some none ∧ ∃ at_, t.startedAt = some (some at_)
      | some _ => t.phase = some none ∧ (∃ at_, t.endedAt = some (some at_)) ∧
          ∃ at_, t.expiresAt = some (some at_) :=
  ⟨fun h => ⟨h.active, h.columns⟩, fun h => ⟨h.1, h.2⟩⟩

/-- A transition that moves the Run forward and leaves it preparing, or where it is; nor is it
    the one that every start is behind. -/
structure Transition.Quiet (t : Transition) : Prop where
  forward : t.Forward
  preparing : ∀ s, t.state = some s → s = .preparing
  notStarting : t ≠ startingTransition

/-- The operation neither starts anything, nor ends the Run, nor removes anything. -/
def RunOp.Quiet : RunOp → Prop
  | .transition t => t.Quiet
  | .expireNow _ | .deleteWorkspace | .deleteRow | .removeSpool | .schedule
  | .backend .deleteRoot | .backend .start | .backend .startGit => False
  | _ => True

/-- The class has all quiet operations. -/
class Admits (P : RunOp → Prop) : Prop where
  quiet : ∀ o : RunOp, o.Quiet → P o

theorem RunOp.Quiet.routine {o : RunOp} (h : o.Quiet) : o.Routine := by
  cases o with
  | transition t => exact h.forward
  | backend c => cases c <;> trivial
  | expireNow _ | deleteWorkspace | deleteRow | removeSpool | schedule => exact h
  | _ => trivial

instance : Admits RunOp.Quiet := ⟨fun _ => id⟩

instance : Admits RunOp.Routine := ⟨fun _ => RunOp.Quiet.routine⟩

instance : Admits RunOp.Keeps := ⟨fun _ h => h.routine.keeps⟩

section

variable {P : RunOp → Prop} {α : Type}

theorem all_atomic {o : RunOp} (h : P o) : (atomic o).All P := ⟨h, fun _ => trivial⟩

theorem all_orRaise {p : RunProg (Except RunError α)} (h : p.All P) : (orRaise p).All P :=
  h.bind fun _ => .ofExcept

theorem all_withLock {p : RunProg α} (acquire : P .acquire) (release : P .release)
    (h : p.All P) : (withLock p).All P :=
  (all_atomic acquire).bind fun _ => h.finally_ (all_atomic release)

theorem all_quiet [Admits P] (o : RunOp) (h : o.Quiet) : (atomic o).All P :=
  all_atomic (Admits.quiet o h)

theorem all_call [Admits P] (c : BackendCall) (h : RunOp.Quiet (.backend c)) : (call c).All P :=
  all_orRaise (all_quiet _ h)

theorem all_quietTransition [Admits P] {t : Transition} (h : t.Quiet) :
    (atomic (.transition t)).All P := all_quiet _ h

/-- A compare-and-set that moves the Run forward is routine. -/
theorem all_transition {t : Transition} (h : t.Forward) :
    (atomic (.transition t)).All RunOp.Routine := all_atomic h

theorem Transition.quiet_iff {t : Transition} :
    t.Quiet ↔ t.Forward ∧ (∀ s, t.state = some s → s = .preparing) ∧ t ≠ startingTransition :=
  ⟨fun h => ⟨h.forward, h.preparing, h.notStarting⟩, fun h => ⟨h.1, h.2.1, h.2.2⟩⟩

end

/-! ## 2. Reading and applying a report -/

variable {cfg : Config} {P : RunOp → Prop}

theorem get_all [Admits P] : get.All P := by
  unfold get
  refine (all_quiet .getRemoteRun trivial).bind fun row => ?_
  cases row with
  | none => exact .raise
  | some row =>
    refine (all_quiet .getComputer trivial).bind fun target => ?_
    cases target with
    | none => exact .raise
    | some target => exact .pure

/-- **What `get` returns**: the row it read and the target it looked up, between which and
    around which only the others have acted. -/
theorem get_spec {W : Type} {c : Contract RunSig W} {w : W}
    (ok : ∀ o a u v, o = .getRemoteRun ∨ o = .getComputer → c.inv u → c.step o a u v →
      c.ok o a u v) :
    get.wp c (fun r v => ∀ run, r = .ok run → ∃ u v₀ v₁, c.rely w u ∧
      c.step .getRemoteRun (some run.toRunRow) u v₀ ∧ c.rely v₀ v₁ ∧
      c.step .getComputer (some run.target) v₁ v) w := by
  unfold get
  simp only [wp_bind, atomic_wp]
  intro u hu hi row v₀ hs
  refine ⟨ok _ _ _ _ (.inl rfl) hi hs, ?_⟩
  cases row with
  | none => simp
  | some row =>
    simp only [onResult_ok, wp_bind, atomic_wp]
    intro v₁ hv₁ hi' target v hs'
    refine ⟨ok _ _ _ _ (.inr rfl) hi' hs', ?_⟩
    cases target with
    | none => simp
    | some target =>
      intro run hrun
      obtain rfl := Except.ok.inj hrun
      exact ⟨u, v₀, v₁, hu, hs, hv₁, hs'⟩

/-- A method under the Run's lock, where nothing is promised of its result. -/
theorem withLock_wp {W α : Type} {c : Contract RunSig W} {p : RunProg α} {F : W → Prop} {w : W}
    (acquire : (atomic .acquire).wp c (fun _ => F) w)
    (release : ∀ v, (atomic .release).wp c (fun _ _ => True) v)
    (h : ∀ v, F v → p.wp c (fun _ _ => True) v) : (withLock p).wp c (fun _ _ => True) w := by
  unfold withLock Prog.finally_
  refine wp_seq acquire (fun _ _ _ => trivial) fun _ v hv => ?_
  rw [wp_bind, wp_attempt]
  refine wp_mono (fun r v _ => ?_) (h v hv)
  refine wp_seq (release v) (fun _ _ _ => trivial) fun _ v _ => ?_
  rw [wp_ofExcept]
  trivial

theorem terminalExpiry_all [Admits P] : terminalExpiry.All P :=
  (all_quiet .utcNow trivial).bind fun _ => .pure

theorem cleanupPending_all [Admits P] {run : Run} : (cleanupPending run).All P := by
  unfold cleanupPending
  split
  · exact (all_quiet .utcNow trivial).bind fun _ => .pure
  · exact .pure

theorem targetBackend_all [Admits P] {target : Target} : (targetBackend cfg target).All P := by
  unfold targetBackend
  split
  · exact .raise
  · exact .pure

theorem targetBackend_wp {W : Type} {c : Contract RunSig W} {target : Target} {w : W}
    {Q : Except RunError Unit → W → Prop} (ok : Q (.ok ()) w) (error : ∀ e, Q (.error e) w) :
    (targetBackend cfg target).wp c Q w := by
  unfold targetBackend
  split
  · exact error _
  · exact ok

theorem applyRemoteStatus_all {run : Run} {remote : RemoteStatus} :
    (applyRemoteStatus run remote).All RunOp.Routine := by
  unfold applyRemoteStatus
  split
  · exact .pure
  · split
    · exact .pure
    · split
      · split
        · refine (all_transition ?_).bind fun _ => .pure
          simp [Transition.forward_iff, RunState.terminal]
        · refine (all_transition ?_).bind fun _ => .pure
          simp [Transition.forward_iff, RunState.terminal]
      · refine (all_atomic trivial).bind fun now => (all_transition ?_).bind fun _ => .pure
        simp [Transition.forward_iff, RunState.terminal]
      · rename_i state _ _ _ hprep hrun
        refine (all_atomic trivial).bind fun now => ?_
        refine Prog.All.bind ?_ fun expiresAt => (all_transition ?_).bind fun _ => .pure
        · unfold terminalExpiryFrom
          split
          · exact .pure
          · exact terminalExpiry_all
        · cases state <;> simp_all [Transition.forward_iff, RunState.terminal]

theorem applyRemoteObservation_all {run : Run} {remote : RemoteStatus} :
    (applyRemoteObservation run remote).All RunOp.Routine := by
  unfold applyRemoteObservation
  split
  · split
    · exact (all_atomic trivial).bind fun _ => applyRemoteStatus_all
    · exact .pure
  · split
    · exact applyRemoteStatus_all
    · exact .pure

/-! ## 3. Preparation -/

theorem checkCancel_all [Admits P] {h : Nat} : (checkCancel h).All P := by
  unfold checkCancel
  refine (all_quiet (.isCancelled h) trivial).bind fun isSet => ?_
  split
  · exact .raise
  · exact .pure

theorem ensureTargetCapacity_all [Admits P] {target : Target} {required : Nat} :
    (ensureTargetCapacity cfg target required).All P := by
  unfold ensureTargetCapacity
  refine targetBackend_all.bind fun _ => (all_call .preflight trivial).bind fun available => ?_
  cases available with
  | none => exact .pure
  | some available =>
    dsimp only
    split
    · exact .raise
    · exact .pure

theorem writeSourceMetadata_all [Admits P] {target : Target} :
    (writeSourceMetadata cfg target).All P :=
  targetBackend_all.bind fun _ => (all_call (.writeJson "source.json") trivial)

theorem writeManifest_all [Admits P] {target : Target} : (writeManifest cfg target).All P :=
  targetBackend_all.bind fun _ => (all_call (.writeJson "source-manifest.json") trivial).bind fun _ =>
    all_orRaise (all_quiet .writeCollectionManifest trivial)

theorem writeZipManifest_all [Admits P] {target : Target} :
    (writeZipManifest cfg target).All P :=
  targetBackend_all.bind fun _ => (all_call (.writeJson "source-manifest.json") trivial)

theorem startingTransition_forward : startingTransition.Forward := by
  simp [startingTransition, Transition.forward_iff, RunState.terminal]

theorem copyingTransition_quiet {n : Nat} : (copyingTransition n).Quiet := by
  simp [copyingTransition, startingTransition, Transition.quiet_iff, Transition.forward_iff,
    RunState.terminal]

theorem reconcileStartException_all {target : Target} {exc : RunError} :
    (reconcileStartException cfg target exc).All RunOp.Routine := by
  unfold reconcileStartException
  have unresolved : ∀ current : Run, (do
      let _ ← atomic (.transition
        { expectedStates := [.preparing], state := some .preparing,
          phase := some (some (current.phase.getD .starting)), endedAt := some none,
          expiresAt := some none, errorCode := some (some "start_status_unknown"),
          errorDetail := some (some (clip 1000 exc.message)) }) : RunProg Unit).All
      RunOp.Routine := by
    intro current
    refine (all_transition ?_).bind fun _ => .pure
    simp [Transition.forward_iff, RunState.terminal]
  refine Prog.All.bind (Prog.All.attempt ?_) fun remote => get_all.bind fun current => ?_
  · exact targetBackend_all.bind fun _ => (all_call .reconcile trivial)
  cases remote with
  | error e =>
    dsimp only
    split
    · exact unresolved current
    · exact .raise
  | ok remote =>
    refine applyRemoteStatus_all.bind fun _ => get_all.bind fun current => ?_
    split
    · exact .pure
    · exact unresolved current

theorem startWithReconciliation_all {target : Target}
    {starter : RunProg (Except RunError Unit)} (hs : starter.All RunOp.Routine) :
    (startWithReconciliation cfg target starter).All RunOp.Routine := by
  unfold startWithReconciliation
  refine hs.bind fun r => ?_
  cases r with
  | error e =>
    dsimp only
    split
    · exact reconcileStartException_all.bind fun _ => .pure
    · exact .raise
  | ok _ =>
    refine (all_transition ?_).bind fun _ => .pure
    simp [Transition.forward_iff, RunState.terminal]

theorem startMaterializedRun_all {target : Target} {h : Nat} :
    (startMaterializedRun cfg target h).All RunOp.Routine := by
  unfold startMaterializedRun
  refine checkCancel_all.bind fun _ => (all_transition startingTransition_forward).bind fun won => ?_
  split
  · refine (startWithReconciliation_all ?_).bind fun _ => .pure
    exact targetBackend_all.bind fun _ => all_atomic trivial
  · exact checkCancel_all.bind fun _ => .raise

theorem materializeWorkspace_all [Admits P] {target : Target} {h : Nat} :
    (materializeWorkspace cfg target h).All P := by
  unfold materializeWorkspace
  refine checkCancel_all.bind fun _ => (all_call .snapshotSource trivial).bind fun totalBytes => ?_
  refine ensureTargetCapacity_all.bind fun _ => ?_
  refine (all_quietTransition copyingTransition_quiet).bind fun won => ?_
  split
  · exact checkCancel_all.bind fun _ => targetBackend_all.bind fun _ =>
      (all_call .materialize trivial).bind fun _ => writeManifest_all
  · exact checkCancel_all.bind fun _ => .raise

theorem prepareWorkspace_all {target : Target} {h : Nat} :
    (prepareWorkspace cfg target h).All RunOp.Routine := by
  unfold prepareWorkspace
  refine checkCancel_all.bind fun _ => (all_orRaise (all_atomic trivial)).bind fun _ => ?_
  refine targetBackend_all.bind fun _ => (all_call .createLayout trivial).bind fun _ => ?_
  refine materializeWorkspace_all.bind fun _ => checkCancel_all.bind fun _ => ?_
  refine (all_call .commitSnapshot trivial).bind fun _ => writeSourceMetadata_all.bind fun _ => ?_
  exact startMaterializedRun_all

theorem prepareGit_all {target : Target} {h : Nat} :
    (prepareGit cfg target h).All RunOp.Routine := by
  unfold prepareGit
  refine checkCancel_all.bind fun _ => targetBackend_all.bind fun _ => ?_
  refine (all_call .preflight trivial).bind fun _ => (all_call .createLayout trivial).bind fun _ => ?_
  refine (all_call .gitInvocation trivial).bind fun _ => writeSourceMetadata_all.bind fun _ => ?_
  refine checkCancel_all.bind fun _ => (all_transition startingTransition_forward).bind fun won => ?_
  split
  · refine (startWithReconciliation_all (all_atomic trivial)).bind fun started => ?_
    split
    · refine (all_transition ?_).bind fun _ => .pure
      simp [Transition.forward_iff, RunState.terminal]
    · exact .pure
  · exact checkCancel_all.bind fun _ => .raise

theorem prepareZip_all {target : Target} {h : Nat} :
    (prepareZip cfg target h).All RunOp.Routine := by
  unfold prepareZip
  refine checkCancel_all.bind fun _ => (all_atomic trivial).bind fun ready => ?_
  split
  · refine (all_orRaise (all_atomic trivial)).bind fun totalBytes => ?_
    refine ensureTargetCapacity_all.bind fun _ => ?_
    refine (all_quietTransition copyingTransition_quiet).bind fun _ => ?_
    refine targetBackend_all.bind fun _ => (all_call .createLayout trivial).bind fun _ => ?_
    refine checkCancel_all.bind fun _ => (all_call .materialize trivial).bind fun _ => ?_
    refine checkCancel_all.bind fun _ => (all_call .commitSnapshot trivial).bind fun _ => ?_
    refine writeZipManifest_all.bind fun _ => writeSourceMetadata_all.bind fun _ => ?_
    exact startMaterializedRun_all
  · exact .raise

theorem prepareSync_all {h : Nat} : (prepareSync cfg h).All RunOp.Routine := by
  unfold prepareSync
  refine get_all.bind fun run => ?_
  split
  · cases run.sourceKind with
    | git => exact prepareGit_all
    | workspace => exact prepareWorkspace_all
    | archive => exact prepareZip_all
  · exact .pure

theorem recordPreparationFailure_all {exc : RunError} {cancel : RunProg Bool}
    (hc : cancel.All RunOp.Routine) :
    (recordPreparationFailure exc cancel).All RunOp.Routine := by
  unfold recordPreparationFailure
  refine (all_atomic trivial).bind fun row => ?_
  cases row with
  | none => exact .pure
  | some current =>
    dsimp only
    split
    · refine hc.bind fun isSet => (all_atomic trivial).bind fun now => ?_
      refine terminalExpiry_all.bind fun expiresAt => (all_transition ?_).bind fun _ => .pure
      generalize (isSet || _) = stopped
      cases stopped <;> simp [Transition.forward_iff, RunState.terminal]
    · exact .pure

theorem prepare_all {h : Nat} : (prepare cfg h).All RunOp.Routine := by
  unfold prepare
  refine Prog.All.finally_ (prepareSync_all.attempt.bind fun r => ?_)
    ((all_atomic trivial).bind fun _ => all_atomic trivial)
  cases r with
  | ok _ => exact .pure
  | error e =>
    dsimp only
    split
    · exact recordPreparationFailure_all (all_atomic trivial)
    · exact .raise

/-! ## 4. Upload and observation -/

/-- Out of routine, the operation starts a preparation. -/
def RunOp.Starts (o : RunOp) : Prop := o.Routine ∨ o = .schedule

instance : Admits RunOp.Starts := ⟨fun _ h => .inl h.routine⟩

theorem starts_of {α : Type} {p : RunProg α} (h : p.All RunOp.Routine) :
    p.All RunOp.Starts := h.mono fun _ => Or.inl

theorem uploadArchive_all {safeName : Except RunError String} {contentLength : Option Nat} :
    (uploadArchive cfg safeName contentLength).All RunOp.Starts := by
  unfold uploadArchive
  refine get_all.bind fun run => ?_
  split
  · exact .raise
  refine Prog.All.ofExcept.bind fun name => ?_
  split
  · exact .raise
  split
  · exact .raise
  refine (starts_of (all_transition ?_)).bind fun won => ?_
  · simp [Transition.forward_iff, RunState.terminal]
  split
  · refine (Prog.All.attempt ?_).bind fun received => ?_
    · refine (all_orRaise (all_atomic (.inl trivial))).bind fun total => ?_
      refine (all_orRaise (all_atomic (.inl trivial))).bind fun _ => ?_
      refine (starts_of (all_transition ?_)).bind fun completed => ?_
      · simp [Transition.forward_iff, RunState.terminal]
      split
      · exact (all_atomic (.inl trivial)).bind fun _ =>
          (all_atomic (.inr rfl)).bind fun _ => get_all
      · exact .raise
    · cases received with
      | ok run => exact .pure
      | error e =>
        dsimp only
        split
        · refine (all_atomic (.inl trivial)).bind fun _ => ?_
          refine ((all_atomic (.inl trivial)).bind fun _ => .pure).bind fun expiresAt => ?_
          refine (starts_of (all_transition ?_)).bind fun _ => .raise
          simp [Transition.forward_iff, RunState.terminal]
        · exact .raise
  · refine get_all.bind fun current => ?_
    split
    · exact .pure
    · exact .raise

theorem ensureWorkspaceBridge_all [Admits P] {run : Run} :
    (ensureWorkspaceBridge cfg run).All P := by
  unfold ensureWorkspaceBridge
  split
  · exact all_orRaise (all_quiet .requireWorkspace trivial)
  · exact targetBackend_all.bind fun _ => (all_call .ensureWorkspaceShell trivial).bind fun _ =>
      (all_orRaise (all_quiet .openWorkspace trivial)).bind fun _ =>
        all_orRaise (all_quiet .connectWorkspace trivial)

theorem offline_all [Admits P] {run : Run} : (offline run).All P :=
  cleanupPending_all.bind fun _ => .pure

/-- Out of routine, the operation drops the spool. -/
def RunOp.Observes (o : RunOp) : Prop := o.Routine ∨ o = .removeSpool

instance : Admits RunOp.Observes := ⟨fun _ h => .inl h.routine⟩

theorem RunOp.Observes.keeps {o : RunOp} (h : o.Observes) : o.Keeps := by
  rcases h with h | rfl
  · exact h.keeps
  · trivial

theorem observes_of {α : Type} {p : RunProg α} (h : p.All RunOp.Routine) :
    p.All RunOp.Observes := h.mono fun _ => Or.inl

theorem dropRunningSpool_all {run : Run} : (dropRunningSpool run).All RunOp.Observes := by
  unfold dropRunningSpool
  split
  · exact all_atomic (.inr rfl)
  · exact .pure

theorem poll_all : (poll cfg).All RunOp.Observes := by
  unfold poll
  refine all_withLock (.inl trivial) (.inl trivial) ?_
  refine get_all.bind fun run => ?_
  refine targetBackend_all.bind fun _ => ?_
  refine (all_atomic (.inl trivial)).bind fun r => ?_
  cases r with
  | error e =>
    dsimp only
    split
    · exact offline_all
    · exact .raise
  | ok remote =>
    refine (observes_of applyRemoteObservation_all).bind fun _ => ?_
    refine get_all.bind fun updated => ?_
    refine Prog.All.bind ?_ fun updated => ?_
    · split
      · refine ensureWorkspaceBridge_all.attempt.bind fun bridged => ?_
        cases bridged with
        | ok _ => exact get_all
        | error e =>
          dsimp only
          split
          · exact get_all
          · exact .raise
      · exact .pure
    · exact dropRunningSpool_all.bind fun _ => cleanupPending_all.bind fun _ => .pure

theorem reconcile_all : (reconcile cfg).All RunOp.Observes := by
  unfold reconcile
  refine all_withLock (.inl trivial) (.inl trivial) ?_
  refine get_all.bind fun run => ?_
  split
  · exact cleanupPending_all.bind fun _ => .pure
  refine targetBackend_all.bind fun _ => ?_
  refine (all_atomic (.inl trivial)).bind fun r => ?_
  cases r with
  | error e =>
    dsimp only
    split
    · exact offline_all
    · exact .raise
  | ok remote =>
    refine (observes_of applyRemoteObservation_all).bind fun _ => ?_
    refine get_all.bind fun updated => ?_
    exact dropRunningSpool_all.bind fun _ => cleanupPending_all.bind fun _ => .pure

/-! ## 5. Stopping -/

theorem cancelPreparation_all [Admits P] : cancelPreparation.All P := by
  unfold cancelPreparation
  refine (all_quiet .getPreparation trivial).bind fun current => ?_
  cases current with
  | none => exact .pure
  | some h =>
    refine (all_quiet (.taskDone h) trivial).bind fun done => ?_
    split
    · exact .pure
    · exact (all_quiet (.setCancel h) trivial).bind fun _ => .pure

theorem stopResult_all [Admits P] {stopped needsKill pending : Bool} :
    (stopResult stopped needsKill pending).All P :=
  get_all.bind fun _ => .pure

theorem stopReconciled_all : stopReconciled.All RunOp.Routine :=
  (all_call .reconcile trivial).bind fun _ => get_all.bind fun _ => applyRemoteStatus_all.bind fun _ =>
    get_all.bind fun _ => .pure

theorem endedTransition_forward {now expiresAt : Nat} {code : String} :
    (endedTransition now expiresAt code).Forward := by
  simp [endedTransition, Transition.forward_iff, RunState.terminal]

theorem unuploadedTransition_forward {now expiresAt : Nat} :
    (unuploadedTransition now expiresAt).Forward := by
  simp [unuploadedTransition, Transition.forward_iff, RunState.terminal]

theorem stopLayoutMissing_all {run : Run} {now : Nat} {live : Bool} {result : StopStatus} :
    (stopLayoutMissing run now live result).All RunOp.Routine := by
  unfold stopLayoutMissing
  split
  · exact stopResult_all
  split
  · exact get_all.bind fun _ => applyRemoteStatus_all.bind fun _ => stopResult_all
  split
  · exact .raise
  split
  · exact stopResult_all
  · exact terminalExpiry_all.bind fun _ => (all_transition endedTransition_forward).bind fun _ =>
      stopResult_all

theorem stop_all : (stop cfg).All RunOp.Routine := by
  unfold stop
  refine get_all.bind fun run => ?_
  split
  · exact .pure
  refine (all_atomic trivial).bind fun now => (all_transition ?_).bind fun _ => ?_
  · simp [Transition.forward_iff, RunState.terminal]
  refine cancelPreparation_all.bind fun live => ?_
  split
  · exact terminalExpiry_all.bind fun expiresAt =>
      (all_transition unuploadedTransition_forward).bind fun _ => stopResult_all
  refine targetBackend_all.bind fun _ => (all_atomic trivial).bind fun r => ?_
  split
  · split
    · exact stopResult_all
    · exact .raise
  · exact .raise
  · split
    · exact stopReconciled_all
    split
    · exact stopLayoutMissing_all
    split
    · exact stopResult_all
    split
    · exact stopResult_all
    · exact stopReconciled_all

theorem killRecorded_all {now : Nat} {code : String} :
    (killRecorded now code).All RunOp.Routine :=
  terminalExpiry_all.bind fun _ => (all_transition endedTransition_forward).bind fun _ => get_all

theorem killLayoutMissing_all {run : Run} {now : Nat} {live : Bool} {result : StopStatus} :
    (killLayoutMissing run now live result).All RunOp.Routine := by
  unfold killLayoutMissing
  split
  · exact killRecorded_all
  split
  · exact get_all.bind fun _ => applyRemoteStatus_all.bind fun _ => get_all
  split
  · exact .raise
  split
  · exact get_all
  · exact killRecorded_all

theorem kill_all : (kill cfg).All RunOp.Routine := by
  unfold kill
  refine get_all.bind fun run => ?_
  split
  · exact .pure
  refine cancelPreparation_all.bind fun live => (all_atomic trivial).bind fun now => ?_
  refine (all_transition ?_).bind fun _ => ?_
  · simp [Transition.forward_iff, RunState.terminal]
  refine targetBackend_all.bind fun _ => (all_atomic trivial).bind fun r => ?_
  split
  · split
    · exact get_all
    · exact .raise
  · exact .raise
  · split
    · exact (all_call .reconcile trivial).bind fun _ => get_all.bind fun _ =>
        applyRemoteStatus_all.bind fun _ => get_all
    split
    · exact killLayoutMissing_all
    · exact killRecorded_all

/-! ## 6. Deleting, cleanup and startup

These remove things; what they write to the row still only moves the Run forward. -/

theorem keeps_of {α : Type} {p : RunProg α} (h : p.All RunOp.Routine) :
    p.All RunOp.Keeps := h.mono fun _ => RunOp.Routine.keeps

theorem requestDelete_all : (requestDelete cfg).All RunOp.Keeps := by
  unfold requestDelete
  refine all_withLock trivial trivial ?_
  refine get_all.bind fun run => ?_
  split
  · refine (all_atomic trivial).bind fun now => (all_atomic trivial).bind fun expired => ?_
    split
    · refine get_all.bind fun run => ?_
      refine targetBackend_all.bind fun _ => (all_atomic trivial).bind fun r => ?_
      cases r with
      | error e =>
        dsimp only
        split
        · exact .pure
        · exact .raise
      | ok _ =>
        exact (all_atomic trivial).bind fun _ => (all_orRaise (all_atomic trivial)).bind fun _ =>
          (all_orRaise (all_atomic trivial)).bind fun _ => .pure
    · exact .raise
  · exact .raise

theorem forget_all : forget.All RunOp.Keeps := by
  unfold forget
  refine all_withLock trivial trivial ?_
  refine get_all.bind fun run => ?_
  refine cleanupPending_all.bind fun pending => ?_
  split
  · exact (all_atomic trivial).bind fun _ => (all_orRaise (all_atomic trivial)).bind fun _ =>
      all_orRaise (all_atomic trivial)
  · exact .raise

theorem cleanupExpired_all : (cleanupExpired cfg).All RunOp.Keeps := by
  unfold cleanupExpired
  refine (all_atomic trivial).bind fun now => Prog.All.bind ?_ fun abandoned => ?_
  · refine (all_atomic trivial).bind fun listed => ?_
    split
    · refine (keeps_of (all_transition ?_)).bind fun won => ?_
      · simp [Transition.forward_iff, RunState.terminal]
      split
      · exact (all_atomic trivial).bind fun _ =>
          (all_orRaise (all_atomic trivial)).bind fun _ => .pure
      · exact .pure
    · exact .pure
  · refine (all_atomic trivial).bind fun listed => ?_
    split
    · refine requestDelete_all.attempt.bind fun r => ?_
      split
      · exact .pure
      · split
        · exact .pure
        split
        · exact .pure
        · exact .raise
    · exact .pure

theorem recordRestarted_all : recordRestarted.All RunOp.Routine := by
  unfold recordRestarted
  refine (all_atomic trivial).bind fun current => ?_
  split
  · exact .pure
  · exact recordPreparationFailure_all .pure

theorem recordRestartedUnlessLayout_all :
    (recordRestartedUnlessLayout cfg).All RunOp.Routine := by
  unfold recordRestartedUnlessLayout
  refine (all_atomic trivial).bind fun target => ?_
  cases target with
  | none => exact .pure
  | some target =>
    refine Prog.All.bind (Prog.All.attempt ?_) fun r => ?_
    · exact targetBackend_all.bind fun _ => (all_call .layoutExists trivial)
    split
    · exact .pure
    · exact recordRestarted_all
    · split
      · exact .pure
      · exact .raise

theorem reconcileStartup_all : (reconcileStartup cfg).All RunOp.Observes := by
  unfold reconcileStartup
  refine (all_atomic (.inl trivial)).bind fun row => ?_
  cases row with
  | none => exact .pure
  | some row =>
    dsimp only
    split
    · refine poll_all.attempt.bind fun r => ?_
      split
      · exact .pure
      split
      · exact .pure
      · exact .raise
    split
    · refine poll_all.attempt.bind fun r => ?_
      split
      · split
        · exact .pure
        split
        · exact observes_of recordRestartedUnlessLayout_all
        split
        · exact .pure
        · exact observes_of recordRestarted_all
      · split
        · exact observes_of recordRestartedUnlessLayout_all
        · exact .raise
    · exact .pure

end Termroom.RemoteRun
