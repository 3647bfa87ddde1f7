import Mathlib.Tactic.Common

/-!
# The stored row of a Remote Run

The lifecycle columns of a `remote_runs` row and the one statement that moves them:
`transition_remote_run`, a compare-and-set on the state and, where the caller asks for it,
on the phase. Its callers never lock the row; what they know of it is what the
compare-and-set tells them.

A column that `transition_remote_run` may leave alone (`...`) is an `Option` of the column's
type, so that `some none` writes NULL.

`RunRow.Wf` is what holds of every stored row, `Transition.Forward` the shape of the
transitions that keep it while a Run only moves forward. Every transition of the manager has
that shape but one, the retry of a failed ZIP preparation.
-/

set_option autoImplicit false

namespace Termroom.RemoteRun

/-! ## 1. The row -/

inductive RunState where
  | preparing
  | running
  | finished
  | stopped
  | failed
  | lost
  deriving DecidableEq, Repr

/-- `TERMINAL_STATES`. -/
def RunState.terminal : RunState → Bool
  | .preparing | .running => false
  | .finished | .stopped | .failed | .lost => true

inductive SourceKind where
  | workspace
  | git
  | archive
  deriving DecidableEq, Repr

/-- The phases the Core writes, and any other text a Remote reports. -/
inductive Phase where
  | waitingUpload
  | uploading
  | checking
  | scanning
  | cloning
  | copying
  | starting
  | reported (text : String)
  deriving DecidableEq, Repr

/-- A stored time: an ISO text with a time zone, to the second, or a text of the Remote that
    `datetime.fromisoformat` does not give a time zone for. -/
inductive Timestamp where
  | at (seconds : Nat)
  | raw (text : String)
  deriving DecidableEq, Repr

structure RunRow where
  sourceKind : SourceKind
  /-- `archive_name` of the Source options; only an Archive Source has one. -/
  archiveName : String
  state : RunState
  phase : Option Phase
  startedAt : Option Timestamp
  stopRequestedAt : Option Nat
  endedAt : Option Timestamp
  expiresAt : Option Nat
  exitCode : Option Int
  errorCode : Option String
  errorDetail : Option String
  sourceRevision : Option String
  sourceSize : Option Nat
  workspaceId : Option String
  lifecycleRevision : Nat
  deriving DecidableEq, Repr

/-! ## 2. `transition_remote_run` -/

/-- The keyword arguments of `transition_remote_run`; `none` is `...`. -/
structure Transition where
  expectedStates : List RunState
  expectedPhase : Option (Option Phase) := none
  state : Option RunState := none
  phase : Option (Option Phase) := none
  startedAt : Option (Option Timestamp) := none
  stopRequestedAt : Option (Option Nat) := none
  endedAt : Option (Option Timestamp) := none
  expiresAt : Option (Option Nat) := none
  exitCode : Option (Option Int) := none
  errorCode : Option (Option String) := none
  errorDetail : Option (Option String) := none
  sourceRevision : Option (Option String) := none
  sourceSize : Option (Option Nat) := none
  deriving DecidableEq

namespace Transition

/-- `if not assignments: return False`. -/
def assigns (t : Transition) : Bool :=
  t.state.isSome || t.phase.isSome || t.startedAt.isSome || t.stopRequestedAt.isSome ||
    t.endedAt.isSome || t.expiresAt.isSome || t.exitCode.isSome || t.errorCode.isSome ||
    t.errorDetail.isSome || t.sourceRevision.isSome || t.sourceSize.isSome

/-- The WHERE clause. -/
def selects (t : Transition) (row : RunRow) : Bool :=
  t.assigns && t.expectedStates.contains row.state &&
    match t.expectedPhase with
    | none => true
    | some phase => row.phase = phase

/-- The SET clause. -/
def update (t : Transition) (row : RunRow) : RunRow :=
  { row with
    state := t.state.getD row.state
    phase := t.phase.getD row.phase
    startedAt := t.startedAt.getD row.startedAt
    stopRequestedAt := t.stopRequestedAt.getD row.stopRequestedAt
    endedAt := t.endedAt.getD row.endedAt
    expiresAt := t.expiresAt.getD row.expiresAt
    exitCode := t.exitCode.getD row.exitCode
    errorCode := t.errorCode.getD row.errorCode
    errorDetail := t.errorDetail.getD row.errorDetail
    sourceRevision := t.sourceRevision.getD row.sourceRevision
    sourceSize := t.sourceSize.getD row.sourceSize
    lifecycleRevision := row.lifecycleRevision + 1 }

/-- `StateStore.transition_remote_run`: whether a row was changed, and the table after. -/
def apply (t : Transition) : Option RunRow → Bool × Option RunRow
  | none => (false, none)
  | some row => if t.selects row then (true, some (t.update row)) else (false, some row)

end Transition

/-- `StateStore.expire_remote_run_now`. -/
def expireRemoteRunNow (now : Nat) : Option RunRow → Bool × Option RunRow
  | none => (false, none)
  | some row =>
    if row.state.terminal then (true, some { row with expiresAt := some now })
    else (false, some row)

/-- The row is one of `list_abandoned_remote_run_uploads(now)`. -/
def abandonedUpload (now : Nat) (row : RunRow) : Bool :=
  row.state = .preparing && row.phase = some .waitingUpload && row.sourceKind = .archive &&
    match row.expiresAt with
    | none => false
    | some at_ => at_ ≤ now

/-- The row is one of `list_expired_remote_runs(now)`. -/
def expired (now : Nat) (row : RunRow) : Bool :=
  row.state.terminal &&
    match row.expiresAt with
    | none => false
    | some at_ => at_ ≤ now

/-! ## 3. Well-formed rows -/

/-- What holds of every stored row: a running Run has started, an ended one has an end, an
    expiry and no phase. -/
structure RunRow.Wf (row : RunRow) : Prop where
  running : row.state = .running → row.phase = none ∧ row.startedAt.isSome
  terminal : row.state.terminal → row.phase = none ∧ row.endedAt.isSome ∧ row.expiresAt.isSome

/-- The moves of a lifecycle that only goes forward. -/
def RunState.forward : RunState → RunState → Bool
  | .preparing, _ => true
  | .running, s => s ≠ .preparing
  | s, s' => s' = s

theorem RunState.forward_refl (s : RunState) : s.forward s = true := by
  cases s <;> rfl

theorem RunState.forward_terminal {s s' : RunState} (h : s.forward s' = true)
    (hs : s.terminal = true) : s' = s := by
  cases s <;> simp_all [forward, terminal]

/-- A transition that moves a Run forward, or leaves its state, and writes the columns that
    go with the new state. -/
structure Transition.Forward (t : Transition) : Prop where
  active : ∀ s ∈ t.expectedStates, s.terminal = false
  columns : match t.state with
    | none => t.phase = none ∧ t.startedAt = none ∧ t.endedAt = none ∧ t.expiresAt = none
    | some .preparing => t.expectedStates = [.preparing]
    | some .running => t.phase = some none ∧ ∃ at_, t.startedAt = some (some at_)
    | some _ => t.phase = some none ∧ (∃ at_, t.endedAt = some (some at_)) ∧
        ∃ at_, t.expiresAt = some (some at_)

namespace Transition

variable {t : Transition} {row : RunRow}

theorem selects_iff : t.selects row = true ↔ t.assigns = true ∧ row.state ∈ t.expectedStates ∧
    ∀ phase, t.expectedPhase = some phase → row.phase = phase := by
  unfold selects
  cases t.expectedPhase <;> simp [and_assoc]

theorem selects_state (h : t.selects row = true) : row.state ∈ t.expectedStates :=
  (selects_iff.mp h).2.1

/-- **A forward transition leaves a terminal row alone.** -/
theorem Forward.terminal (ht : t.Forward) (h : row.state.terminal = true) :
    t.selects row = false := by
  cases hs : t.selects row with
  | false => rfl
  | true =>
    rw [ht.active _ (selects_state hs)] at h
    exact absurd h (by simp)

theorem Forward.forward (ht : t.Forward) (h : t.selects row = true) :
    row.state.forward (t.update row).state = true := by
  have hrow := selects_state h
  have hcol := ht.columns
  show row.state.forward (t.state.getD row.state) = true
  cases hs : t.state with
  | none => exact RunState.forward_refl _
  | some s =>
    rw [hs] at hcol
    have hactive := ht.active _ hrow
    cases hr : row.state with
    | preparing => rfl
    | running =>
      cases s with
      | preparing =>
        rw [hcol, hr] at hrow
        exact absurd hrow (by simp)
      | _ => rfl
    | _ => rw [hr] at hactive; exact absurd hactive (by simp [RunState.terminal])

theorem Forward.wf (ht : t.Forward) (h : t.selects row = true) (hw : row.Wf) :
    (t.update row).Wf := by
  have hrow := selects_state h
  have hactive := ht.active _ hrow
  have hcol := ht.columns
  cases hs : t.state with
  | none =>
    rw [hs] at hcol
    obtain ⟨hp, hst, he, hx⟩ := hcol
    exact ⟨by simpa [update, hs, hp, hst] using hw.running,
      by simpa [update, hs, hp, he, hx] using hw.terminal⟩
  | some s =>
    rw [hs] at hcol
    cases s with
    | preparing => exact ⟨by simp [update, hs], by simp [update, hs, RunState.terminal]⟩
    | running =>
      obtain ⟨hp, at_, ha⟩ := hcol
      exact ⟨by simp [update, hs, hp, ha], by simp [update, hs, RunState.terminal]⟩
    | _ =>
      obtain ⟨hp, ⟨e, he⟩, ⟨x, hx⟩⟩ := hcol
      exact ⟨by simp [update, hs], by simp [update, hs, hp, he, hx]⟩

@[simp] theorem update_sourceKind : (t.update row).sourceKind = row.sourceKind := rfl

end Transition

end Termroom.RemoteRun
