import Termroom.Conc.Pool
import Termroom.RemoteRun.Row

/-!
# What the manager's code does, operation by operation

`RemoteRunManager` (`remote_runs.py`) is a set of methods that run on different threads and
share the stored row, the in-memory preparation handles, the Run's lock and spool, and the
Remote. `RunOp` lists the atomic operations of that code on **one Run**: a database
statement, a look at a handle, a call to the target's backend. `RunOp.step` says what each
does to the shared `RunWorld` and what it may answer.

The Remote is a parameter (`Remote`): a state of its own, what each backend call may do and
answer, and what it does by itself. So a theorem about every `Remote` is one about arbitrary
answers. The clock (`utc_now`), the target registration and the Core's own file operations
answer anything.
-/

set_option autoImplicit false

namespace Termroom.RemoteRun

open Conc

/-! ## 1. Exceptions -/

/-- The exceptions that reach the manager, by class. -/
inductive RunError where
  | key (message : String)
  | value (message : String) (code : Option String)
  | runtime (message : String)
  | os (message : String)
  | fileNotFound (message : String)
  | remoteRun (message code : String)
  | conflict (message code : String)
  | sshBackend (message : String)
  | commandStatusUnknown (message : String)
  | layout (message code : String)
  | nodeRemoteRun (message code : String)
  | asyncioCancelled
  deriving DecidableEq, Repr

namespace RunError

/-- `isinstance(exc, Exception)`. -/
def isException : RunError → Bool
  | .asyncioCancelled => false
  | _ => true

def isOSError : RunError → Bool
  | .os _ | .fileNotFound _ => true
  | _ => false

def isRemoteRunError : RunError → Bool
  | .remoteRun _ _ | .conflict _ _ => true
  | _ => false

def isSSHBackendError : RunError → Bool
  | .sshBackend _ | .commandStatusUnknown _ | .layout _ _ | .nodeRemoteRun _ _ => true
  | _ => false

/-- What `_start_with_reconciliation` catches. -/
def startUnknown : RunError → Bool
  | .commandStatusUnknown _ | .nodeRemoteRun _ _ => true
  | _ => false

/-- `getattr(exc, "code", default)`. -/
def codeOr (default : String) : RunError → String
  | .value _ (some code) => code
  | .remoteRun _ code | .conflict _ code | .layout _ code | .nodeRemoteRun _ code => code
  | _ => default

def message : RunError → String
  | .key message | .value message _ | .runtime message | .os message | .fileNotFound message
  | .remoteRun message _ | .conflict message _ | .sshBackend message
  | .commandStatusUnknown message | .layout message _ | .nodeRemoteRun message _ => message
  | .asyncioCancelled => ""

/-- `_check_cancel` raised it. -/
def cancelled : RunError := .remoteRun "Remote Run preparation was cancelled" "cancelled"

end RunError

/-! ## 2. The Remote -/

/-- The target's registration, as far as the manager looks at it. -/
structure Target where
  node : Bool
  deriving DecidableEq, Repr

/-- What `reconcile_remote_run` and `poll_remote_run` report. `state` is `none` for a text
    that is no Run state; a text that is empty is `none` too. -/
structure RemoteStatus where
  state : Option RunState
  phase : Option Phase
  startedAt : Option Timestamp
  endedAt : Option Timestamp
  exitCode : Option Int
  errorCode : Option String
  errorDetail : Option String
  sourceRevision : Option String
  layoutMissing : Bool
  layoutError : Bool
  tmuxRunning : Bool
  tmuxExists : Bool
  recordErrors : Bool
  deriving DecidableEq, Repr

/-- What `interrupt_remote_run` and `kill_remote_run` report. -/
structure StopStatus where
  completed : Bool
  layoutMissing : Bool
  sent : Bool
  killed : Bool
  tmuxRunning : Bool
  tmuxExists : Bool
  deriving DecidableEq, Repr

inductive BackendCall where
  | preflight
  | createLayout
  | snapshotSource
  | materialize
  | commitSnapshot
  | writeJson (name : String)
  | gitInvocation
  | startGit
  | start
  | reconcile
  | poll
  | interrupt
  | kill
  | deleteRoot
  | layoutExists
  | ensureWorkspaceShell
  deriving DecidableEq, Repr

/-- What a call returns: `preflight` the available bytes, `snapshotSource` the total bytes
    of the Source. -/
abbrev BackendCall.Result : BackendCall → Type
  | .preflight => Option Nat
  | .snapshotSource => Nat
  | .reconcile | .poll => RemoteStatus
  | .interrupt | .kill => StopStatus
  | .layoutExists => Bool
  | .createLayout | .materialize | .commitSnapshot | .writeJson _ | .gitInvocation
  | .startGit | .start | .deleteRoot | .ensureWorkspaceShell => Unit

structure Remote where
  State : Type
  call : (c : BackendCall) → Except RunError c.Result → State → State → Prop
  env : State → State → Prop

/-- A Remote that may answer anything at any time. -/
def anyRemote : Remote := ⟨Unit, fun _ _ _ _ => True, fun _ _ => True⟩

/-! ## 3. The operations -/

inductive RunOp where
  /-- `StateStore.get_remote_run`. -/
  | getRemoteRun
  /-- `StateStore.get_computer`. -/
  | getComputer
  | transition (t : Transition)
  | expireNow (now : Nat)
  | deleteWorkspace
  | deleteRow
  | listAbandoned (now : Nat)
  | listExpired (now : Nat)
  | utcNow
  /-- `_preparations.get(run_id)`. -/
  | getPreparation
  | taskDone (h : Nat)
  | setCancel (h : Nat)
  | isCancelled (h : Nat)
  | schedule
  /-- The task of handle `h` is over. -/
  | taskFinish (h : Nat)
  /-- `_task_done`, the callback of the task. -/
  | taskDoneCallback (h : Nat)
  | acquire
  | release
  /-- Both spool files exist. -/
  | spoolReady
  | validateZip
  | receiveUpload
  | writeSidecar
  | unlinkPart
  | scheduleSpoolExpiry
  | removeSpool
  | writeCollectionManifest
  /-- `workspaces.require` of the Source Workspace, or of the attached one. -/
  | requireWorkspace
  /-- `workspaces.open_remote_run`. -/
  | openWorkspace
  /-- `ssh.ensure_workspace`, or `reconcile_terminals` for a Node. -/
  | connectWorkspace
  | backend (c : BackendCall)
  deriving DecidableEq

abbrev RunOp.Ans : RunOp → Type
  | .getRemoteRun => Option RunRow
  | .getComputer => Option Target
  | .transition _ | .expireNow _ | .listAbandoned _ | .listExpired _ | .taskDone _
  | .isCancelled _ | .schedule | .spoolReady => Bool
  | .deleteWorkspace | .deleteRow | .writeSidecar | .writeCollectionManifest
  | .requireWorkspace | .openWorkspace | .connectWorkspace => Except RunError Unit
  | .utcNow => Nat
  | .getPreparation => Option Nat
  | .validateZip | .receiveUpload => Except RunError Nat
  | .setCancel _ | .taskFinish _ | .taskDoneCallback _ | .acquire | .release | .unlinkPart
  | .scheduleSpoolExpiry | .removeSpool => Unit
  | .backend c => Except RunError c.Result

abbrev RunSig : Sig := ⟨RunOp, RunOp.Ans⟩

/-- A `_PreparationHandle`: its cancel event and its task. -/
structure Handle where
  cancel : Bool
  started : Bool
  done : Bool
  deriving DecidableEq, Repr

/-- A handle whose task has been created and is not done. -/
def Handle.live (h : Handle) : Bool := !h.done

structure RunWorld (R : Type) where
  row : Option RunRow
  /-- `_preparations`, for this Run. -/
  preparations : Option Nat
  /-- Every handle ever made for this Run. -/
  handles : List Handle
  /-- The owner of the Run's lock and how often it holds it. -/
  lock : Option (Nat × Nat)
  spool : Bool
  remote : R

namespace RunWorld

variable {R : Type} (w : RunWorld R)

/-- A preparation task of the Run is active. -/
def preparing : Prop := ∃ h ∈ w.handles, h.live = true

/-- `current and not current.task.done()`. -/
def currentLive : Bool :=
  match w.preparations.bind fun h => w.handles[h]? with
  | some h => h.live
  | none => false

def modifyHandle (h : Nat) (f : Handle → Handle) : RunWorld R :=
  { w with handles := w.handles.modify h f }

/-- `schedule`, past its check: a task with a fresh handle. -/
def createTask : RunWorld R :=
  { w with
    preparations := some w.handles.length
    handles := w.handles ++ [⟨false, false, false⟩] }

end RunWorld

/-- What an operation of thread `t` does, and what it answers. -/
def RunOp.step (B : Remote) (t : Nat) :
    (o : RunOp) → o.Ans → RunWorld B.State → RunWorld B.State → Prop
  | .getRemoteRun, a, u, v => a = u.row ∧ v = u
  | .transition tr, a, u, v =>
    a = (tr.apply u.row).1 ∧ v = { u with row := (tr.apply u.row).2 }
  | .expireNow now, a, u, v =>
    a = (expireRemoteRunNow now u.row).1 ∧
      v = { u with row := (expireRemoteRunNow now u.row).2 }
  | .deleteWorkspace, a, u, v =>
    match u.row with
    | none => a = .error (.key "Unknown Remote Run") ∧ v = u
    | some row => a = .ok () ∧ v = { u with row := some { row with workspaceId := none } }
  | .deleteRow, a, u, v =>
    if (u.row.bind RunRow.workspaceId).isSome then
      a = .error (.runtime "Delete the Remote Run Workspace before its record") ∧ v = u
    else a = .ok () ∧ v = { u with row := none }
  | .listAbandoned now, a, u, v => a = u.row.any (abandonedUpload now) ∧ v = u
  | .listExpired now, a, u, v => a = u.row.any (expired now) ∧ v = u
  | .getPreparation, a, u, v => a = u.preparations ∧ v = u
  | .taskDone h, a, u, v => (∃ hd, u.handles[h]? = some hd ∧ a = hd.done) ∧ v = u
  | .setCancel h, _, u, v => v = u.modifyHandle h fun hd => { hd with cancel := true }
  | .isCancelled h, a, u, v => (∃ hd, u.handles[h]? = some hd ∧ a = hd.cancel) ∧ v = u
  | .schedule, a, u, v => a = !u.currentLive ∧ v = if u.currentLive then u else u.createTask
  | .taskFinish h, _, u, v => v = u.modifyHandle h fun hd => { hd with done := true }
  | .taskDoneCallback h, _, u, v =>
    v = if u.preparations = some h then { u with preparations := none } else u
  | .acquire, _, u, v =>
    (u.lock = none ∧ v = { u with lock := some (t, 1) }) ∨
      ∃ n, u.lock = some (t, n) ∧ v = { u with lock := some (t, n + 1) }
  | .release, _, u, v =>
    ∃ n, u.lock = some (t, n + 1) ∧
      v = { u with lock := if n = 0 then none else some (t, n) }
  | .spoolReady, a, u, v => a = u.spool ∧ v = u
  | .writeSidecar, a, u, v => v = { u with spool := u.spool || a.isOk }
  | .removeSpool, _, u, v => v = { u with spool := false }
  | .openWorkspace, a, u, v =>
    match u.row with
    | none => a ≠ .ok () ∧ v = u
    | some row => v = u ∨ ∃ id, v = { u with row := some { row with workspaceId := some id } }
  | .backend c, a, u, v => ∃ r, B.call c a u.remote r ∧ v = { u with remote := r }
  -- `target_computer_id` is a foreign key: a stored Run has its target
  | .getComputer, a, u, v => (a = none → u.row = none) ∧ v = u
  | .utcNow, _, u, v | .validateZip, _, u, v
  | .receiveUpload, _, u, v | .unlinkPart, _, u, v | .scheduleSpoolExpiry, _, u, v
  | .writeCollectionManifest, _, u, v | .requireWorkspace, _, u, v
  | .connectWorkspace, _, u, v => v = u

/-! ## 4. Steps of the code -/

abbrev RunProg := Prog RunSig RunError

def atomic (o : RunOp) : RunProg o.Ans := @Prog.perform RunSig RunError o

/-- A step of the code that lets an exception through. -/
def orRaise {α : Type} (p : RunProg (Except RunError α)) : RunProg α := do
  let r ← p
  .ofExcept r

/-- A backend call whose exception the caller looks at. -/
abbrev tryCall (c : BackendCall) : RunProg (Except RunError c.Result) := atomic (.backend c)

/-- A backend call whose exception the caller lets through. -/
abbrev call (c : BackendCall) : RunProg c.Result := orRaise (tryCall c)

section

variable {W : Type} {P : RunOp → Prop} {c : Contract RunSig W} {w : W} {α : Type}

@[simp] theorem atomic_uses {o : RunOp} {Q : Except RunError o.Ans → Prop} :
    @Prog.Uses RunSig RunError (no_index o.Ans) P (atomic o) Q ↔ P o ∧ ∀ a, Q (.ok a) :=
  Iff.rfl

@[simp] theorem orRaise_uses {p : RunProg (Except RunError α)} {Q : Except RunError α → Prop} :
    (orRaise p).Uses P Q ↔ p.Uses P (onResult Q fun e => Q (.error e)) := by
  simp [orRaise]

@[simp] theorem atomic_wp {o : RunOp} {Q : Except RunError o.Ans → W → Prop} :
    @Prog.wp RunSig RunError (no_index o.Ans) W c (atomic o) Q = fun w =>
      ∀ u, c.rely w u → c.inv u → ∀ a v, c.step o a u v → c.ok o a u v ∧ Q (.ok a) v := rfl

@[simp] theorem orRaise_wp {p : RunProg (Except RunError α)}
    {Q : Except RunError α → W → Prop} :
    (orRaise p).wp c Q = p.wp c (onResult Q fun e => Q (.error e)) := by
  simp [orRaise]

end

end Termroom.RemoteRun
