import Mathlib
import Termroom.Conc.Prog
import Termroom.Data.Json
import Termroom.Store.Terminals

/-!
# Starting and observing a File Run on a Remote

What `RemoteAccess` and `SSHBackend` make of the answers of a Node and of an SSH host when
`FileRunManager` starts or observes a File Run there: which exception they raise, or what
they return. An answer is what one request or one remote command comes to, and everything
after it is a function of it.

In between, both have the store reconcile the Terminals that the other side lists
(`reconcileTerminals`), **which raises a `ValueError` where the list is invalid**
(`reconcileTerminals_invalid`), the class of exceptions that a start takes for a refusal.
-/

set_option autoImplicit false

namespace Termroom.FileRuns

open Data RemoteRun Store

/-! ## 1. Exceptions -/

/-- The exceptions that reach the File Run manager, by class. -/
inductive StartError where
  /-- `FileConflictError`. -/
  | fileConflict (message : String)
  /-- `UnsupportedFileError`, a `ValueError`. -/
  | unsupported (message : String)
  | value (message : String)
  | os (message : String)
  | remoteAccess (message code : String)
  | sshBackend (message : String)
  | terminal (message : String)
  /-- `FileRunError` and `FileRunConflict`. -/
  | fileRun (message code : String)
  | key (message : String)
  | runtime (message : String)
  /-- Of the database. -/
  | store (e : StoreError)
  deriving DecidableEq, Repr

namespace StartError

/-- `(FileConflictError, UnsupportedFileError, ValueError)`. -/
def refusal : StartError → Bool
  | .fileConflict _ | .unsupported _ | .value _ => true
  | .store (.value _) => true
  | _ => false

/-- `(OSError, RemoteAccessError, SSHBackendError, TerminalError)`. -/
def unavailable : StartError → Bool
  | .os _ | .remoteAccess _ _ | .sshBackend _ | .terminal _ => true
  | _ => false

/-- `(RemoteAccessError, SSHBackendError)`. -/
def offline : StartError → Bool
  | .remoteAccess _ _ | .sshBackend _ => true
  | _ => false

/-- `str(exc)`. -/
def message : StartError → String
  | .fileConflict message | .unsupported message | .value message | .os message
  | .remoteAccess message _ | .sshBackend message | .terminal message | .fileRun message _
  | .key message | .runtime message => message
  | .store (.value message) | .store (.runtime message) | .store (.database message) => message
  | .store .type | .store .integrity => ""

end StartError

/-! ## 2. Terminals -/

/-- A tmux window as a backend lists it. -/
structure Window where
  tmuxWindow : String
  name : String
  role : String
  managedRunId : Option String
  activityAt : Option Int
  deriving DecidableEq, Repr

/-- A window as it is handed to the store. -/
def Window.listed (window : Window) : TmuxWindow :=
  ⟨some window.tmuxWindow, some window.name, some window.role, window.managedRunId,
    window.activityAt.map .int⟩

/-- A Terminal as the store returns it. -/
def Window.ofDesired (desired : DesiredTerminal) : Window :=
  ⟨desired.tmuxWindow, desired.name, desired.role.text, desired.managedRunId, desired.activityAt⟩

/-- What the transaction of a valid list comes to. -/
abbrev Transaction := Except StoreError Unit

/-- `StateStore.reconcile_terminals`: the Terminals of the Workspace afterwards. -/
def reconcileTerminals (windows : List Window) (transaction : Transaction) :
    Except StartError (List Window) :=
  match desiredTerminals [] [] (windows.map Window.listed) with
  | .error e => .error (.store e)
  | .ok desired =>
    match transaction with
    | .error e => .error (.store e)
    | .ok () => .ok (desired.map Window.ofDesired)

theorem terminalRole_error {value : Option String} {e : StoreError}
    (h : terminalRole value = .error e) : ∃ message, e = .value message := by
  unfold terminalRole at h
  dsimp only at h
  split_ifs at h
  exact ⟨_, (Except.error.inj h).symm⟩

/-- Two steps raise `ValueError`s if each of them does. -/
theorem bind_value {α β : Type} {x : Except StoreError α} {f : α → Except StoreError β}
    {e : StoreError} (h : (x >>= f) = .error e)
    (hx : ∀ e, x = .error e → ∃ message, e = .value message)
    (hf : ∀ a, f a = .error e → ∃ message, e = .value message) : ∃ message, e = .value message := by
  cases x with
  | error e' => exact hx e (congrArg Except.error (Except.error.inj h))
  | ok a => exact hf a h

/-- **A list that is invalid** has a `ValueError`. -/
theorem desiredTerminals_error {seenWindows : List String} {seenManagedRoles : List TerminalRole}
    {windows : List TmuxWindow} {e : StoreError}
    (h : desiredTerminals seenWindows seenManagedRoles windows = .error e) :
    ∃ message, e = .value message := by
  induction windows generalizing seenWindows seenManagedRoles e with
  | nil => cases h
  | cons raw windows ih =>
    have rest : ∀ {seenWindows seenManagedRoles item},
        (do
          let tail ← desiredTerminals seenWindows seenManagedRoles windows
          return item :: tail : Except StoreError (List DesiredTerminal)) = .error e →
        ∃ message, e = .value message :=
      fun h => bind_value h (fun _ => ih) fun _ => nofun
    unfold desiredTerminals at h
    dsimp only at h
    split at h
    · exact ⟨_, (Except.error.inj h).symm⟩
    apply bind_value h (fun _ => terminalRole_error)
    intro role h
    apply bind_value h
    · intro e' h
      cases hactivity : terminalActivityRevision raw.activityAt with
      | error e'' =>
        rw [hactivity] at h
        exact ⟨_, (Except.error.inj h).symm⟩
      | ok activityAt =>
        rw [hactivity] at h
        cases h
    · intro activityAt h
      split at h
      · exact rest h
      · split at h
        · exact ⟨_, (Except.error.inj h).symm⟩
        · exact rest h

/-- **A list that is invalid is taken for a refusal**, whatever the database does. -/
theorem reconcileTerminals_invalid {windows : List Window} {transaction : Transaction}
    {e : StoreError} (invalid : desiredTerminals [] [] (windows.map Window.listed) = .error e) :
    ∃ e, reconcileTerminals windows transaction = .error e ∧ e.refusal = true := by
  obtain ⟨message, rfl⟩ := desiredTerminals_error invalid
  refine ⟨.store (.value message), ?_, rfl⟩
  unfold reconcileTerminals
  rw [invalid]

/-! ## 3. A Node's answers -/

/-- A `NodeCoreError`, or another exception of the request. -/
inductive NodeFailure where
  | core (message code : String)
  | raised (e : StartError)
  deriving DecidableEq, Repr

/-- `_raise_node_error`. -/
def NodeFailure.error : NodeFailure → StartError
  | .raised e => e
  | .core message code =>
    match code with
    | "file_conflict" => .fileConflict message
    | "file_unsupported" => .unsupported message
    -- `PathBoundaryError` and `DirectoryListingLimitError` are `ValueError`s
    | "path_outside" | "directory_listing_limit" => .value message
    | "not_found" | "already_exists" | "permission_denied" => .os message
    | code => .remoteAccess message code

/-- A Terminal in a Node's answer, with its fields as `_terminal_record` reads them. -/
structure TerminalPayload where
  tmuxWindow : String
  name : String
  role : String
  managedRunId : Option String
  activityAt : Json
  deriving DecidableEq

/-- `str(uuid.UUID(text)) == text`, of version 4. -/
def isUuid4 (text : String) : Bool :=
  let hex (c : Char) : Bool := ('0' ≤ c && c ≤ '9') || ('a' ≤ c && c ≤ 'f')
  let cs := text.toList
  cs.length = 36 && (cs.zipIdx.all fun (c, i) =>
    if i ∈ [8, 13, 18, 23] then c = '-'
    else if i = 14 then c = '4'
    else if i = 19 then c ∈ ['8', '9', 'a', 'b']
    else hex c)

/-- `_terminal_record`. -/
def terminalRecord (value : TerminalPayload) : Except StartError Window :=
  let invalid (message : String) : Except StartError Window :=
    .error (.remoteAccess message "remote_error")
  let role := if value.role.isEmpty then "shell" else value.role
  let managed := value.managedRunId.filter fun id => !id.isEmpty
  let name := String.ofList ((if value.name.isEmpty then "shell" else value.name).toList.take 255)
  let record (activityAt : Option Int) : Except StartError Window :=
    if !(value.tmuxWindow.toList.take 1 = ['@'] &&
        !(value.tmuxWindow.toList.drop 1).isEmpty &&
        (value.tmuxWindow.toList.drop 1).all Char.isDigit) then
      invalid "Node returned an invalid Terminal identity"
    else if role = "shell" then
      if managed.isSome then invalid "Node returned an invalid Terminal identity"
      else .ok ⟨value.tmuxWindow, name, role, none, activityAt⟩
    else if role ∈ ["file_run", "remote_run"] then
      if managed.any isUuid4 then .ok ⟨value.tmuxWindow, name, role, managed, activityAt⟩
      else invalid "Node returned an invalid managed Terminal identity"
    else invalid "Node returned an invalid Terminal role"
  match value.activityAt with
  | .null => record none
  | .int activityAt =>
    if activityAt < 0 then invalid "Node returned invalid Terminal activity"
    else record (some activityAt)
  | _ => invalid "Node returned invalid Terminal activity"

/-- `RemoteAccess._reconcile_terminals`; a value that is no list counts as an empty one. -/
def nodeTerminals (value : List TerminalPayload) (transaction : Transaction) :
    Except StartError (List Window) :=
  if value.isEmpty then
    .error (.remoteAccess "Node returned an invalid Terminal list" "remote_error")
  else do
    let records ← value.mapM terminalRecord
    reconcileTerminals records transaction

/-- The Terminal of the run. -/
def managedTerminal (runId : String) (terminals : List Window) : Option Window :=
  terminals.find? fun item => item.role = "file_run" && item.managedRunId = some runId

/-- The result of `file_run.start`. -/
structure NodeStarted where
  terminal : TerminalPayload
  terminals : List TerminalPayload
  deriving DecidableEq

/-- What a request to a Node comes to, and the transaction after it. -/
structure NodeAnswer (α : Type) where
  result : Except NodeFailure α
  transaction : Transaction

/-- `RemoteAccess.start_file_run`, after its request. -/
def nodeStart (runId : String) (answer : NodeAnswer NodeStarted) : Except StartError Window :=
  match answer.result with
  | .error failure => .error failure.error
  | .ok result => do
    let expected ← terminalRecord result.terminal
    let terminals ← nodeTerminals result.terminals answer.transaction
    match terminals.find? fun item => item.tmuxWindow = expected.tmuxWindow &&
        item.role = "file_run" && item.managedRunId = some runId with
    | some terminal => .ok terminal
    | none => .error (.remoteAccess "Node managed File Run Terminal is missing" "remote_error")

/-- What an observation reports. -/
structure Observation where
  state : RunState
  startedAt : Option StoredTime := none
  endedAt : Option StoredTime := none
  exitCode : Option Int := none
  errorCode : Option String := none
  errorDetail : Option String := none
  deriving DecidableEq, Repr

/-- The result of `file_run.observe`; an observation that `_file_run_observation` rejects
    is absent. -/
structure NodeObserved where
  terminals : Option (List TerminalPayload)
  observation : Option Observation
  deriving DecidableEq

/-- `RemoteAccess.inspect_file_run`, after its request. -/
def nodeObserve (answer : NodeAnswer NodeObserved) : Except StartError Observation :=
  match answer.result with
  | .error failure => .error failure.error
  | .ok result => do
    match result.terminals with
    | some value =>
      let _ ← nodeTerminals value answer.transaction
      pure ()
    | none => pure ()
    match result.observation with
    | some observation => .ok observation
    | none => .error (.remoteAccess "Node returned an invalid File Run observation" "remote_error")

/-! ## 4. An SSH host's answers -/

/-- What the remote commands of `start_file_run` come to, and the transactions in between, in their
    order. -/
structure SshStart where
  connect : Except StartError Unit
  /-- `_prepare_remote_file_run_metadata`. -/
  metadata : Except StartError Unit
  windows : Except StartError (List Window)
  /-- `ensure_workspace`, where there are none. -/
  ensured : Except StartError (List Window)
  ensuredTransaction : Transaction
  windowsAgain : Except StartError (List Window)
  transaction : Transaction
  newWindow : Except StartError Unit
  /-- The pane of the managed Terminal, and whether it is dead. -/
  pane : Except StartError (Option Bool)
  /-- `respawn-pane`: the program is started. -/
  respawn : Except StartError Unit
  /-- `ensure_workspace`, after the start. -/
  ensuredAfter : Except StartError (List Window)
  ensuredAfterTransaction : Transaction

/-- `SSHBackend.ensure_workspace`, after its command. -/
def ensureWorkspace (listed : Except StartError (List Window)) (transaction : Transaction) :
    Except StartError (List Window) := do
  let windows ← listed
  if windows.isEmpty then
    .error (.sshBackend "Remote tmux session did not expose any terminal windows")
  else reconcileTerminals windows transaction

/-- The windows that `start_file_run` goes on with. -/
def SshStart.session (a : SshStart) : Except StartError (List Window) := do
  let windows ← a.windows
  if windows.isEmpty then do
    let _ ← ensureWorkspace a.ensured a.ensuredTransaction
    a.windowsAgain
  else .ok windows

/-- The pane to start in. -/
def SshStart.slot (a : SshStart) (windows : List Window) : Except StartError Unit :=
  if windows.any fun item => item.role = "file_run" then do
    let pane ← a.pane
    if pane = some false then
      .error (.sshBackend "The managed File Run Terminal is still active")
    else .ok ()
  else a.newWindow

/-- `SSHBackend.start_file_run`. -/
def sshStart (runId : String) (a : SshStart) : Except StartError Window := do
  a.connect
  a.metadata
  let windows ← a.session
  let _ ← reconcileTerminals windows a.transaction
  a.slot windows
  a.respawn
  let terminals ← ensureWorkspace a.ensuredAfter a.ensuredAfterTransaction
  match managedTerminal runId terminals with
  | some terminal => .ok terminal
  | none => .error (.sshBackend "Remote managed File Run Terminal is missing")

/-- What the remote reads of `inspect_file_run` come to. -/
structure SshObserve where
  connect : Except StartError Unit
  /-- What `completion.json` or `prepare.json` say. -/
  records : Except StartError (Option Observation)
  windows : Except StartError (List Window)
  transaction : Transaction
  /-- What the pane of the managed Terminal and the records beside it say. -/
  pane : Except StartError Observation

def terminalMissing : Observation where
  state := .lost
  errorCode := some "managed_terminal_missing"

/-- `SSHBackend.inspect_file_run`. -/
def sshObserve (runId : String) (a : SshObserve) : Except StartError Observation := do
  a.connect
  match ← a.records with
  | some observation => .ok observation
  | none => do
    let windows ← a.windows
    if windows.isEmpty then .ok terminalMissing
    else do
      let _ ← reconcileTerminals windows a.transaction
      match windows.find? fun item => item.role = "file_run" with
      | none => .ok terminalMissing
      | some slot => if slot.managedRunId = some runId then a.pane else .ok terminalMissing

/-- The answer is an exception that a start takes for a refusal. -/
def refused {α : Type} : Except StartError α → Bool
  | .ok _ => false
  | .error e => e.refusal

end Termroom.FileRuns
