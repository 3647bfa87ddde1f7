import Termroom.Conc.Exec
import Termroom.FileRuns.Backend

/-!
# Starting a File Run

`FileRunManager._start_locked`, from the check of the Workspace to what it returns. It claims
the Workspace's one slot, asks the backend to start the program, and observes the run; where
something fails it decides whether the run is over, which frees the slot, or stays active.

It runs under the Workspace's lock, as everything else that moves the Workspace's File Runs
does, so a start is an execution by itself. Its operations are the statements of the store
and the requests to the backends; what the backends answer is arbitrary.

Once the start was requested of a Remote, a run may be over only if the Remote says so. The
handler for failures of the connection asks it (`start_status_unknown` where it cannot
answer). **The handler for refusals does not**, and takes for one whatever `ValueError`
reaches it, also from the reconciliation of the Terminals after the program was started.
`slot_kept_iff` says that this is the only way.
-/

set_option autoImplicit false

namespace Termroom.FileRuns

open Conc Prog Data RemoteRun Store

/-! ## 1. Runners -/

/-- A `RunnableFile`. -/
structure Runnable where
  relativePath : String
  digest : String
  executable : Bool
  hasShebang : Bool
  deriving DecidableEq, Repr

structure RunnerSpec where
  id : String
  suffixes : List String
  program : String
  flags : List String
  runtimeErrorCode : String

/-- A `ResolvedRunner`. -/
structure Runner where
  id : String
  version : Int
  argv : List String
  runtimeErrorCode : String
  deriving DecidableEq, Repr

def RUNNER_REGISTRY_VERSION : Int := 1

def RUNNER_SPECS : List RunnerSpec :=
  [⟨"python3", [".py"], "python3", ["--"], "python3_missing"⟩,
    ⟨"node", [".js", ".mjs", ".cjs"], "node", ["--"], "nodejs_missing"⟩,
    ⟨"bash", [".sh", ".bash"], "bash", ["--noprofile", "--norc", "--"], "bash_missing"⟩]

/-- `PurePosixPath(path).parts` of a relative path. -/
def pathParts (path : String) : List (List Char) :=
  (path.toList.splitOnP (· = '/')).filter fun part => part ≠ [] && part ≠ ['.']

/-- `PurePosixPath.suffix` of a path with this name. -/
def nameSuffix (name : List Char) : List Char :=
  let after := name.reverse.takeWhile (· ≠ '.')
  let before := name.reverse.dropWhile (· ≠ '.')
  if before.length ≤ 1 || after.isEmpty then [] else '.' :: after.reverse

def resolveRunner (runnable : Runnable) : Except StartError (Option Runner) :=
  let parts := pathParts runnable.relativePath
  if runnable.relativePath.toList.head? = some '/' || parts.isEmpty ||
      parts.contains ['.', '.'] then
    .error (.value "File Run path must be normalized and Workspace-relative")
  else
    let executablePath := String.ofList ('.' :: '/' :: ['/'].intercalate parts)
    if runnable.executable && runnable.hasShebang then
      .ok (some ⟨"direct", RUNNER_REGISTRY_VERSION, [executablePath], "direct_runner_failed"⟩)
    else
      let suffix := String.ofList (nameSuffix (parts.getLast?.getD []))
      .ok ((RUNNER_SPECS.find? fun spec => spec.suffixes.contains suffix).map fun spec =>
        ⟨spec.id, RUNNER_REGISTRY_VERSION, spec.program :: spec.flags ++ [executablePath],
          spec.runtimeErrorCode⟩)

/-! ## 2. The operations -/

/-- How the Workspace's computer is reached; a Node says whether it can run files. -/
inductive Connection where
  | local_
  | ssh
  | node (capable : Bool)
  | other
  deriving DecidableEq, Repr

/-- `backend_kind == "remote"`. -/
def Connection.isRemote : Connection → Bool
  | .local_ => false
  | _ => true

structure FileWorkspace where
  id : String
  /-- An ordinary Workspace that is not transient. -/
  persistent : Bool
  connection : Connection
  deriving DecidableEq, Repr

inductive StartOp where
  | cleanupHistory
  | inspect (relativePath expectedDigest : String)
  /-- `str(uuid.uuid4())`. -/
  | newId
  | utcNow
  | claim (claim : FileRunClaim)
  | getFileRun (id : String)
  | transition (id : String) (t : FileTransition)
  | setTerminal (id tmuxWindow : String)
  /-- `workspaces.require`; `none` is its `KeyError`. -/
  | requireWorkspace (id : String)
  | startLocal (id : String)
  | startSsh (id : String)
  | startNode (id : String)
  | observeLocal (id : String)
  | observeSsh (id : String)
  | observeNode (id : String)
  deriving DecidableEq

abbrev StartOp.Ans : StartOp → Type
  | .cleanupHistory => Except StartError Unit
  | .setTerminal _ _ => Except StoreError Unit
  | .inspect _ _ => Except StartError Runnable
  | .newId => String
  | .utcNow => Nat
  | .claim _ => Except StoreError (ClaimStatus × FileRun)
  | .getFileRun _ => Except StoreError (Option FileRun)
  | .transition _ _ => Except StoreError Bool
  | .requireWorkspace _ => Except StoreError (Option Connection)
  | .startLocal _ => Except StartError Window
  | .startSsh _ => SshStart
  | .startNode _ => NodeAnswer NodeStarted
  | .observeLocal _ => Except StartError Observation
  | .observeSsh _ => SshObserve
  | .observeNode _ => NodeAnswer NodeObserved

abbrev StartSig : Sig := ⟨StartOp, StartOp.Ans⟩

abbrev StartProg := Prog StartSig StartError

def request (o : StartOp) : StartProg o.Ans := @Prog.perform StartSig StartError o

/-- A statement of the store that lets its exception through. -/
def statement {α : Type} (p : StartProg (Except StoreError α)) : StartProg α := do
  match ← p with
  | .ok a => pure a
  | .error e => .raise (.store e)

/-! ## 3. The manager -/

/-- A run as the manager returns it, with its `connection` if it was asked for. -/
structure Shown where
  run : FileRun
  connection : Option String
  deriving DecidableEq, Repr

def validateUuid (value label : String) : Except StartError Unit :=
  if isUuid4 value then .ok () else .error (.value s!"{label} is invalid")

def getRun (id : String) : StartProg FileRun := do
  .ofExcept (validateUuid id "File Run id")
  match ← statement (request (.getFileRun id)) with
  | none => .raise (.key s!"Unknown File Run: {id}")
  | some run => pure run

def shown (id : String) (connection : Option String) : StartProg Shown := do
  let run ← getRun id
  pure ⟨run, connection⟩

def eligibleWorkspace (workspace : FileWorkspace) : Except StartError Unit :=
  let unsupported := "This Remote does not support current-file execution yet"
  if !workspace.persistent then
    .error (.fileRun "Current-file execution is available only in persistent project Workspaces"
      "workspace_not_supported")
  else
    match workspace.connection with
    | .node false | .other => .error (.fileRun unsupported "workspace_not_supported")
    | .local_ | .ssh | .node true => .ok ()

/-- `_observe_backend`. -/
def observeBackend (connection : Connection) (id : String) : StartProg Observation := do
  match connection with
  | .local_ =>
    let observation ← request (.observeLocal id)
    .ofExcept observation
  | .node _ =>
    let answer ← request (.observeNode id)
    .ofExcept (nodeObserve answer)
  | .ssh | .other =>
    let answer ← request (.observeSsh id)
    .ofExcept (sshObserve id answer)

/-- The backend's `start_file_run`. -/
def dispatch (connection : Connection) (id : String) : StartProg Window := do
  match connection with
  | .local_ =>
    let terminal ← request (.startLocal id)
    .ofExcept terminal
  | .node _ =>
    let answer ← request (.startNode id)
    .ofExcept (nodeStart id answer)
  | .ssh | .other =>
    let answer ← request (.startSsh id)
    .ofExcept (sshStart id answer)

/-- `value or utc_now()`. -/
def orNow (value : Option StoredTime) : StartProg StoredTime :=
  match value with
  | some time => pure time
  | none => do
    let now ← request .utcNow
    pure (.utc now)

def transition (id : String) (t : FileTransition) : StartProg Bool :=
  statement (request (.transition id t))

/-- `_apply_observation`. -/
def applyObservation (run : FileRun) (observation : Observation) : StartProg Unit :=
  if run.state.terminal then pure ()
  else
    match observation.state with
    | .preparing => pure ()
    | .running => do
      let startedAt ← orNow (observation.startedAt <|> run.startedAt)
      let _ ← transition run.id
        { expectedStates := [.preparing, .running], state := some .running,
          startedAt := some (some startedAt), errorCode := some none, errorDetail := some none }
    | state => do
      let endedAt ← orNow observation.endedAt
      let _ ← transition run.id
        { expectedStates := [.preparing, .running], state := some state,
          startedAt := some (observation.startedAt <|> run.startedAt),
          endedAt := some (some endedAt), exitCode := some observation.exitCode,
          errorCode := some observation.errorCode, errorDetail := some observation.errorDetail }

def reconcile (id : String) : StartProg Shown := do
  let _ ← getRun id
  let run ← getRun id
  if run.state.terminal then pure ⟨run, some "online"⟩
  else do
    match ← statement (request (.requireWorkspace run.workspaceId)) with
    | none => .raise (.key s!"Unknown workspace: {run.workspaceId}")
    | some connection => do
      match ← (observeBackend connection id).attempt with
      | .error e => if e.offline then pure ⟨run, some "offline"⟩ else .raise e
      | .ok observation => do
        applyObservation run observation
        shown id (some "online")

/-- The end that a start records itself. -/
def failStart (id errorCode : String) (e : StartError) : StartProg Shown := do
  let now ← request .utcNow
  let _ ← transition id
    { expectedStates := [.preparing], state := some .failed,
      endedAt := some (some (.utc now)), errorCode := some (some errorCode),
      errorDetail := some (some e.message) }
  shown id none

/-- The handlers of `_start_locked`. -/
def handleStart (connection : Connection) (id : String) (dispatchAttempted : Bool)
    (e : StartError) : StartProg Shown :=
  if e.refusal then failStart id "source_changed" e
  else if e.unavailable then
    if dispatchAttempted && connection.isRemote then do
      match ← (observeBackend connection id).attempt with
      | .error e' =>
        if e'.unavailable then do
          let _ ← transition id
            { expectedStates := [.preparing], state := some .preparing,
              errorCode := some (some "start_status_unknown"),
              errorDetail := some (some e.message) }
          shown id none
        else .raise e'
      | .ok observation =>
        if observation.state = .lost then failStart id "start_failed" e
        else do
          let current ← getRun id
          applyObservation current observation
          shown id (some "online")
    else failStart id "start_failed" e
  else .raise e

/-- The file is what it was when the slot was claimed. -/
def confirm (runnable : Runnable) (runner : Runner) : StartProg Unit := do
  let confirmed ← request (.inspect runnable.relativePath runnable.digest)
  let confirmed ← .ofExcept confirmed
  let confirmedRunner ← .ofExcept (resolveRunner confirmed)
  if confirmedRunner ≠ some runner then
    .raise (.fileConflict "The file Runner changed before execution")
  else pure ()

def dispatchAndReconcile (connection : Connection) (id : String) : StartProg Shown := do
  let terminal ← dispatch connection id
  statement (request (.setTerminal id terminal.tmuxWindow))
  reconcile id

def startLocked (workspace : FileWorkspace) (relativePath expectedDigest idempotencyKey : String) :
    StartProg Shown := do
  .ofExcept (eligibleWorkspace workspace)
  let cleaned ← request .cleanupHistory
  .ofExcept cleaned
  .ofExcept (validateUuid idempotencyKey "Idempotency key")
  let runnable ← request (.inspect relativePath expectedDigest)
  let runnable ← .ofExcept runnable
  match ← .ofExcept (resolveRunner runnable) with
  | none =>
    .raise (.fileRun "This file does not have a supported current-file Runner"
      "runner_not_supported")
  | some runner => do
    let id ← request .newId
    let (status, claimed) ← statement (request (.claim
      { id, workspaceId := workspace.id, idempotencyKey
        relativePath := runnable.relativePath, sourceDigest := runnable.digest
        runnerId := runner.id, runnerVersion := runner.version, argv := runner.argv }))
    match status with
    | .idempotent =>
      if !claimed.state.terminal then reconcile claimed.id else shown claimed.id none
    | .occupied =>
      .raise (.fileRun "Another file is already running in this Workspace" "slot_occupied")
    | .created => do
      match ← (confirm runnable runner).attempt with
      | .error e => handleStart workspace.connection id false e
      | .ok () => do
        match ← (dispatchAndReconcile workspace.connection id).attempt with
        | .error e => handleStart workspace.connection id true e
        | .ok started => pure started

/-! ## 4. Its executions -/

/-- What a start has seen and done; nothing reads it. -/
structure History where
  /-- The start was requested of a Remote. -/
  attempted : Bool
  /-- The start or an observation has failed for want of an answer. -/
  unavailable : Bool
  /-- Before that, though after the request, one of them was refused. -/
  refused : Bool
  /-- An observation reported that the run failed, or does not exist. -/
  reported : Bool
  /-- An observation reported the end of the run, whichever it is. -/
  reportedEnd : Bool
  /-- The run was recorded as failed. -/
  failed : Bool
  /-- The run was recorded as ended: it does not hold the slot any more. -/
  ended : Bool
  /-- The run was to be recorded as failed, and the database failed. -/
  unrecorded : Bool
  deriving DecidableEq, Repr

def unavailable {α : Type} : Except StartError α → Bool
  | .ok _ => false
  | .error e => e.unavailable

def reports (states : RunState → Bool) : Except StartError Observation → Bool
  | .ok observation => states observation.state
  | .error _ => false

def History.start (h : History) (r : Except StartError Window) : History :=
  { h with
    attempted := true
    unavailable := h.unavailable || FileRuns.unavailable r
    refused := h.refused || !h.unavailable && FileRuns.refused r }

def History.observe (h : History) (r : Except StartError Observation) : History :=
  { h with
    unavailable := h.unavailable || FileRuns.unavailable r
    refused := h.refused || h.attempted && !h.unavailable && FileRuns.refused r
    reported := h.reported || reports (fun state => state = .lost || state = .failed) r
    reportedEnd := h.reportedEnd || reports RunState.terminal r }

def databaseFailed {α : Type} : Except StoreError α → Bool
  | .error (.database _) => true
  | _ => false

def History.transition (h : History) (t : FileTransition) (a : Except StoreError Bool) : History :=
  { h with
    failed := h.failed || a.toOption = some true && t.state = some .failed
    ended := h.ended || a.toOption = some true && t.state.any RunState.terminal
    unrecorded := h.unrecorded || databaseFailed a && t.state = some .failed }

def History.fresh : History := ⟨false, false, false, false, false, false, false, false⟩

structure StartWorld where
  tables : Tables
  history : History

/-- A transaction: it commits and answers, or raises, or the database fails. -/
def Transacts {α : Type} (r : Except StoreError (α × Tables)) (a : Except StoreError α)
    (T T' : Tables) : Prop :=
  (∃ x, r = .ok (x, T') ∧ a = .ok x) ∨
    (∃ e, (r = .error e ∨ ∃ message, e = .database message) ∧ a = .error e ∧ T' = T)

/-- A statement answers, or the database fails. -/
def Reads {α : Type} (r : α) (a : Except StoreError α) : Prop :=
  a = .ok r ∨ ∃ message, a = .error (.database message)

def StartOp.step : (o : StartOp) → o.Ans → StartWorld → StartWorld → Prop
  | .newId, id, u, v => isUuid4 id = true ∧ v = u
  | .claim c, a, u, v => ∃ now,
    Transacts (claimFileRun c now u.tables) a u.tables v.tables ∧ v.history = u.history
  | .getFileRun id, a, u, v => Reads (u.tables.fileRun id) a ∧ v = u
  | .requireWorkspace _, a, u, v => (∃ found, Reads found a) ∧ v = u
  | .setTerminal _ _, a, u, v => Reads () a ∧ v = u
  -- what it prunes is not looked at
  | .cleanupHistory, _, u, v => v.history = u.history
  | .transition id t, a, u, v => ∃ now,
    Transacts (updateFileRun id t ((u.tables.fileRun id).map FileRun.state) now u.tables) a
      u.tables v.tables ∧ v.history = u.history.transition t a
  | .startNode id, a, u, v => v = { u with history := u.history.start (nodeStart id a) }
  | .startSsh id, a, u, v => v = { u with history := u.history.start (sshStart id a) }
  | .observeNode _, a, u, v => v = { u with history := u.history.observe (nodeObserve a) }
  | .observeSsh id, a, u, v => v = { u with history := u.history.observe (sshObserve id a) }
  | .observeLocal _, a, u, v => v = { u with history := u.history.observe a }
  | .inspect _ _, _, u, v | .utcNow, _, u, v | .startLocal _, _, u, v => v = u

/-- What a start does, from these tables. -/
abbrev Starts (workspace : FileWorkspace) (relativePath expectedDigest idempotencyKey : String)
    (T : Tables) (r : Except StartError Shown) (v : StartWorld) : Prop :=
  Exec StartOp.step (startLocked workspace relativePath expectedDigest idempotencyKey)
    ⟨T, .fresh⟩ r v

/-- Once a start was requested of a Remote, the run is recorded as failed only where the
    Remote reported that it failed, or does not exist; and it stays active unless the Remote
    reported its end. -/
def History.KeepsSlot (h : History) : Prop :=
  h.attempted = true → (h.failed = true → h.reported = true) ∧ (h.ended = true → h.reportedEnd = true)

/-! ## 5. The store's part -/

variable {T T' : Tables} {id : String}

/-- The run is as its claim left it. -/
def Claimed (id : String) (T : Tables) : Prop :=
  ∃ run, T.fileRun id = some run ∧ run.state = .preparing ∧ run.startedAt = none

section

variable {w : StartWorld} {connection : Connection}

/-- An exception that no handler of a start catches. -/
def StartError.Escapes (e : StartError) : Prop := e.refusal = false ∧ e.unavailable = false

/-- The start was requested, and the run is not over as far as it knows. -/
structure Asked (id : String) (w : StartWorld) : Prop where
  attempted : w.history.attempted = true
  reported : w.history.reported = false
  failed : w.history.failed = false
  ended : w.history.ended = false
  unrecorded : w.history.unrecorded = false
  claimed : Claimed id w.tables

/-- The slot is kept exactly if nothing was refused, or the database failed. -/
def History.Decided (h : History) : Prop :=
  h.KeepsSlot ↔ h.refused = false ∨ h.unrecorded = true

theorem History.Decided.kept {h : History} (refused : h.refused = false)
    (failed : h.failed = true → h.reported = true) (ended : h.ended = true → h.reportedEnd = true) :
    h.Decided :=
  ⟨fun _ => .inl refused, fun _ _ => ⟨failed, ended⟩⟩

/-- Nothing was recorded yet. -/
theorem Asked.kept {id : String} (h : Asked id w) (refused : w.history.refused = false) :
    w.history.Decided :=
  .kept refused (fun hf => absurd (h.failed.symm.trans hf) nofun)
    fun he => absurd (h.ended.symm.trans he) nofun

/-- What was recorded is what was observed. -/
theorem Asked.observed {id : String} {observation : Observation} {failed ended unrecorded : Bool}
    (h : Asked id w) (refused : (w.history.observe (.ok observation)).refused = false)
    (hfailed : failed = true → w.history.failed = true ∨ observation.state = .failed)
    (hended : ended = true → w.history.ended = true ∨ observation.state.terminal = true) :
    { w.history.observe (.ok observation) with failed, ended, unrecorded }.Decided := by
  refine .kept refused (fun hf => ?_) fun he => ?_
  · rcases hfailed hf with hf | hf
    · exact absurd (h.failed.symm.trans hf) nofun
    · simp [History.observe, reports, hf]
  · rcases hended he with he | he
    · exact absurd (h.ended.symm.trans he) nofun
    · simp [History.observe, reports, he]

/-- Where the program of the `try` ended: it returned, or raised what a handler takes, or
    raised something else. -/
def Dispatched (id : String) (r : Except StartError Shown) (w : StartWorld) : Prop :=
  match r with
  | .ok _ => w.history.Decided
  | .error e =>
    (Asked id w ∧ w.history.refused = e.refusal ∧
        (e.unavailable = true → w.history.unavailable = true)) ∨
      e.Escapes ∧ w.history.Decided

/-- An operation that requests no start of a Remote. -/
def StartOp.Local : StartOp → Prop
  | .startSsh _ | .startNode _ => False
  | _ => True

theorem StartOp.Local.step {o : StartOp} {a : o.Ans} {u v : StartWorld} (ho : o.Local)
    (hs : o.step a u v) (attempted : u.history.attempted = false)
    (refused : u.history.refused = false) :
    v.history.attempted = false ∧ v.history.refused = false := by
  cases o with
  | startSsh _ | startNode _ => exact ho.elim
  | newId | getFileRun _ | requireWorkspace _ | setTerminal _ _ =>
    obtain ⟨-, rfl⟩ := hs
    exact ⟨attempted, refused⟩
  | cleanupHistory =>
    have hs : v.history = u.history := hs
    rw [hs]
    exact ⟨attempted, refused⟩
  | claim _ =>
    obtain ⟨now, -, hv⟩ := hs
    rw [hv]
    exact ⟨attempted, refused⟩
  | transition _ _ =>
    obtain ⟨now, -, hv⟩ := hs
    rw [hv]
    exact ⟨attempted, refused⟩
  | observeLocal _ | observeSsh _ | observeNode _ =>
    obtain rfl := hs
    exact ⟨attempted, by simp [History.observe, attempted, refused]⟩
  | _ =>
    obtain rfl : v = u := hs
    exact ⟨attempted, refused⟩

theorem request_all {P : StartOp → Prop} {o : StartOp} (h : P o) : (request o).All P :=
  ⟨h, fun _ => trivial⟩

theorem statement_all {α : Type} {p : StartProg (Except StoreError α)}
    (h : p.All StartOp.Local) : (statement p).All StartOp.Local := by
  refine h.bind fun a => ?_
  cases a with
  | ok a => exact .pure
  | error e => exact .raise

theorem getRun_all : (getRun id).All StartOp.Local := by
  refine All.ofExcept.bind fun _ => (statement_all (request_all trivial)).bind fun run => ?_
  cases run with
  | none => exact .raise
  | some run => exact .pure

theorem shown_all {connection : Option String} : (shown id connection).All StartOp.Local :=
  getRun_all.bind fun _ => .pure

theorem transition_all {t : FileTransition} : (transition id t).All StartOp.Local :=
  statement_all (request_all trivial)

theorem orNow_all {value : Option StoredTime} : (orNow value).All StartOp.Local := by
  cases value with
  | some time => exact .pure
  | none => exact (request_all trivial).bind fun _ => .pure

theorem applyObservation_all {run : FileRun} {observation : Observation} :
    (applyObservation run observation).All StartOp.Local := by
  unfold applyObservation
  split
  · exact .pure
  split
  · exact .pure
  · exact orNow_all.bind fun _ => transition_all.bind fun _ => .pure
  · exact orNow_all.bind fun _ => transition_all.bind fun _ => .pure

theorem observeBackend_all : (observeBackend connection id).All StartOp.Local := by
  unfold observeBackend
  cases connection <;> exact (request_all trivial).bind fun _ => .ofExcept

theorem reconcile_all : (reconcile id).All StartOp.Local := by
  unfold reconcile
  refine getRun_all.bind fun _ => getRun_all.bind fun run => ?_
  split
  · exact .pure
  refine (statement_all (request_all trivial)).bind fun found => ?_
  cases found with
  | none => exact .raise
  | some connection =>
    refine observeBackend_all.attempt.bind fun r => ?_
    cases r with
    | error e =>
      dsimp only
      split
      · exact .pure
      · exact .raise
    | ok observation => exact applyObservation_all.bind fun _ => shown_all

end

def transact {α : Type} (T : Tables) (h : Except StoreError α → History)
    (r : Except StoreError (α × Tables)) : Option (Except StoreError α × StartWorld) :=
  match r with
  | .ok (x, T') => some (.ok x, ⟨T', h (.ok x)⟩)
  | .error e => some (.error e, ⟨T, h (.error e)⟩)

def sampleRunnable : Runnable := ⟨"main.py", "digest", false, false⟩

def sampleId : String := "3f0c3f9e-8f0b-4a51-9a43-5f3a6f1c2d11"

/-- An SSH host that answers so. -/
def sshHost (start : SshStart) (observe : SshObserve) :
    (o : StartOp) → StartWorld → Option (o.Ans × StartWorld)
  | .cleanupHistory, w => some (.ok (), w)
  | .setTerminal _ _, w => some (.ok (), w)
  | .inspect _ _, w => some (.ok sampleRunnable, w)
  | .newId, w => some (sampleId, w)
  | .utcNow, w => some (7, w)
  | .claim c, w => transact w.tables (fun _ => w.history) (claimFileRun c 7 w.tables)
  | .getFileRun id, w => some (.ok (w.tables.fileRun id), w)
  | .transition id t, w =>
    transact w.tables (w.history.transition t)
      (updateFileRun id t ((w.tables.fileRun id).map FileRun.state) 7 w.tables)
  | .requireWorkspace _, w => some (.ok (some .ssh), w)
  | .startSsh id, w => some (start, { w with history := w.history.start (sshStart id start) })
  | .observeSsh id, w =>
    some (observe, { w with history := w.history.observe (sshObserve id observe) })
  | _, _ => none

def sshWorkspace : FileWorkspace := ⟨"workspace", true, .ssh⟩

def shellWindow : Window := ⟨"@1", "shell", "", none, some 1⟩

def runWindow (tmuxWindow : String) : Window :=
  ⟨tmuxWindow, "Run", "file_run", some sampleId, some 1⟩

/-- The program is started; then the host lists `after`. -/
def started (after : List Window) : SshStart where
  connect := .ok ()
  metadata := .ok ()
  windows := .ok [shellWindow]
  ensured := .ok []
  ensuredTransaction := .ok ()
  windowsAgain := .ok []
  transaction := .ok ()
  newWindow := .ok ()
  pane := .ok none
  respawn := .ok ()
  ensuredAfter := .ok after
  ensuredAfterTransaction := .ok ()

def runningPane : SshObserve where
  connect := .ok ()
  records := .ok none
  windows := .ok [shellWindow, runWindow "@2"]
  transaction := .ok ()
  pane := .ok { state := .running }

abbrev play (start : SshStart) : Option (Except StartError Shown × StartWorld) :=
  run (sshHost start runningPane)
    (startLocked sshWorkspace "main.py" "digest" "9c1c3f9e-8f0b-4a51-9a43-5f3a6f1c2d11")
    ⟨.fresh [⟨"workspace", "Work"⟩] [], .fresh⟩

/-- Where a run is after a start, and what that start has seen. -/
def outcome (w : StartWorld) : Option (RunState × Option String) × History :=
  ((w.tables.fileRun sampleId).map fun run => (run.state, run.errorCode), w.history)

end Termroom.FileRuns
