import Termroom.Conc.Prog
import Termroom.Data.Json
import Termroom.RemoteRun.Row

/-!
# The status of a Run, derived twice

`_reconcile_remote_run_connection` of the SSH backend and `_reconcile` of the Node runtime
piece the status of a Run together from its tmux session, three JSON records and the stop
marker. They are written separately; here each is a program over the reads it makes
(`ObserveOp`), so that the same text can be run on facts that stand still or on a Run that
moves.

A record's file is missing, or has bytes. `json.loads(raw.decode("utf-8"))` is the same
function on both sides and is left as it is (`loads`); it returns a value, raises one of the
two errors that both sides expect, or raises another one (nesting too deep, an integer of
too many digits).

The two agree on every set of facts that neither of them raises on. Both raise where a
record's `state` or `phase` is a list or an object, for `value in {…}` hashes the value;
and the SSH side raises on a record of more than 1 MiB, which the Node side takes for an
invalid one (`same_status_iff`).
-/

set_option autoImplicit false

namespace Termroom.RemoteRun

open Conc Data

/-! ## 1. Records -/

inductive ObserveError where
  /-- `TypeError: unhashable type`. -/
  | type
  /-- `RecursionError` or `ValueError` of `json.loads`. -/
  | json (message : String)
  /-- `SSHBackendError` or `NodeRemoteRunError`. -/
  | backend (message : String)
  | os (message : String)
  deriving DecidableEq, Repr

/-- The record files of a Run. -/
inductive RecordFile where
  | completion
  | prepareResult
  | state
  deriving DecidableEq, Repr

def RecordFile.name : RecordFile → String
  | .completion => "completion.json"
  | .prepareResult => "prepare-result.json"
  | .state => "state.json"

/-- What reading a record file comes to. -/
inductive Content where
  | missing
  /-- Another `OSError`. -/
  | unavailable
  /-- More than 1 MiB. -/
  | tooLarge
  /-- `UnicodeDecodeError` or `json.JSONDecodeError`. -/
  | undecodable
  | raises (message : String)
  | loaded (value : Json)
  deriving DecidableEq

/-- A text that is not empty, as `started_at` and `ended_at` have to be. -/
abbrev Stamp := { text : String // text ≠ "" }

/-- `phase` of `state.json`. -/
inductive LivePhase where
  | cloning
  | running
  deriving DecidableEq, Repr

structure CompletionRecord where
  exitCode : Int
  stopRequested : Bool
  startedAt : Stamp
  endedAt : Stamp
  logIncomplete : Bool
  deriving DecidableEq

/-- `state` is `failed` or `stopped`. -/
structure PrepareRecord where
  stopped : Bool
  endedAt : Stamp
  errorCode : Json
  deriving DecidableEq

structure StateRecord where
  phase : LivePhase
  startedAt : Stamp
  deriving DecidableEq

def PrepareRecord.state (r : PrepareRecord) : RunState := if r.stopped then .stopped else .failed

/-- `isinstance(value, str) and bool(value)`. -/
def stamp : Json → Option Stamp
  | .str text => if h : text ≠ "" then some ⟨text, h⟩ else none
  | _ => none

/-- `value in {…}`, which hashes the value. -/
def member {α : Type} (value : Json) (names : List (String × α)) :
    Except ObserveError (Option α) :=
  match value with
  | .str text => .ok (names.lookup text)
  | .arr _ | .obj _ => .error .type
  | _ => .ok none

/-- `_valid_completion_record`, and what is read of a valid record. -/
def completionRecord (value : JsonObject) : Option CompletionRecord :=
  match Json.get value "exit_code", Json.get value "stop_requested" with
  | .int exitCode, .bool stopRequested => do
    let startedAt ← stamp (Json.get value "started_at")
    let endedAt ← stamp (Json.get value "ended_at")
    return ⟨exitCode, stopRequested, startedAt, endedAt,
      (Json.get value "log_incomplete").truthy⟩
  | _, _ => none

/-- `_valid_prepare_record`, and what is read of a valid record. -/
def prepareRecord (value : JsonObject) : Except ObserveError (Option PrepareRecord) := do
  let state ← member (Json.get value "state") [("failed", false), ("stopped", true)]
  return do
    let stopped ← state
    let endedAt ← stamp (Json.get value "ended_at")
    return ⟨stopped, endedAt, Json.get value "error_code"⟩

/-- `_valid_state_record`, and what is read of a valid record. -/
def stateRecord (value : JsonObject) : Except ObserveError (Option StateRecord) := do
  let phase ← member (Json.get value "phase")
    [("cloning", LivePhase.cloning), ("running", LivePhase.running)]
  return do
    let phase ← phase
    let startedAt ← stamp (Json.get value "started_at")
    return ⟨phase, startedAt⟩

/-! ## 2. Reads and results -/

/-- What the tmux queries report of the session and of its pane `run.0`. -/
inductive TmuxStatus where
  | missing
  | missingRun
  | pane (dead : Bool)
  deriving DecidableEq, Repr

def TmuxStatus.exists_ : TmuxStatus → Bool
  | .missing => false
  | _ => true

def TmuxStatus.runPaneExists : TmuxStatus → Bool
  | .pane _ => true
  | _ => false

def TmuxStatus.running : TmuxStatus → Bool
  | .pane dead => !dead
  | _ => false

inductive ObserveOp where
  | tmuxStatus
  /-- `_sftp_exists`, `_path_exists`. -/
  | exists_ (file : RecordFile)
  | read (file : RecordFile)
  | stopExists
  /-- `_read_optional_line` of the Git revision. -/
  | readRevision
  /-- The Node's `lock_for(run_id)`. -/
  | acquire
  | release
  deriving DecidableEq

abbrev ObserveOp.Ans : ObserveOp → Type
  | .tmuxStatus => Except ObserveError TmuxStatus
  | .exists_ _ | .stopExists => Except ObserveError Bool
  | .read _ => Content
  | .readRevision => Option String
  | .acquire | .release => Unit

abbrev ObserveSig : Sig := ⟨ObserveOp, ObserveOp.Ans⟩

abbrev ObserveProg := Prog ObserveSig ObserveError

/-- A read whose exception goes through. -/
def look {α : Type} (p : ObserveProg (Except ObserveError α)) : ObserveProg α := do
  let r ← p
  .ofExcept r

def reading (o : ObserveOp) : ObserveProg o.Ans := @Prog.perform ObserveSig ObserveError o

/-- What one pass over the records and the marker comes to; a record is `none` unless it is
    valid. -/
structure Sample where
  completion : Option CompletionRecord
  prepare : Option PrepareRecord
  state : Option StateRecord
  /-- `record_errors`. -/
  errors : List RecordFile
  stop : Bool
  deriving DecidableEq

/-- The names of the records that exist and are not valid. -/
def recordErrors (records : List (RecordFile × Bool × Bool)) : List RecordFile :=
  (records.filter fun (_, present, valid) => present && !valid).map Prod.fst

structure ReconcileResult where
  state : RunState
  phase : Option LivePhase
  exitCode : Option Int
  startedAt : Option Stamp
  endedAt : Option Stamp
  stopRequested : Bool
  tmuxExists : Bool
  runPaneExists : Bool
  tmuxRunning : Bool
  recordErrors : List RecordFile
  /-- `error_code`, where there is one. -/
  errorCode : Json
  logIncomplete : Option Bool
  sourceRevision : Option String
  deriving DecidableEq

/-- The result both sides start from. -/
def Sample.preparing (s : Sample) (tmux : TmuxStatus) : ReconcileResult where
  state := .preparing
  phase := s.state.map StateRecord.phase
  exitCode := none
  startedAt := s.state.map StateRecord.startedAt
  endedAt := none
  stopRequested := s.stop
  tmuxExists := tmux.exists_
  runPaneExists := tmux.runPaneExists
  tmuxRunning := tmux.running
  recordErrors := s.errors
  errorCode := .null
  logIncomplete := none
  sourceRevision := none

/-- A valid completion record decides the result. -/
def ReconcileResult.complete (r : ReconcileResult) (c : CompletionRecord) : ReconcileResult :=
  { r with
    state := if c.stopRequested then .stopped else .finished
    phase := none
    exitCode := some c.exitCode
    startedAt := some c.startedAt
    endedAt := some c.endedAt
    stopRequested := c.stopRequested
    logIncomplete := some c.logIncomplete }

/-- A valid prepare record decides the result. -/
def ReconcileResult.unprepared (r : ReconcileResult) (p : PrepareRecord) : ReconcileResult :=
  { r with state := p.state, phase := none, endedAt := some p.endedAt, errorCode := p.errorCode }

/-! ## 3. The SSH backend -/

/-- `_read_sftp_json`; `none` is `(None, False)`. -/
def readSftpJson (file : RecordFile) : ObserveProg (Option Json) := do
  match ← reading (.read file) with
  | .missing | .undecodable => pure none
  | .unavailable => .raise (.os "")
  | .tooLarge => .raise (.backend "Remote metadata file is too large")
  | .raises message => .raise (.json message)
  | .loaded value => pure (some value)

def sftpCompletion : Option Json → Option CompletionRecord
  | some (.obj value) => completionRecord value
  | _ => none

def sftpPrepare : Option Json → Except ObserveError (Option PrepareRecord)
  | some (.obj value) => prepareRecord value
  | _ => .ok none

def sftpState : Option Json → Except ObserveError (Option StateRecord)
  | some (.obj value) => stateRecord value
  | _ => .ok none

/-- The first reads of `_reconcile_remote_run_connection` after tmux. -/
def sshSample : ObserveProg Sample := do
  let completionExists ← look (reading (.exists_ .completion))
  let completion ← readSftpJson .completion
  let prepareExists ← look (reading (.exists_ .prepareResult))
  let prepare ← readSftpJson .prepareResult
  let stateExists ← look (reading (.exists_ .state))
  let state ← readSftpJson .state
  let stop ← look (reading .stopExists)
  let completion := sftpCompletion completion
  let prepare ← .ofExcept (sftpPrepare prepare)
  let state ← .ofExcept (sftpState state)
  pure ⟨completion, prepare, state,
    recordErrors [(.completion, completionExists, completion.isSome),
      (.prepareResult, prepareExists, prepare.isSome), (.state, stateExists, state.isSome)], stop⟩

/-- Its second reads. -/
def sshResample : ObserveProg Sample := do
  let completionExists ← look (reading (.exists_ .completion))
  let completion ← readSftpJson .completion
  let prepareExists ← look (reading (.exists_ .prepareResult))
  let prepare ← readSftpJson .prepareResult
  let stateExists ← look (reading (.exists_ .state))
  let state ← readSftpJson .state
  let completion := sftpCompletion completion
  let prepare ← .ofExcept (sftpPrepare prepare)
  let state ← .ofExcept (sftpState state)
  let stop ← look (reading .stopExists)
  pure ⟨completion, prepare, state,
    recordErrors [(.completion, completionExists, completion.isSome),
      (.prepareResult, prepareExists, prepare.isSome), (.state, stateExists, state.isSome)], stop⟩

/-- Its decision, from `if completion_terminal` on. -/
def sshDecide (tmux : TmuxStatus) (s : Sample) : ReconcileResult :=
  let result := s.preparing tmux
  match s.completion with
  | some completion => result.complete completion
  | none =>
    match s.prepare with
    | some prepare => result.unprepared prepare
    | none =>
      if tmux.running then
        if s.state.map StateRecord.phase = some .running then { result with state := .running }
        else result
      else if s.stop then { result with state := .stopped, phase := none }
      -- damaged metadata is no evidence that the Run stopped
      else if s.errors ≠ [] then result
      else if s.state.map StateRecord.phase = some .running then
        { result with state := .lost, phase := none }
      else if s.state.map StateRecord.phase = some .cloning then
        { result with state := .failed, phase := none, errorCode := .str "git_session_lost" }
      else result

/-- `SSHBackend._reconcile_remote_run_connection`. -/
def sshReconcile : ObserveProg ReconcileResult := do
  let tmux ← look (reading .tmuxStatus)
  let sample ← sshSample
  if sample.completion.isNone && sample.prepare.isNone && !tmux.running && sample.state.isSome then
    let tmux ← look (reading .tmuxStatus)
    if !tmux.running then
      let sample ← sshResample
      pure (sshDecide tmux sample)
    else pure (sshDecide tmux sample)
  else pure (sshDecide tmux sample)

/-! ## 4. The Node runtime -/

/-- `_read_json_record`: anything but an object is `{}`. -/
def readJsonRecord (file : RecordFile) : ObserveProg JsonObject := do
  match ← reading (.read file) with
  | .missing | .unavailable | .tooLarge | .undecodable => pure []
  | .raises message => .raise (.json message)
  | .loaded (.obj value) => pure value
  | .loaded _ => pure []

/-- The first reads of `_reconcile` after tmux. -/
def nodeSample : ObserveProg Sample := do
  let completionExists ← look (reading (.exists_ .completion))
  let completion ← readJsonRecord .completion
  let prepareExists ← look (reading (.exists_ .prepareResult))
  let prepare ← readJsonRecord .prepareResult
  let stateExists ← look (reading (.exists_ .state))
  let state ← readJsonRecord .state
  let completion := completionRecord completion
  let prepare ← .ofExcept (prepareRecord prepare)
  let state ← .ofExcept (stateRecord state)
  let stop ← look (reading .stopExists)
  pure ⟨completion, prepare, state,
    recordErrors [(.completion, completionExists, completion.isSome),
      (.prepareResult, prepareExists, prepare.isSome), (.state, stateExists, state.isSome)], stop⟩

/-- Its second reads: it asks which files exist after reading them. -/
def nodeResample : ObserveProg Sample := do
  let completion ← readJsonRecord .completion
  let prepare ← readJsonRecord .prepareResult
  let state ← readJsonRecord .state
  let completion := completionRecord completion
  let prepare ← .ofExcept (prepareRecord prepare)
  let state ← .ofExcept (stateRecord state)
  let stop ← look (reading .stopExists)
  let completionExists ← look (reading (.exists_ .completion))
  let prepareExists ← look (reading (.exists_ .prepareResult))
  let stateExists ← look (reading (.exists_ .state))
  pure ⟨completion, prepare, state,
    recordErrors [(.completion, completionExists, completion.isSome),
      (.prepareResult, prepareExists, prepare.isSome), (.state, stateExists, state.isSome)], stop⟩

/-- Its decision, from `if completion_valid` on. -/
def nodeDecide (tmux : TmuxStatus) (s : Sample) : ReconcileResult :=
  let result := s.preparing tmux
  if let some completion := s.completion then result.complete completion
  else if let some prepare := s.prepare then result.unprepared prepare
  else if tmux.running then
    if s.state.any fun state => state.phase = .running then { result with state := .running }
    else result
  else if s.stop then { result with state := .stopped, phase := none }
  else if s.errors.isEmpty && s.state.isSome then
    match s.state.map StateRecord.phase with
    | some .running => { result with state := .lost, phase := none }
    | some .cloning =>
      { result with state := .failed, phase := none, errorCode := .str "git_session_lost" }
    | none => result
  else result

/-- A line that is a full Git revision. -/
def fullRevision (line : Option String) : Option String :=
  line.bind fun revision =>
    if revision.length = 40 && revision.toList.all fun c => c ∈ "0123456789abcdefABCDEF".toList
    then some revision.toLower else none

/-- `NodeRemoteRunRuntime._reconcile`. -/
def nodeReconcile : ObserveProg ReconcileResult := do
  let tmux ← look (reading .tmuxStatus)
  let sample ← nodeSample
  let result ←
    if sample.completion.isNone && sample.prepare.isNone && !tmux.running &&
        sample.state.isSome then do
      let tmux ← look (reading .tmuxStatus)
      if !tmux.running then
        let sample ← nodeResample
        pure (nodeDecide tmux sample)
      else pure (nodeDecide tmux sample)
    else pure (nodeDecide tmux sample)
  let revision ← reading .readRevision
  pure { result with sourceRevision := fullRevision revision }

/-- `observe`, once the layout is asserted: `with self.lock_for(run_id)`. -/
def nodeObserve : ObserveProg ReconcileResult := do
  reading .acquire
  let result ← (nodeReconcile.attempt : ObserveProg (Except ObserveError ReconcileResult))
  reading .release
  .ofExcept result

/-! ## 5. One set of facts -/

inductive LoadError where
  /-- `UnicodeDecodeError` or `json.JSONDecodeError`. -/
  | undecodable
  | raises (message : String)
  deriving DecidableEq, Repr

/-- What is on the Remote. -/
structure RunFacts where
  tmux : TmuxStatus
  bytes : RecordFile → Option (List UInt8)
  stop : Bool
  revision : Option String

/-- `{}` for everything but an object. -/
def Content.fields : Content → JsonObject
  | .loaded (.obj record) => record
  | _ => []

/-- Reading and decoding raises nothing that the SSH backend does not expect. -/
def Content.decodes : Content → Bool
  | .unavailable | .tooLarge | .raises _ => false
  | .missing | .undecodable | .loaded _ => true

def hashable : Json → Bool
  | .arr _ | .obj _ => false
  | _ => true

section

variable (loads : List UInt8 → Except LoadError Json) (f : RunFacts)

namespace RunFacts

def content (file : RecordFile) : Content :=
  match f.bytes file with
  | none => .missing
  | some bytes =>
    if bytes.length > 1024 * 1024 then .tooLarge
    else match loads bytes with
      | .ok value => .loaded value
      | .error .undecodable => .undecodable
      | .error (.raises message) => .raises message

/-- The answers while nothing changes. -/
def answer : (o : ObserveOp) → o.Ans
  | .tmuxStatus => .ok f.tmux
  | .exists_ file => .ok (f.bytes file).isSome
  | .read file => f.content loads file
  | .stopExists => .ok f.stop
  | .readRevision => f.revision
  | .acquire | .release => ()

/-- The file holds a valid record. -/
def Valid : RecordFile → Prop
  | .completion => (completionRecord (f.content loads .completion).fields).isSome
  | .prepareResult => ∃ r, prepareRecord (f.content loads .prepareResult).fields = .ok (some r)
  | .state => ∃ r, stateRecord (f.content loads .state).fields = .ok (some r)

/-- Every record is at most 1 MiB, decodes or fails to decode as expected, and has no list or
    object for the `state` of `prepare-result.json` or the `phase` of `state.json`. -/
structure Readable : Prop where
  decodes : ∀ file, (f.content loads file).decodes = true
  prepare : hashable (Json.get (f.content loads .prepareResult).fields "state") = true
  state : hashable (Json.get (f.content loads .state).fields "phase") = true

end RunFacts

def sshStatus : Except ObserveError ReconcileResult := sshReconcile.eval (f.answer loads)

def nodeStatus : Except ObserveError ReconcileResult := nodeReconcile.eval (f.answer loads)

end

/-- The fields of the status that the claim is about. -/
structure ReconcileResult.SameStatus (r r' : ReconcileResult) : Prop where
  state : r.state = r'.state
  phase : r.phase = r'.phase
  exitCode : r.exitCode = r'.exitCode
  startedAt : r.startedAt = r'.startedAt
  endedAt : r.endedAt = r'.endedAt
  stopRequested : r.stopRequested = r'.stopRequested
  errorCode : r.errorCode = r'.errorCode

/-! ## 6. The two decisions -/

theorem decide_eq (tmux : TmuxStatus) (s : Sample) : nodeDecide tmux s = sshDecide tmux s := by
  obtain ⟨completion, prepare, state, errors, stop⟩ := s
  unfold nodeDecide sshDecide
  cases completion with
  | some c => rfl
  | none =>
    cases prepare with
    | some p => rfl
    | none =>
      cases tmux.running with
      | true => cases state <;> simp
      | false =>
        cases stop with
        | true => rfl
        | false =>
          cases errors with
          | cons => simp
          | nil =>
            cases state with
            | none => rfl
            | some r => cases hr : r.phase <;> simp [hr]

/-- **Damaged metadata ends nothing.** -/
theorem sshDecide_damaged {tmux : TmuxStatus} {s : Sample} (completion : s.completion = none)
    (prepare : s.prepare = none) (stop : s.stop = false) (damaged : s.errors ≠ []) :
    (sshDecide tmux s).state.terminal = false := by
  unfold sshDecide
  simp only [completion, prepare, stop]
  split
  · split <;> rfl
  · rfl

/-! ## 7. The two samples -/

section

variable {loads : List UInt8 → Except LoadError Json} {f : RunFacts}

/-- What both samples come to. -/
def RunFacts.sample (loads : List UInt8 → Except LoadError Json) (f : RunFacts) :
    Except ObserveError Sample := do
  let completion := completionRecord (f.content loads .completion).fields
  let prepare ← prepareRecord (f.content loads .prepareResult).fields
  let state ← stateRecord (f.content loads .state).fields
  .ok ⟨completion, prepare, state,
    recordErrors [(.completion, (f.bytes .completion).isSome, completion.isSome),
      (.prepareResult, (f.bytes .prepareResult).isSome, prepare.isSome),
      (.state, (f.bytes .state).isSome, state.isSome)], f.stop⟩

@[simp] theorem eval_reading (o : ObserveOp) :
    @Prog.eval ObserveSig ObserveError (no_index o.Ans) (f.answer loads) (reading o) =
      .ok (f.answer loads o) := rfl

@[simp] theorem eval_look {α : Type} {p : ObserveProg (Except ObserveError α)} :
    (look p).eval (f.answer loads) = p.eval (f.answer loads) >>= fun r => r := by
  simp [look]

theorem eval_readSftpJson (file : RecordFile) :
    (readSftpJson file).eval (f.answer loads) =
      match f.content loads file with
      | .missing | .undecodable => .ok none
      | .unavailable => .error (.os "")
      | .tooLarge => .error (.backend "Remote metadata file is too large")
      | .raises message => .error (.json message)
      | .loaded value => .ok (some value) := by
  simp only [readSftpJson, Prog.eval_bind, eval_reading, RunFacts.answer]
  cases f.content loads file <;> rfl

theorem eval_readJsonRecord (file : RecordFile) :
    (readJsonRecord file).eval (f.answer loads) =
      match f.content loads file with
      | .raises message => .error (.json message)
      | content => .ok content.fields := by
  simp only [readJsonRecord, Prog.eval_bind, eval_reading, RunFacts.answer]
  cases f.content loads file with
  | loaded value => cases value <;> rfl
  | _ => rfl

/-- What `_read_sftp_json` returns of a record that decodes. -/
def Content.json : Content → Option Json
  | .loaded value => some value
  | _ => none

theorem eval_readSftpJson_of_decodes {file : RecordFile}
    (h : (f.content loads file).decodes = true) :
    (readSftpJson file).eval (f.answer loads) = .ok (f.content loads file).json := by
  rw [eval_readSftpJson]
  cases hc : f.content loads file <;> simp_all [Content.decodes, Content.json]

theorem readSftpJson_decodes {file : RecordFile} {value : Option Json}
    (h : (readSftpJson file).eval (f.answer loads) = .ok value) :
    (f.content loads file).decodes = true := by
  rw [eval_readSftpJson] at h
  cases hc : f.content loads file <;> simp_all [Content.decodes]

theorem eval_readJsonRecord_of_decodes {file : RecordFile}
    (h : (f.content loads file).decodes = true) :
    (readJsonRecord file).eval (f.answer loads) = .ok (f.content loads file).fields := by
  rw [eval_readJsonRecord]
  cases hc : f.content loads file <;> simp_all [Content.decodes]

@[simp] theorem sftpCompletion_json (c : Content) :
    sftpCompletion c.json = completionRecord c.fields := by
  cases c with
  | loaded value => cases value <;> rfl
  | _ => rfl

@[simp] theorem sftpPrepare_json (c : Content) : sftpPrepare c.json = prepareRecord c.fields := by
  cases c with
  | loaded value => cases value <;> rfl
  | _ => rfl

@[simp] theorem sftpState_json (c : Content) : sftpState c.json = stateRecord c.fields := by
  cases c with
  | loaded value => cases value <;> rfl
  | _ => rfl

theorem sshSample_eval (h : ∀ file, (f.content loads file).decodes = true) :
    sshSample.eval (f.answer loads) = f.sample loads := by
  simp [sshSample, eval_readSftpJson_of_decodes (h _), RunFacts.answer, RunFacts.sample]

theorem sshResample_eval (h : ∀ file, (f.content loads file).decodes = true) :
    sshResample.eval (f.answer loads) = f.sample loads := by
  simp [sshResample, eval_readSftpJson_of_decodes (h _), RunFacts.answer, RunFacts.sample]

theorem nodeSample_eval (h : ∀ file, (f.content loads file).decodes = true) :
    nodeSample.eval (f.answer loads) = f.sample loads := by
  simp [nodeSample, eval_readJsonRecord_of_decodes (h _), RunFacts.answer, RunFacts.sample]

theorem nodeResample_eval (h : ∀ file, (f.content loads file).decodes = true) :
    nodeResample.eval (f.answer loads) = f.sample loads := by
  simp [nodeResample, eval_readJsonRecord_of_decodes (h _), RunFacts.answer, RunFacts.sample]

/-! ## 8. Agreement -/

theorem sshStatus_eq (h : ∀ file, (f.content loads file).decodes = true) :
    sshStatus loads f = (f.sample loads).map (sshDecide f.tmux) := by
  simp only [sshStatus, sshReconcile, Prog.eval_bind, eval_look, eval_reading, RunFacts.answer,
    ok_bind, sshSample_eval h]
  cases hs : f.sample loads with
  | error e => rfl
  | ok s =>
    rw [ok_bind]
    split
    · simp only [Prog.eval_bind, eval_look, eval_reading, RunFacts.answer, ok_bind]
      split
      · simp [sshResample_eval h, hs, Except.map]
      · rfl
    · rfl

theorem nodeStatus_eq (h : ∀ file, (f.content loads file).decodes = true) :
    nodeStatus loads f = (f.sample loads).map fun s =>
      { nodeDecide f.tmux s with sourceRevision := fullRevision f.revision } := by
  simp only [nodeStatus, nodeReconcile, Prog.eval_bind, eval_look, eval_reading,
    RunFacts.answer, ok_bind, nodeSample_eval h]
  cases hs : f.sample loads with
  | error e => rfl
  | ok s =>
    rw [ok_bind]
    split
    · simp only [Prog.eval_bind, eval_look, eval_reading, RunFacts.answer, ok_bind]
      split
      · simp [nodeResample_eval h, hs, Except.map, RunFacts.answer]
      · simp [Except.map, RunFacts.answer]
    · simp [Except.map, RunFacts.answer]

/-- The SSH backend returns only if every record decodes. -/
theorem sshStatus_decodes {r : ReconcileResult} (h : sshStatus loads f = .ok r) (file) :
    (f.content loads file).decodes = true := by
  simp only [sshStatus, sshReconcile, sshSample, Prog.eval_bind, bind_eq_ok] at h
  obtain ⟨-, -, -, ⟨-, -, completion, hc, -, -, prepare, hp, -, -, state, hs, -⟩, -⟩ := h
  cases file with
  | completion => exact readSftpJson_decodes hc
  | prepareResult => exact readSftpJson_decodes hp
  | state => exact readSftpJson_decodes hs

theorem sample_ok_iff : (∃ s, f.sample loads = .ok s) ↔
    hashable (Json.get (f.content loads .prepareResult).fields "state") = true ∧
      hashable (Json.get (f.content loads .state).fields "phase") = true := by
  have prepare (v : JsonObject) :
      (∃ r, prepareRecord v = .ok r) ↔ hashable (Json.get v "state") = true := by
    unfold prepareRecord
    cases Json.get v "state" <;> simp [member, hashable]
  have state (v : JsonObject) :
      (∃ r, stateRecord v = .ok r) ↔ hashable (Json.get v "phase") = true := by
    unfold stateRecord
    cases Json.get v "phase" <;> simp [member, hashable]
  rw [← prepare, ← state]
  simp only [RunFacts.sample, bind_eq_ok]
  constructor
  · rintro ⟨_, p, hp, s, hs, -⟩
    exact ⟨⟨p, hp⟩, s, hs⟩
  · rintro ⟨⟨p, hp⟩, s, hs⟩
    exact ⟨_, p, hp, s, hs, rfl⟩

/-- The two sides return, and the same status. -/
def RunFacts.Agrees (loads : List UInt8 → Except LoadError Json) (f : RunFacts) : Prop :=
  ∃ r r', sshStatus loads f = .ok r ∧ nodeStatus loads f = .ok r' ∧ r.SameStatus r'

/-- Without a valid completion or prepare record and without a stop marker, an invalid record
    makes the state of neither side terminal. -/
def RunFacts.DamageSafe (loads : List UInt8 → Except LoadError Json) (f : RunFacts) : Prop :=
  ¬ f.Valid loads .completion → ¬ f.Valid loads .prepareResult → f.stop = false →
    (∃ file, (f.bytes file).isSome ∧ ¬ f.Valid loads file) →
    ∀ r, sshStatus loads f = .ok r ∨ nodeStatus loads f = .ok r → r.state.terminal = false

theorem sample_invalid {s : Sample} (h : f.sample loads = .ok s)
    (completion : ¬ f.Valid loads .completion) (prepare : ¬ f.Valid loads .prepareResult)
    {file : RecordFile} (present : (f.bytes file).isSome) (invalid : ¬ f.Valid loads file) :
    s.completion = none ∧ s.prepare = none ∧ s.stop = f.stop ∧ s.errors ≠ [] := by
  obtain ⟨p, hp, st, hs, h⟩ : ∃ p, prepareRecord (f.content loads .prepareResult).fields = .ok p ∧
      ∃ st, stateRecord (f.content loads .state).fields = .ok st ∧ _ = Except.ok s := by
    simpa only [RunFacts.sample, bind_eq_ok] using h
  obtain rfl := Except.ok.inj h
  have hcompletion : completionRecord (f.content loads .completion).fields = none := by
    simpa [RunFacts.Valid] using completion
  have hprepare : p = none := by
    cases p with
    | none => rfl
    | some p => exact absurd ⟨p, hp⟩ prepare
  subst hprepare
  refine ⟨hcompletion, rfl, rfl, ?_⟩
  cases file with
  | completion => simp [recordErrors, hcompletion, present]
  | prepareResult => simp [recordErrors, present]
  | state =>
    cases st with
    | none => simp [recordErrors, present]
    | some st => exact absurd ⟨st, hs⟩ invalid

/-- **The SSH backend and the Node derive the same status.** On every set of remote facts,
    with whatever bytes in the records and whatever `json.loads` makes of them: both sides
    return, with the same state, phase, exit code, times, stop request and error code, and
    take no damaged record for an end, if and only if the records are `Readable`. -/
theorem same_status_iff (loads : List UInt8 → Except LoadError Json) (f : RunFacts) :
    f.Agrees loads ∧ f.DamageSafe loads ↔ f.Readable loads := by
  constructor
  · rintro ⟨⟨r, -, hr, -, -⟩, -⟩
    have decodes := sshStatus_decodes hr
    rw [sshStatus_eq decodes] at hr
    obtain ⟨s, hs, -⟩ : ∃ s, f.sample loads = .ok s ∧ _ := by
      cases hs : f.sample loads with
      | error e => rw [hs] at hr; exact nomatch hr
      | ok s => exact ⟨s, rfl, hr⟩
    obtain ⟨hp, hst⟩ := sample_ok_iff.mp ⟨s, hs⟩
    exact ⟨decodes, hp, hst⟩
  · intro h
    obtain ⟨s, hs⟩ := sample_ok_iff.mpr ⟨h.prepare, h.state⟩
    have hssh : sshStatus loads f = .ok (sshDecide f.tmux s) := by
      rw [sshStatus_eq h.decodes, hs]
      rfl
    have hnode : nodeStatus loads f =
        .ok { sshDecide f.tmux s with sourceRevision := fullRevision f.revision } := by
      rw [nodeStatus_eq h.decodes, hs, ← decide_eq]
      rfl
    refine ⟨⟨_, _, hssh, hnode, ⟨rfl, rfl, rfl, rfl, rfl, rfl, rfl⟩⟩, ?_⟩
    intro completion prepare stop ⟨file, present, invalid⟩ r hr
    obtain ⟨hc, hp, hstop, herrors⟩ := sample_invalid hs completion prepare present invalid
    have safe : (sshDecide f.tmux s).state.terminal = false :=
      sshDecide_damaged hc hp (hstop.trans stop) herrors
    rcases hr with hr | hr
    · rw [hssh] at hr
      exact Except.ok.inj hr ▸ safe
    · rw [hnode] at hr
      exact Except.ok.inj hr ▸ safe

end

/-! ## 9. A record that neither side reads -/

/-- `{"state":[]}` in UTF-8. -/
def listedState : List UInt8 := [0x7b, 0x22, 0x73, 0x74, 0x61, 0x74, 0x65, 0x22, 0x3a, 0x5b, 0x5d, 0x7d]

/-- A Run whose preparation left that record. -/
def listedFacts : RunFacts where
  tmux := .missing
  bytes := fun
    | .prepareResult => some listedState
    | _ => none
  stop := false
  revision := none

/-- `json.loads`, as far as that record is concerned. -/
def listedLoads (bytes : List UInt8) : Except LoadError Json :=
  if bytes = listedState then .ok (.obj [("state", .arr [])]) else .error .undecodable

/-- **A list for the state**: both sides raise a `TypeError` and derive no status. -/
theorem listed_state_raises :
    sshStatus listedLoads listedFacts = .error .type ∧
      nodeStatus listedLoads listedFacts = .error .type ∧
      ¬ listedFacts.Agrees listedLoads := by
  have hssh : sshStatus listedLoads listedFacts = .error .type := by decide +kernel
  have hnode : nodeStatus listedLoads listedFacts = .error .type := by decide +kernel
  refine ⟨hssh, hnode, ?_⟩
  rintro ⟨r, -, hr, -⟩
  rw [hssh] at hr
  exact nomatch hr

end Termroom.RemoteRun
