import Termroom.Conc.Run
import Termroom.Node.Agent

/-!
# The streams of a Node agent side by side

`NodeAgent._dispatch` hands a stream message of the Core to the stream it names, one message
after the other. A handler does file and terminal operations that can fail; what they come to
is the `StreamOs` of the message, so that a handler is a function.

An exception of `stream.close` is caught and sent to the Core as the `stream.error` of its
stream. **One of `stream.data` and `stream.control` is not**: it goes through `_dispatch` and
ends the connection with every other stream, and where `run_forever` does not expect its type,
the agent. `failures_isolated_iff` says that this is all that goes wrong: the failures of a
run are isolated exactly when no message of it is one that its stream fails on outside its
close (`AgentStream.FailsOn`).
-/

set_option autoImplicit false

namespace Termroom.Node

open Conc Data

/-! ## 1. Exceptions -/

inductive OsError where
  | fileExists
  | fileNotFound
  | permission
  | processLookup
  | other
  deriving DecidableEq, Repr

/-- What a stream can raise. -/
inductive AgentError where
  | node (e : NodeError)
  /-- `NodeRemoteRunError` and `SourceValidationError`. -/
  | remoteRun (message code : String)
  | fileConflict (message : String)
  | unsupportedFile (message : String)
  | pathBoundary (message : String)
  | os (kind : OsError) (message : String)
  /-- Any other `Exception`. -/
  | other (message : String)
  deriving DecidableEq

/-- `_error_code`. -/
def AgentError.code : AgentError → String
  | .node (.protocol _ code) | .node (.agent _ code) => code
  | .remoteRun _ code => code
  | .fileConflict _ => "file_conflict"
  | .unsupportedFile _ => "file_unsupported"
  | .pathBoundary _ => "path_outside"
  | .os .fileExists _ => "already_exists"
  | .os .fileNotFound _ => "not_found"
  | .os .permission _ => "permission_denied"
  | _ => "operation_failed"

/-- `str(error)`. -/
def AgentError.text : AgentError → String
  | .node (.protocol message _) | .node (.agent message _) | .node (.core message _)
  | .node (.request message _) | .node (.unavailable message) | .node (.value message) => message
  | .remoteRun message _ | .fileConflict message | .unsupportedFile message
  | .pathBoundary message | .os _ message | .other message => message

/-- `run_forever` connects again; any other exception ends the agent. -/
def AgentError.reconnects : AgentError → Bool
  | .node (.protocol _ _) | .node (.agent _ _) | .os _ _ => true
  | _ => false

/-- `with contextlib.suppress(…)`. -/
def suppress (expected : AgentError → Bool) (call : Except AgentError Unit) :
    Except AgentError Unit :=
  match call with
  | .ok _ => .ok ()
  | .error e => if expected e then .ok () else .error e

def AgentError.isFileNotFound : AgentError → Bool
  | .os .fileNotFound _ => true
  | _ => false

def AgentError.isProcessLookup : AgentError → Bool
  | .os .processLookup _ => true
  | _ => false

def AgentError.isOs : AgentError → Bool
  | .os _ _ => true
  | _ => false

/-- `try: body finally: last`. -/
def andFinally {α : Type} (body : Except AgentError α) (last : Except AgentError Unit) :
    Except AgentError α := do
  last
  body

/-- `try: body except BaseException: handler; raise`. -/
def andRaise {α : Type} (body : Except AgentError α) (handler : Except AgentError Unit) :
    Except AgentError α :=
  match body with
  | .ok a => .ok a
  | .error e => do
    handler
    .error e

/-! ## 2. Streams -/

/-- The operations of the handlers that return nothing. -/
inductive OsCall where
  | writeInput
  | terminate
  | kill
  | closeDescriptors
  | closeIterator
  /-- `write` until all is written. -/
  | write
  | flush
  | fsync
  | closeTemporary
  | openTemporary
  | fchmod
  | closeOpened
  | replace
  | link
  | unlink
  | fsyncParent
  | seek
  | unlinkLeftover
  | closeParent
  deriving DecidableEq, Repr

abbrev FileIdentity := Nat × Nat

/-- What the operations come to while one message is handled. -/
structure StreamOs where
  call : OsCall → Except AgentError Unit
  /-- `_wait_for_pid`, after the terminate and after the kill. -/
  exited : Except AgentError Bool
  killed : Except AgentError Bool
  /-- `os.stat` of the target; `none` is a `FileNotFoundError`. -/
  target : Except AgentError (Option FileIdentity)
  /-- `fstat` of the metadata file: whether it is as it was created. -/
  metadataIntact : Except AgentError Bool
  /-- What is read back from the metadata file. -/
  metadata : Except AgentError Bytes
  /-- `_commit_metadata`. -/
  commit : Bytes → Except AgentError Unit
  /-- `FileService.write_text`, and the snapshot it returns. -/
  writeText : String → Except AgentError JsonObject

structure TerminalAgentStream where
  closed : Bool
  deriving DecidableEq

structure UploadAgentStream where
  targetName : String
  existingIdentity : Option FileIdentity
  overwrite : Bool
  maxBytes : Nat
  total : Nat
  closed : Bool
  deriving DecidableEq

structure TextUploadAgentStream where
  maxBytes : Nat
  content : Bytes
  closed : Bool
  deriving DecidableEq

/-- The two Remote Run streams differ in their texts and in their close. -/
inductive RunUploadKind where
  | source
  | metadata
  deriving DecidableEq, Repr

/-- `NodeRemoteRunUploadStream` and `NodeRemoteRunMetadataStream`. -/
structure NodeRunUploadStream where
  kind : RunUploadKind
  expectedSize : Nat
  total : Nat
  closed : Bool
  deriving DecidableEq

inductive AgentStream where
  | terminal (s : TerminalAgentStream)
  | read (s : AgentReadStream)
  | upload (s : UploadAgentStream)
  | textUpload (s : TextUploadAgentStream)
  | runUpload (s : NodeRunUploadStream)
  deriving DecidableEq

/-- What a handler comes to: what it returns or raises, and the stream it leaves in
    `NodeRuntime.streams`, if it does. -/
abbrev Handled := Except AgentError (Option JsonObject) × Option AgentStream

/-! ## 3. `feed` and `control` -/

def TerminalAgentStream.feed (s : TerminalAgentStream) (chunk : Bytes) (os : StreamOs) : Handled :=
  if s.closed || chunk.isEmpty then (.ok none, some (.terminal s))
  else ((os.call .writeInput).map fun _ => none, some (.terminal s))

/-- `abort`; the temporary file is closed before it is unlinked. -/
def UploadAgentStream.abort (s : UploadAgentStream) (os : StreamOs) : Handled :=
  if s.closed then (.ok none, some (.upload s))
  else
    (do
      os.call .closeTemporary
      andFinally (suppress AgentError.isFileNotFound (os.call .unlinkLeftover))
        (os.call .closeParent)
      return none, none)

def UploadAgentStream.feed (s : UploadAgentStream) (chunk : Bytes) (os : StreamOs) : Handled :=
  if s.closed then
    (.error (.node (.agent "Upload stream is closed" "stream_closed")), some (.upload s))
  else
    let s := { s with total := s.total + chunk.length }
    if s.total > s.maxBytes then
      ((s.abort os).1.bind fun _ =>
        .error (.node (.agent "Upload exceeds the configured size limit" "upload_too_large")),
        (s.abort os).2)
    else ((os.call .write).map fun _ => none, some (.upload s))

/-- `abort` lets go of the content; it raises nothing. -/
def TextUploadAgentStream.abort (s : TextUploadAgentStream) : Handled :=
  if s.closed then (.ok none, some (.textUpload s)) else (.ok none, none)

def TextUploadAgentStream.feed (s : TextUploadAgentStream) (chunk : Bytes) : Handled :=
  if s.closed then
    (.error (.node (.agent "Text upload stream is closed" "stream_closed")), some (.textUpload s))
  else if s.content.length + chunk.length > s.maxBytes then
    (.error (.unsupportedFile "Content exceeds the editable size limit"), s.abort.2)
  else (.ok none, some (.textUpload { s with content := s.content ++ chunk }))

def RunUploadKind.closedError : RunUploadKind → AgentError
  | .source => .remoteRun "Remote Run Source stream is closed" "stream_closed"
  | .metadata => .remoteRun "Remote Run metadata stream is closed" "stream_closed"

def RunUploadKind.tooLargeError : RunUploadKind → AgentError
  | .source => .remoteRun "Remote Run Source file exceeds its declared size" "source_file_changed"
  | .metadata => .remoteRun "Remote Run metadata exceeds its declared size" "metadata_invalid"

def RunUploadKind.sizeError : RunUploadKind → AgentError
  | .source =>
    .remoteRun "Remote Run Source file size changed during transfer" "source_file_changed"
  | .metadata => .remoteRun "Remote Run metadata size changed during transfer" "metadata_invalid"

def NodeRunUploadStream.abort (s : NodeRunUploadStream) (os : StreamOs) : Handled :=
  if s.closed then (.ok none, some (.runUpload s))
  else
    (do
      suppress AgentError.isOs (os.call .closeTemporary)
      suppress AgentError.isFileNotFound (os.call .unlinkLeftover)
      os.call .closeParent
      return none, none)

def NodeRunUploadStream.feed (s : NodeRunUploadStream) (chunk : Bytes) (os : StreamOs) : Handled :=
  if s.closed then (.error s.kind.closedError, some (.runUpload s))
  else
    let s := { s with total := s.total + chunk.length }
    if s.total > s.expectedSize then
      ((s.abort os).1.bind fun _ => .error s.kind.tooLargeError, (s.abort os).2)
    else ((os.call .write).map fun _ => none, some (.runUpload s))

def AgentStream.feed (stream : AgentStream) (chunk : Bytes) (os : StreamOs) : Handled :=
  match stream with
  | .terminal s => s.feed chunk os
  | .read s => (.error (.node s.feed), some stream)
  | .upload s => s.feed chunk os
  | .textUpload s => s.feed chunk
  | .runUpload s => s.feed chunk os

def AgentStream.control (stream : AgentStream) (kind : String) (count : Option Int) : Handled :=
  match stream with
  | .terminal _ =>
    if kind = "resize" then
      (.error (.node (.agent "Terminal resize requires an acknowledged request"
        "terminal_resize_unacknowledged")), some stream)
    else (.ok none, some stream)
  | .read s =>
    match s.control kind count with
    | .ok s => (.ok none, some (.read s))
    | .error e => (.error (.node e), some stream)
  | _ => (.ok none, some stream)

/-! ## 4. `close` and `abort` -/

def TerminalAgentStream.close (s : TerminalAgentStream) (os : StreamOs) : Handled :=
  if s.closed then (.ok none, some (.terminal s))
  else
    (do
      suppress AgentError.isProcessLookup (os.call .terminate)
      let exited ← os.exited
      if !exited then
        suppress AgentError.isProcessLookup (os.call .kill)
        let _ ← os.killed
      -- the descriptor's error and those of the cleanup are suppressed
      return none, none)

/-- `close` of the read streams. The stream of a Workspace file closes its iterator before it
    leaves the registry. -/
def readClose (s : AgentReadStream) (os : StreamOs) : Handled :=
  match s.kind with
  | .workspaceFile =>
    if s.closed then (.ok none, some (.read s))
    else
      match os.call .closeIterator with
      | .ok _ => (.ok none, none)
      | .error e =>
        (.error e, some (.read { s with closed := true, flow := { s.flow with closed := true } }))
  | .workspaceManifest => if s.closed then (.ok none, some (.read s)) else (.ok none, none)
  | .download => ((os.call .closeDescriptors).map fun _ => none, none)
  | .textDownload => (.ok none, none)

def UploadAgentStream.close (s : UploadAgentStream) (os : StreamOs) : Handled :=
  if s.closed then (.ok none, some (.upload s))
  else
    (andFinally (do
      os.call .flush
      os.call .fsync
      os.call .closeTemporary
      let current ← os.target
      if current ≠ s.existingIdentity then
        if !s.overwrite && current.isSome then .error (.os .fileExists s.targetName)
        else .error (.node (.agent "Upload path changed" "path_changed"))
      os.call .openTemporary
      andFinally (os.call .fchmod) (os.call .closeOpened)
      if s.overwrite then os.call .replace
      else
        os.call .link
        os.call .unlink
      os.call .fsyncParent
      return none) (do
      suppress AgentError.isFileNotFound (os.call .unlinkLeftover)
      os.call .closeParent), none)

/-- `content.decode("utf-8")`. -/
def decodeUtf8 (content : Bytes) : Option String := String.fromUTF8? ⟨content.toArray⟩

def TextUploadAgentStream.close (s : TextUploadAgentStream) (os : StreamOs) : Handled :=
  if s.closed then (.ok none, some (.textUpload s))
  else
    match decodeUtf8 s.content with
    | none => (.error (.unsupportedFile "Only UTF-8 text files can be saved"), none)
    | some content =>
      ((os.writeText content).map fun snapshot => some [("snapshot", .obj snapshot)], none)

/-- `try: close except BaseException: …` of the two Remote Run streams, from the moment the
    stream has left the registry. -/
def NodeRunUploadStream.closeOpen (s : NodeRunUploadStream) (os : StreamOs) :
    Except AgentError (Option JsonObject) :=
  andFinally (andRaise (do
    if s.total ≠ s.expectedSize then .error s.kind.sizeError
    match s.kind with
    | .source =>
      os.call .fchmod
      os.call .fsync
      os.call .closeTemporary
      let current ← os.target
      if current.isSome then
        .error (.remoteRun "Remote Run Source path already exists" "source_path_conflict")
      os.call .replace
    | .metadata =>
      let intact ← os.metadataIntact
      if !intact then
        .error (.remoteRun "Remote Run metadata file is invalid" "metadata_invalid")
      os.call .fsync
      os.call .seek
      let content ← os.metadata
      if content.length ≠ s.expectedSize then .error s.kind.sizeError
      os.commit content
      os.call .closeTemporary
      suppress AgentError.isFileNotFound (os.call .unlink)
    return some [("size", .int s.total)])
    (suppress AgentError.isFileNotFound (os.call .unlinkLeftover)))
    (os.call .closeParent)

def NodeRunUploadStream.close (s : NodeRunUploadStream) (os : StreamOs) : Handled :=
  if s.closed then (.error s.kind.closedError, some (.runUpload s)) else (s.closeOpen os, none)

def AgentStream.close (stream : AgentStream) (os : StreamOs) : Handled :=
  match stream with
  | .terminal s => s.close os
  | .read s => readClose s os
  | .upload s => s.close os
  | .textUpload s => s.close os
  | .runUpload s => s.close os

/-- The streams that are acknowledged, and that have an `abort`. -/
def AgentStream.isUpload : AgentStream → Bool
  | .terminal _ | .read _ => false
  | _ => true

def AgentStream.abort (stream : AgentStream) (os : StreamOs) : Handled :=
  match stream with
  | .upload s => s.abort os
  | .textUpload s => s.abort
  | .runUpload s => s.abort os
  | _ => stream.close os

def AgentStream.closed : AgentStream → Bool
  | .terminal s => s.closed
  | .read s => s.closed
  | .upload s => s.closed
  | .textUpload s => s.closed
  | .runUpload s => s.closed

/-! ## 5. `_dispatch` -/

/-- `NodeRuntime.streams`. -/
abbrev StreamRegistry := RequestId → Option AgentStream

/-- The handler of a message; a chunk is decoded before. -/
def AgentStream.handle (stream : AgentStream) (message : CoreMessage) (os : StreamOs) : Handled :=
  match message with
  | .streamData none =>
    (.error (.node (.protocol "Core stream data is invalid" "stream_invalid")), some stream)
  | .streamData (some chunk) =>
    if chunk.length > MAX_NODE_STREAM_CHUNK_BYTES then
      (.error (.node (.protocol "Core stream chunk is too large" "stream_too_large")), some stream)
    else stream.feed chunk os
  | .streamControl kind count => stream.control kind count
  | .streamClose => stream.close os
  | .streamAbort => stream.abort os

/-- The answer to a `stream.close`. -/
def closeAnswer (stream : AgentStream) (id : RequestId) :
    Except AgentError (Option JsonObject) → List NodeMessage
  | .ok result => if stream.isUpload then [.streamClose (some id) (some (result.getD []))] else []
  | .error e => [.streamError (some id) (errorField e.text "Node stream failed" 500) e.code]

/-- The agent's end of the connection; `raised` is the exception that ended `run_once`. -/
structure AgentState where
  registry : StreamRegistry
  sent : List NodeMessage
  raised : Option AgentError

/-- `_dispatch` of a stream message. -/
def AgentState.dispatch (s : AgentState) (id : RequestId) (message : CoreMessage)
    (os : StreamOs) : AgentState :=
  match s.registry id with
  | none => { s with raised := some (.node (.protocol "Unknown Core stream" "stream_unknown")) }
  | some stream =>
    let handled := stream.handle message os
    let registry := Function.update s.registry id handled.2
    match message, handled.1 with
    | .streamClose, result => { s with registry, sent := s.sent ++ closeAnswer stream id result }
    | _, .ok _ => { s with registry }
    | _, .error e => { s with registry, raised := some e }

/-- What happens to the agent's streams: a message of the Core, or what a request or the
    stream's own task does to one of them, which is left open. -/
inductive AgentAct where
  | dispatch (id : RequestId) (message : CoreMessage) (os : StreamOs)
  | task (id : RequestId) (stream : Option AgentStream)

inductive AgentStep (s : AgentState) : AgentAct → AgentState → Prop
  | dispatch (id : RequestId) (message : CoreMessage) (os : StreamOs) (up : s.raised = none) :
      AgentStep s (.dispatch id message os) (s.dispatch id message os)
  | task (id : RequestId) (stream : Option AgentStream) (up : s.raised = none) :
      AgentStep s (.task id stream) { s with registry := Function.update s.registry id stream }

/-- Well formed for `node_protocol.py`, and one of the three kinds that a stream handles. -/
def CoreMessage.Handles : CoreMessage → Prop
  | .streamData (some chunk) => chunk.length ≤ MAX_NODE_STREAM_CHUNK_BYTES
  | .streamControl _ _ | .streamClose => True
  | _ => False

/-- A failure is isolated: where the handler raises, its stream ends with a `stream.error`,
    `_dispatch` returns, and the other streams are as they were. -/
def Isolates (s : AgentState) (act : AgentAct) (t : AgentState) : Prop :=
  match act with
  | .task _ _ => True
  | .dispatch id message os =>
    ∀ stream e, s.registry id = some stream → message.Handles →
      (stream.handle message os).1 = .error e →
      t.raised = none ∧
      t.sent = s.sent ++ [.streamError (some id) (errorField e.text "Node stream failed" 500) e.code] ∧
      (∀ left, t.registry id = some left → left.closed = true) ∧
      ∀ other, other ≠ id → t.registry other = s.registry other

/-- Outside its close, the stream fails on the message: it is closed, or takes no data, or a
    write fails, or the data goes past its limit, or the control is none that it accepts. -/
def AgentStream.FailsOn (stream : AgentStream) (message : CoreMessage) (os : StreamOs) : Prop :=
  match message with
  | .streamData (some chunk) =>
    match stream with
    | .terminal s => s.closed = false ∧ chunk ≠ [] ∧ ∃ e, os.call .writeInput = .error e
    | .read _ => True
    | .upload s => s.closed = true ∨ s.maxBytes < s.total + chunk.length ∨
        ∃ e, os.call .write = .error e
    | .textUpload s => s.closed = true ∨ s.maxBytes < s.content.length + chunk.length
    | .runUpload s => s.closed = true ∨ s.expectedSize < s.total + chunk.length ∨
        ∃ e, os.call .write = .error e
  | .streamControl kind count =>
    match stream with
    | .terminal _ => kind = "resize"
    | .read s => s.kind.flowControlled = true ∧
        (¬ ValidCredit kind count ∨ s.flow.closed = false ∧ s.flow.credits ≠ 0)
    | _ => False
  | _ => False

/-- The message is none that its stream fails on outside its close. -/
def Taken (s : AgentState) (act : AgentAct) (_ : AgentState) : Prop :=
  match act with
  | .task _ _ => True
  | .dispatch id message os =>
    ∀ stream, s.registry id = some stream → message.Handles → ¬ stream.FailsOn message os

/-! ## 6. When a handler raises -/

section

variable {α : Type} {chunk : Bytes} {os : StreamOs}

/-- A call raises exactly when its operation fails. -/
theorem map_raises {x : Except AgentError Unit} {a : α} :
    (∃ e, x.map (fun _ => a) = .error e) ↔ ∃ e, x = .error e := by
  cases x with
  | ok u => exact ⟨fun ⟨e, h⟩ => (nomatch h), fun ⟨e, h⟩ => (nomatch h)⟩
  | error e => exact ⟨fun _ => ⟨e, rfl⟩, fun _ => ⟨e, rfl⟩⟩

/-- What ends in an exception raises, whether or not it fails before. -/
theorem bind_raises {x : Except AgentError α} {e : AgentError} :
    ∃ e', (x.bind fun _ => .error e : Except AgentError (Option JsonObject)) = .error e' := by
  cases x with
  | ok a => exact ⟨e, rfl⟩
  | error e' => exact ⟨e', rfl⟩

theorem TerminalAgentStream.feed_raises_iff (s : TerminalAgentStream) :
    (∃ e, (s.feed chunk os).1 = .error e) ↔
      s.closed = false ∧ chunk ≠ [] ∧ ∃ e, os.call .writeInput = .error e := by
  unfold TerminalAgentStream.feed
  split
  · rename_i h
    refine ⟨fun ⟨e, he⟩ => (nomatch he), fun ⟨hc, hn, _⟩ => ?_⟩
    rcases Bool.or_eq_true .. ▸ h with h | h
    · exact absurd h (by simp [hc])
    · exact absurd (List.isEmpty_iff.mp h) hn
  · rename_i h
    simp only [Bool.or_eq_true, not_or, Bool.not_eq_true] at h
    refine map_raises.trans ⟨fun he => ⟨h.1, ?_, he⟩, fun he => he.2.2⟩
    rintro rfl
    exact nomatch h.2

theorem UploadAgentStream.feed_raises_iff (s : UploadAgentStream) :
    (∃ e, (s.feed chunk os).1 = .error e) ↔
      s.closed = true ∨ s.maxBytes < s.total + chunk.length ∨
        ∃ e, os.call .write = .error e := by
  unfold UploadAgentStream.feed
  split
  · rename_i h
    exact ⟨fun _ => .inl h, fun _ => ⟨_, rfl⟩⟩
  · rename_i h
    dsimp only
    split
    · rename_i hsize
      exact ⟨fun _ => .inr (.inl hsize), fun _ => bind_raises⟩
    · rename_i hsize
      refine map_raises.trans ⟨fun he => .inr (.inr he), ?_⟩
      rintro (hc | hs | he)
      · exact absurd hc h
      · exact absurd hs hsize
      · exact he

theorem NodeRunUploadStream.feed_raises_iff (s : NodeRunUploadStream) :
    (∃ e, (s.feed chunk os).1 = .error e) ↔
      s.closed = true ∨ s.expectedSize < s.total + chunk.length ∨
        ∃ e, os.call .write = .error e := by
  unfold NodeRunUploadStream.feed
  split
  · rename_i h
    exact ⟨fun _ => .inl h, fun _ => ⟨_, rfl⟩⟩
  · rename_i h
    dsimp only
    split
    · rename_i hsize
      exact ⟨fun _ => .inr (.inl hsize), fun _ => bind_raises⟩
    · rename_i hsize
      refine map_raises.trans ⟨fun he => .inr (.inr he), ?_⟩
      rintro (hc | hs | he)
      · exact absurd hc h
      · exact absurd hs hsize
      · exact he

theorem TextUploadAgentStream.feed_raises_iff (s : TextUploadAgentStream) :
    (∃ e, (s.feed chunk).1 = .error e) ↔
      s.closed = true ∨ s.maxBytes < s.content.length + chunk.length := by
  unfold TextUploadAgentStream.feed
  split
  · rename_i h
    exact ⟨fun _ => .inl h, fun _ => ⟨_, rfl⟩⟩
  · rename_i h
    split
    · rename_i hsize
      exact ⟨fun _ => .inr hsize, fun _ => ⟨_, rfl⟩⟩
    · rename_i hsize
      refine ⟨fun ⟨e, he⟩ => (nomatch he), ?_⟩
      rintro (hc | hs)
      · exact absurd hc h
      · exact absurd hs hsize

theorem AgentStream.feed_raises_iff (stream : AgentStream) :
    (∃ e, (stream.feed chunk os).1 = .error e) ↔ stream.FailsOn (.streamData (some chunk)) os := by
  cases stream with
  | terminal s => exact s.feed_raises_iff
  | read s => exact ⟨fun _ => trivial, fun _ => ⟨_, rfl⟩⟩
  | upload s => exact s.feed_raises_iff
  | textUpload s => exact s.feed_raises_iff
  | runUpload s => exact s.feed_raises_iff

/-- `grant` refuses a control that is no valid credit, and a credit while one is left. -/
theorem FlowControl.grant_raises_iff (f : FlowControl) {kind : String} {count : Option Int} :
    (∃ e, f.grant kind count = .error e) ↔
      ¬ ValidCredit kind count ∨ f.closed = false ∧ f.credits ≠ 0 := by
  unfold FlowControl.grant
  have valid : ValidCredit kind count ↔ ¬ (kind ≠ "credit" ∨
      ¬ (1 ≤ count.getD 0 ∧ count.getD 0 ≤ (NODE_REMOTE_RUN_SOURCE_STREAM_WINDOW : Int))) := by
    unfold ValidCredit
    cases count with
    | none => simp
    | some n => simp
  dsimp only
  split
  · rename_i h
    exact ⟨fun _ => .inl fun hv => valid.mp hv h, fun _ => ⟨_, rfl⟩⟩
  · rename_i h
    have hv := valid.mpr h
    split
    · rename_i hc
      refine ⟨fun ⟨e, he⟩ => (nomatch he), ?_⟩
      rintro (hn | ⟨hn, _⟩)
      · exact absurd hv hn
      · exact absurd hc (by simp [hn])
    · rename_i hc
      have hc : f.closed = false := by simpa using hc
      split
      · rename_i hcredits
        exact ⟨fun _ => .inr ⟨hc, hcredits⟩, fun _ => ⟨_, rfl⟩⟩
      · rename_i hcredits
        refine ⟨fun ⟨e, he⟩ => (nomatch he), ?_⟩
        rintro (hn | ⟨_, hn⟩)
        · exact absurd hv hn
        · exact absurd hn hcredits

theorem AgentStream.control_raises_iff (stream : AgentStream) {kind : String}
    {count : Option Int} :
    (∃ e, (stream.control kind count).1 = .error e) ↔
      stream.FailsOn (.streamControl kind count) os := by
  cases stream with
  | terminal s =>
    simp only [AgentStream.control, AgentStream.FailsOn]
    split
    · rename_i h
      exact ⟨fun _ => h, fun _ => ⟨_, rfl⟩⟩
    · rename_i h
      exact ⟨fun ⟨e, he⟩ => (nomatch he), fun hk => absurd hk h⟩
  | read s =>
    simp only [AgentStream.control, AgentStream.FailsOn]
    have granted : (∃ e, s.control kind count = .error e) ↔ s.kind.flowControlled = true ∧
        ∃ e, s.flow.grant kind count = .error e := by
      unfold AgentReadStream.control
      split
      · rename_i hf
        cases s.flow.grant kind count with
        | ok f => simp [Except.map]
        | error e => simp [Except.map, hf]
      · rename_i hf
        simp [hf]
    rw [← s.flow.grant_raises_iff, ← granted]
    cases s.control kind count with
    | ok s' => exact ⟨fun ⟨e, he⟩ => (nomatch he), fun ⟨e, he⟩ => (nomatch he)⟩
    | error e => exact ⟨fun _ => ⟨e, rfl⟩, fun _ => ⟨_, rfl⟩⟩
  | upload s => exact ⟨fun ⟨e, he⟩ => (nomatch he), False.elim⟩
  | textUpload s => exact ⟨fun ⟨e, he⟩ => (nomatch he), False.elim⟩
  | runUpload s => exact ⟨fun ⟨e, he⟩ => (nomatch he), False.elim⟩

/-- **When a handler raises** outside the close. -/
theorem AgentStream.handle_raises_iff (stream : AgentStream) {message : CoreMessage}
    (handles : message.Handles) (open_ : message ≠ .streamClose) :
    (∃ e, (stream.handle message os).1 = .error e) ↔ stream.FailsOn message os := by
  cases message with
  | streamData data =>
    cases data with
    | none => exact handles.elim
    | some chunk =>
      have small : ¬ chunk.length > MAX_NODE_STREAM_CHUNK_BYTES := Nat.not_lt.mpr handles
      simp only [AgentStream.handle, if_neg small]
      exact stream.feed_raises_iff
  | streamControl kind count => exact stream.control_raises_iff
  | streamClose => exact absurd rfl open_
  | streamAbort => exact handles.elim

/-! ## 7. A close that fails -/

/-- A stream whose close fails is closed, or no stream any more; only one that was closed
    already stays as it is. -/
theorem AgentStream.close_ends (stream : AgentStream) {left : AgentStream}
    (h : (stream.close os).2 = some left) : left.closed = true := by
  cases stream with
  | terminal s =>
    simp only [AgentStream.close, TerminalAgentStream.close] at h
    split at h
    · cases h
      assumption
    · exact nomatch h
  | read s =>
    simp only [AgentStream.close, readClose] at h
    split at h
    · split at h
      · cases h
        assumption
      · split at h
        · exact nomatch h
        · cases h
          rfl
    · split at h
      · cases h
        assumption
      · exact nomatch h
    · exact nomatch h
    · exact nomatch h
  | upload s =>
    simp only [AgentStream.close, UploadAgentStream.close] at h
    split at h
    · cases h
      assumption
    · exact nomatch h
  | textUpload s =>
    simp only [AgentStream.close, TextUploadAgentStream.close] at h
    split at h
    · cases h
      assumption
    · split at h <;> exact nomatch h
  | runUpload s =>
    simp only [AgentStream.close, NodeRunUploadStream.close] at h
    split at h
    · cases h
      assumption
    · exact nomatch h

end

/-! ## 8. Runs -/

variable {s t : AgentState} {act : AgentAct} {es : List AgentAct}

/-- A dispatch touches no stream but its own. -/
theorem AgentState.dispatch_frame {id other : RequestId} {message : CoreMessage} {os : StreamOs}
    (h : other ≠ id) : (s.dispatch id message os).registry other = s.registry other := by
  unfold AgentState.dispatch
  split
  · rfl
  · dsimp only
    split <;> exact Function.update_of_ne h _ _

theorem AgentState.dispatch_found {id : RequestId} {message : CoreMessage} {os : StreamOs}
    {stream : AgentStream} (found : s.registry id = some stream) :
    (s.dispatch id message os).registry id = (stream.handle message os).2 := by
  unfold AgentState.dispatch
  simp only [found]
  split <;> exact Function.update_self _ _ _

/-- Outside a close, what the handler raises goes through. -/
theorem AgentState.dispatch_raises {id : RequestId} {message : CoreMessage} {os : StreamOs}
    {stream : AgentStream} {e : AgentError} (found : s.registry id = some stream)
    (open_ : message ≠ .streamClose) (raises : (stream.handle message os).1 = .error e) :
    (s.dispatch id message os).raised = some e := by
  unfold AgentState.dispatch
  simp only [found, raises]

/-- A close never raises, and answers with a `stream.error` when its stream does. -/
theorem AgentState.dispatch_close {id : RequestId} {os : StreamOs} {stream : AgentStream}
    {e : AgentError} (found : s.registry id = some stream)
    (raises : (stream.close os).1 = .error e) :
    (s.dispatch id .streamClose os).raised = s.raised ∧
      (s.dispatch id .streamClose os).sent =
        s.sent ++ [.streamError (some id) (errorField e.text "Node stream failed" 500) e.code] := by
  unfold AgentState.dispatch
  simp only [found, AgentStream.handle, raises, closeAnswer, and_self]

/-- One step isolates its failure exactly when its message is taken. -/
theorem AgentStep.isolates_iff (h : AgentStep s act t) : Isolates s act t ↔ Taken s act t := by
  cases h with
  | task id stream up => exact Iff.rfl
  | dispatch id message os up =>
    constructor
    · intro isolates stream found handles fails
      have open_ : message ≠ .streamClose := by
        rintro rfl
        exact fails
      obtain ⟨e, he⟩ := (stream.handle_raises_iff handles open_).mpr fails
      have raised := AgentState.dispatch_raises found open_ he
      rw [(isolates stream e found handles he).1] at raised
      exact nomatch raised
    · intro taken stream e found handles he
      by_cases open_ : message = .streamClose
      · subst open_
        obtain ⟨hraised, hsent⟩ := AgentState.dispatch_close found he
        refine ⟨hraised.trans up, hsent, ?_, fun other => AgentState.dispatch_frame⟩
        intro left hleft
        rw [AgentState.dispatch_found found] at hleft
        exact stream.close_ends hleft
      · exact absurd ((stream.handle_raises_iff handles open_).mp ⟨e, he⟩)
          (taken stream found handles)

/-- **Failures are isolated exactly when every message is taken.** Whatever streams are open
    and whatever their tasks, the requests and the Core do, with whatever outcome of the file
    and terminal operations: every failure of a handler in a run ends its own stream alone, by
    a `stream.error`, if and only if no message of the run is one that its stream fails on
    outside its close. -/
theorem failures_isolated_iff (s t : AgentState) (es : List AgentAct) :
    Run (Guard AgentStep Isolates) s es t ↔ Run (Guard AgentStep Taken) s es t :=
  ⟨fun run => run.mono fun _ _ _ h => ⟨h.1, h.1.isolates_iff.mp h.2⟩,
    fun run => run.mono fun _ _ _ h => ⟨h.1, h.1.isolates_iff.mpr h.2⟩⟩

/-- The agent knows the stream of every message, and none is an abort. -/
def Known (s : AgentState) (act : AgentAct) (_ : AgentState) : Prop :=
  match act with
  | .task _ _ => True
  | .dispatch id message _ => (s.registry id).isSome ∧ message.Handles

/-- Then the connection outlives every run. -/
theorem connection_survives (up : s.raised = none)
    (run : Run (Guard (Guard AgentStep Taken) Known) s es t) : t.raised = none := by
  have keep : ∀ u act v, Guard (Guard AgentStep Taken) Known u act v → u.raised = none →
      v.raised = none := by
    rintro u act v ⟨⟨h, taken⟩, known⟩ hu
    cases h with
    | task id stream => exact hu
    | dispatch id message os =>
      obtain ⟨stream, found⟩ := Option.isSome_iff_exists.mp known.1
      have isolates := (AgentStep.dispatch id message os hu).isolates_iff.mpr taken
      cases hr : (stream.handle message os).1 with
      | error e => exact (isolates stream e found known.2 hr).1
      | ok result =>
        unfold AgentState.dispatch
        simp only [found, hr]
        cases message <;> exact hu
  have kept := run.invariant keep
  exact kept up

/-! ## 9. The read streams

`NodeAgent.dispatch` is the same branch for a read stream alone, where nothing fails. -/

/-- A read stream in the registry, or none. -/
def AgentReadStream.entry (a : AgentReadStream) : Option AgentStream :=
  if a.registered then some (.read a) else none

/-- **The two models of `_dispatch` agree** on the read streams whose generator no thread
    runs. -/
theorem read_dispatch {a : AgentReadStream} {message : CoreMessage} {os : StreamOs}
    (registered : a.registered = true) (idle : ¬a.Busy) (fine : ∀ c, os.call c = .ok ()) :
    (AgentStream.read a).handle message os =
      match NodeAgent.dispatch (some a) message with
      | .ok b => (.ok none, b.entry)
      | .error e => (.error (.node e), some (.read a)) := by
  have closing : (AgentStream.read a).close os = (.ok none, a.close.1.entry) := by
    simp only [AgentStream.close, readClose, fine]
    cases hk : a.kind <;> cases hc : a.closed <;>
      simp [AgentReadStream.close, AgentReadStream.entry, ReadStreamKind.flowControlled, hk, hc,
        registered, idle, Except.map]
  cases message with
  | streamData data =>
    cases data with
    | none => rfl
    | some chunk =>
      simp only [AgentStream.handle, NodeAgent.dispatch]
      split <;> rfl
  | streamControl kind count =>
    simp only [AgentStream.handle, AgentStream.control, NodeAgent.dispatch]
    cases hc : a.control kind count with
    | error e => rfl
    | ok b =>
      have hb : b.registered = true := by
        unfold AgentReadStream.control at hc
        split at hc
        · cases hg : a.flow.grant kind count with
          | error e => rw [hg] at hc; cases hc
          | ok flow => rw [hg] at hc; cases hc; exact registered
        · cases hc; exact registered
      simp [AgentReadStream.entry, hb]
  | streamClose => exact closing
  | streamAbort =>
    rw [NodeAgent.dispatch_abort, if_neg idle]
    exact closing

/-! ## 10. An upload past its size -/

/-- Every operation succeeds. -/
def fineOs : StreamOs where
  call := fun _ => .ok ()
  exited := .ok true
  killed := .ok true
  target := .ok none
  metadataIntact := .ok true
  metadata := .ok []
  commit := fun _ => .ok ()
  writeText := fun _ => .ok []

/-- An upload of a Run file of one byte, and a terminal beside it. -/
def besideTerminal : AgentState where
  registry := fun id =>
    if id = 0 then some (.runUpload ⟨.source, 1, 0, false⟩)
    else if id = 1 then some (.terminal ⟨false⟩)
    else none
  sent := []
  raised := none

/-- **One byte too many ends the agent.** The upload is aborted and `_dispatch` raises a
    `NodeRemoteRunError`: the Core gets no `stream.error`, the connection is gone with the
    terminal's stream, and `run_forever` does not catch it. -/
theorem upload_past_size_ends_agent :
    ∃ t e, AgentStep besideTerminal (.dispatch 0 (.streamData (some [0, 0])) fineOs) t ∧
      (CoreMessage.streamData (some [0, 0])).Handles ∧ t.raised = some e ∧
      e = .remoteRun "Remote Run Source file exceeds its declared size" "source_file_changed" ∧
      e.reconnects = false ∧ t.sent = [] ∧ t.registry 1 = some (.terminal ⟨false⟩) ∧
      ¬ Isolates besideTerminal (.dispatch 0 (.streamData (some [0, 0])) fineOs) t := by
  have handles : (CoreMessage.streamData (some [0, 0])).Handles := by
    show 2 ≤ MAX_NODE_STREAM_CHUNK_BYTES
    decide
  refine ⟨_, _, .dispatch 0 _ _ rfl, handles, rfl, rfl, rfl, rfl, rfl, ?_⟩
  intro isolates
  exact nomatch (isolates _ _ rfl handles rfl).1

end Termroom.Node
