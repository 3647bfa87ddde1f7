import Termroom.Node.Stream

/-!
# A Node read stream and the Core stream it feeds

The Node agent's read streams (`node_agent.py`: the two downloads and the two Workspace
Source streams) push a file to the Core and then end on their own: the task sends
`stream.close`, or `stream.error`, and its `finally` takes the stream out of
`NodeRuntime.streams`. The Core may meanwhile send a control, a close or an abort for the
same stream. `Crossing` is the two ends and the two channels between them.

The Core remembers ids it has closed (`_closed_streams`) and ignores what still arrives for
them. **The Node does not**: `_dispatch` raises `stream_unknown` for a stream that has
finished by itself, and that exception ends `run_once`, so the connection with every other
stream. So does an abort that closes the generator of a Workspace file while a thread runs it:
the branch of `stream.close` catches the `ValueError`, that of `stream.abort` does not.
`dispatch_safe_iff_noCross` says that these are the only things that go wrong: a run never
raises exactly when no Core message crosses the Node's own end of the stream, and no abort
meets a running generator. In particular credits never do: the receive window and
`_WorkspaceSourceFlowControl` agree in every interleaving.
-/

set_option autoImplicit false

namespace Termroom.Node

open Conc Data

/-! ## 1. The Node's end -/

/-- The read streams of `node_agent.py`. -/
inductive ReadStreamKind where
  | textDownload
  | download
  | workspaceManifest
  | workspaceFile
  deriving DecidableEq

/-- The Workspace Source streams wait for credits. -/
def ReadStreamKind.flowControlled : ReadStreamKind → Bool
  | .textDownload | .download => false
  | .workspaceManifest | .workspaceFile => true

def ReadStreamKind.readOnly : ReadStreamKind → String
  | .textDownload => "Text download stream is read-only"
  | .download => "Download stream is read-only"
  | .workspaceManifest => "Workspace manifest stream is read-only"
  | .workspaceFile => "Workspace file stream is read-only"

/-- `_WorkspaceSourceFlowControl`. -/
structure FlowControl where
  credits : Nat
  closed : Bool
  deriving DecidableEq

/-- `claim`: `none` while it waits, else what it returns. -/
def FlowControl.claim (f : FlowControl) : Option (Bool × FlowControl) :=
  if f.closed then some (false, f)
  else if 0 < f.credits then some (true, { f with credits := f.credits - 1 })
  else none

/-- The control `grant` accepts: a credit of at most one window. -/
def ValidCredit (kind : String) (count : Option Int) : Prop :=
  kind = "credit" ∧ ∃ n, count = some n ∧ 1 ≤ n ∧ n ≤ NODE_REMOTE_RUN_SOURCE_STREAM_WINDOW

def FlowControl.grant (f : FlowControl) (kind : String) (count : Option Int) :
    Except NodeError FlowControl :=
  let n := count.getD 0
  if kind ≠ "credit" ∨ ¬ (1 ≤ n ∧ n ≤ NODE_REMOTE_RUN_SOURCE_STREAM_WINDOW) then
    .error (.agent "Workspace Source stream control is invalid" "stream_control_invalid")
  else if f.closed then .ok f
  else if f.credits ≠ 0 then
    .error (.agent "Workspace Source stream credit is invalid" "stream_control_invalid")
  else .ok { f with credits := n.toNat }

/-- Where the task that runs `start` is: at the loop test, past it with a chunk to send, in
    the `finally`, waiting inside `close`, or done. -/
inductive ReadTask where
  | loop
  | reading
  | final
  | closing
  | done
  deriving DecidableEq

/-- A read stream of the agent; `registered` says that `NodeRuntime.streams` has it. A thread
    is `generating` while it runs `next` of the generator of a Workspace file. -/
structure AgentReadStream where
  kind : ReadStreamKind
  registered : Bool
  closed : Bool
  flow : FlowControl
  task : ReadTask
  generating : Bool
  deriving DecidableEq

namespace AgentReadStream

def opened (kind : ReadStreamKind) : AgentReadStream :=
  ⟨kind, true, false, ⟨0, false⟩, .loop, false⟩

def feed (a : AgentReadStream) : NodeError := .agent a.kind.readOnly "stream_direction"

def control (a : AgentReadStream) (kind : String) (count : Option Int) :
    Except NodeError AgentReadStream :=
  if a.kind.flowControlled then
    (a.flow.grant kind count).map fun flow => { a with flow }
  else .ok a

/-- A thread runs the generator that closing the stream would close. -/
def Busy (a : AgentReadStream) : Prop :=
  a.kind = .workspaceFile ∧ a.closed = false ∧ a.generating = true

instance (a : AgentReadStream) : Decidable a.Busy := by
  unfold Busy
  infer_instance

/-- What closing a generator raises while a thread runs it. -/
def generatorBusy : NodeError := .value "generator already executing"

/-- `close`, run to its end, and what it raises. A Workspace Source stream that is closing
    already returns at once and leaves the rest to the call that closes it; where it raises, the
    stream stays in the registry. -/
def close (a : AgentReadStream) : AgentReadStream × Option NodeError :=
  if a.kind.flowControlled then
    if a.closed then (a, none)
    else
      let closing := { a with closed := true, flow := { a.flow with closed := true } }
      if a.Busy then (closing, some generatorBusy)
      else ({ closing with registered := false }, none)
  else ({ a with closed := true, registered := false }, none)

/-- The loop test of `start`: leave if closed, wait for a credit where there is flow
    control, else go on to the next chunk. -/
def advance (a : AgentReadStream) : Option AgentReadStream :=
  if a.closed then some { a with task := .final }
  else if a.kind.flowControlled then
    a.flow.claim.map fun (granted, flow) =>
      { a with flow, task := if granted then .reading else .final }
  else some { a with task := .reading }

/-- `close` from the `finally` of `start`, up to its first wait. -/
def closeTask (a : AgentReadStream) : AgentReadStream :=
  if a.kind.flowControlled then
    if a.closed then { a with task := .done }
    else { a with closed := true, flow := { a.flow with closed := true }, task := .closing }
  else { a with closed := true, registered := false, task := .done }

/-- The end of that `close`: the stream leaves the registry. -/
def popRegistry (a : AgentReadStream) : AgentReadStream :=
  { a with registered := false, task := .done }

end AgentReadStream

/-- The stream branch of `NodeAgent._dispatch`, for the stream found in the registry. -/
def NodeAgent.dispatch (found : Option AgentReadStream) (message : CoreMessage) :
    Except NodeError AgentReadStream :=
  match found with
  | none => .error (.protocol "Unknown Core stream" "stream_unknown")
  | some a =>
    match message with
    | .streamData none => .error (.protocol "Core stream data is invalid" "stream_invalid")
    | .streamData (some chunk) =>
      if chunk.length > MAX_NODE_STREAM_CHUNK_BYTES then
        .error (.protocol "Core stream chunk is too large" "stream_too_large")
      else .error a.feed
    | .streamControl kind count => a.control kind count
    -- what a close raises is answered, what an abort raises is not
    | .streamClose => .ok a.close.1
    | .streamAbort =>
      match a.close with
      | (_, some error) => .error error
      | (closed, none) => .ok closed

/-- What `_dispatch` sends itself: the `stream.error` of a close that raises. -/
def NodeAgent.answer (id : RequestId) (found : Option AgentReadStream) (message : CoreMessage) :
    List NodeMessage :=
  match found, message with
  | some a, .streamClose =>
    match a.close.2 with
    | some _ => [.streamError id "generator already executing" "operation_failed"]
    | none => []
  | _, _ => []

/-! ## 2. The Core's end -/

/-- `_WorkspaceSourceReceiveWindow`. -/
structure ReceiveWindow where
  frameCount : Nat
  received : Nat
  ungranted : Nat
  batchRemaining : Nat
  deriving DecidableEq

namespace ReceiveWindow

def new (frameCount : Nat) : ReceiveWindow := ⟨frameCount, 0, frameCount, 0⟩

/-- The credit `_grant_next_batch` sends. -/
def nextBatch (w : ReceiveWindow) : Nat := min NODE_REMOTE_RUN_SOURCE_STREAM_WINDOW w.ungranted

def granted (w : ReceiveWindow) : ReceiveWindow :=
  { w with ungranted := w.ungranted - w.nextBatch, batchRemaining := w.nextBatch }

/-- `receive`, once a chunk is there; it raises on a frame too many. -/
def receive (w : ReceiveWindow) : ReceiveWindow :=
  if w.batchRemaining = 0 ∨ w.received ≥ w.frameCount then w
  else { w with received := w.received + 1, batchRemaining := w.batchRemaining - 1 }

end ReceiveWindow

/-- Both ends of one stream. A message waiting for the sender's lock is in its channel
    already: the lock is first-in first-out, as the channel is. -/
structure Crossing where
  core : NodeStream
  coreRegistered : Bool
  window : ReceiveWindow
  toNode : List CoreMessage
  toCore : List NodeMessage
  node : AgentReadStream

namespace Crossing

/-- Right after the stream has been opened. -/
def opened (id : RequestId) (kind : ReadStreamKind) (frameCount : Nat) : Crossing :=
  ⟨.new id, true, .new frameCount, [], [], .opened kind⟩

/-- What `NodeRuntime.streams.get` finds. -/
def lookup (s : Crossing) : Option AgentReadStream :=
  if s.node.registered then some s.node else none

/-- The sends of `NodeStream`: nothing once the stream is closed. -/
def control (s : Crossing) (kind : String) (count : Option Int) : Crossing :=
  if s.core.closed then s else { s with toNode := s.toNode ++ [.streamControl kind count] }

/-- `NodeStream.close` and `NodeStream.abort`, which differ in the message they send. -/
def closeWith (s : Crossing) (message : CoreMessage) : Crossing :=
  if s.core.closed then s
  else { s with core := { s.core with closed := true }, toNode := s.toNode ++ [message],
                coreRegistered := false }

/-- `_grant_next_batch`. -/
def grantNextBatch (s : Crossing) : Crossing :=
  { s.control "credit" (some s.window.nextBatch) with window := s.window.granted }

/-- `NodeConnection.dispatch` of a stream message; a stream dropped before is in the
    tombstones, and the message is ignored. -/
def deliver (s : Crossing) (message : NodeMessage) : Crossing :=
  if s.coreRegistered then
    match message with
    | .streamData _ (some chunk) => { s with core := (s.core.feedData chunk).1 }
    | .streamClose _ result => { s with core := s.core.feedEnd result, coreRegistered := false }
    | .streamError _ error code =>
      { s with core := s.core.feedError (.ofStream error code), coreRegistered := false }
    | _ => s
  else s

/-- A chunk is counted by the window of a Workspace Source stream. -/
def account (s : Crossing) (got : Received) : Crossing :=
  match got with
  | .event (.data _) => { s with window := s.window.receive }
  | _ => s

end Crossing

/-! ## 3. Interleavings -/

/-- What can happen next: at the Core's consumer, the Core's reader, the Node's reader, or
    in the Node's task. -/
inductive CrossAct where
  | control (kind : String) (count : Option Int)
  | grant
  | close
  | abort
  | receive
  | deliver
  | dispatch
  | advance
  | generate
  | generated
  | sendData (chunk : Bytes)
  | sendClose
  | sendError (error code : String)
  | closeTask
  | popRegistry
  deriving DecidableEq

/-- One step. A `_dispatch` that raises is no step: it ends the connection. -/
inductive CrossStep (s : Crossing) : CrossAct → Crossing → Prop
  | control (kind : String) (count : Option Int) (free : s.node.kind.flowControlled = false) :
      CrossStep s (.control kind count) (s.control kind count)
  | grant (flow : s.node.kind.flowControlled = true) (batch : s.window.batchRemaining = 0)
      (more : 0 < s.window.ungranted) : CrossStep s .grant s.grantNextBatch
  | close : CrossStep s .close (s.closeWith .streamClose)
  | abort : CrossStep s .abort (s.closeWith .streamAbort)
  | receive {core : NodeStream} {got : Received}
      (some : s.core.receiveEvent = some (core, got)) :
      CrossStep s .receive ({ s with core }.account got)
  | deliver {message : NodeMessage} {rest : List NodeMessage}
      (head : s.toCore = message :: rest) :
      CrossStep s .deliver ({ s with toCore := rest }.deliver message)
  | dispatch {message : CoreMessage} {rest : List CoreMessage} {node : AgentReadStream}
      (head : s.toNode = message :: rest) (ok : NodeAgent.dispatch s.lookup message = .ok node) :
      CrossStep s .dispatch
        { s with toNode := rest, node,
                 toCore := s.toCore ++ NodeAgent.answer s.core.streamId s.lookup message }
  | advance {node : AgentReadStream} (task : s.node.task = .loop)
      (idle : s.node.generating = false) (next : s.node.advance = some node) :
      CrossStep s .advance { s with node }
  /-- The next chunk of a Workspace file, or a look past its last one. -/
  | generate (file : s.node.kind = .workspaceFile)
      (task : s.node.task = .loop ∨ s.node.task = .reading) (opened : s.node.closed = false) :
      CrossStep s .generate { s with node := { s.node with generating := true } }
  | generated : CrossStep s .generated { s with node := { s.node with generating := false } }
  | sendData (chunk : Bytes) (task : s.node.task = .reading)
      (idle : s.node.generating = false) :
      CrossStep s (.sendData chunk)
        { s with toCore := s.toCore ++ [.streamData s.core.streamId chunk],
                 node := { s.node with task := .loop } }
  | sendClose (task : s.node.task = .loop) (idle : s.node.generating = false) :
      CrossStep s .sendClose
        { s with toCore := s.toCore ++
                   if s.node.closed then [] else [.streamClose s.core.streamId (some [])],
                 node := { s.node with task := .final } }
  | sendError (error code : String) (task : s.node.task = .loop ∨ s.node.task = .reading)
      (idle : s.node.generating = false) :
      CrossStep s (.sendError error code)
        { s with toCore := s.toCore ++
                   if s.node.closed then [] else [.streamError s.core.streamId error code],
                 node := { s.node with task := .final } }
  | closeTask (task : s.node.task = .final) :
      CrossStep s .closeTask { s with node := s.node.closeTask }
  | popRegistry (task : s.node.task = .closing) :
      CrossStep s .popRegistry { s with node := s.node.popRegistry }

/-- The Node's `_dispatch` does not raise on the message it reads next. -/
def DispatchSafe (s : Crossing) : Prop :=
  ∀ message rest, s.toNode = message :: rest →
    ∃ node, NodeAgent.dispatch s.lookup message = .ok node

/-- An abort is the next message, and a thread runs the generator that it closes. -/
def Crossing.Interrupted (s : Crossing) : Prop :=
  s.node.Busy ∧ s.toNode.head? = some .streamAbort

/-- No crossing: the Node ends the stream by itself only while no message for it is in
    flight, the Core sends none after that, and no abort meets a running generator. -/
def NoCross (s : Crossing) (act : CrossAct) (t : Crossing) : Prop :=
  ¬t.Interrupted ∧
  match act with
  | .closeTask | .popRegistry =>
      s.node.registered = true → t.node.registered = false → s.toNode = []
  | .control _ _ | .grant | .close | .abort =>
      s.core.closed = false → s.node.registered = true
  | _ => True

/-! ## 4. The invariant

`Outgoing` is the shape of the channel to the Node, `CrossInv` the accounting of credits:
while the Core's stream is open, what the window still expects covers everything that is
under way, as a credit, in the task's hand, in the channel or in the queue. -/

def CoreMessage.isCloser : CoreMessage → Bool
  | .streamClose | .streamAbort => true
  | _ => false

/-- Messages for the Node: controls, then at most one close, which the Core sends last. -/
inductive Outgoing (flow : Bool) : Bool → List CoreMessage → Prop
  | nil {closed : Bool} : Outgoing flow closed []
  | closer {m : CoreMessage} (isCloser : m.isCloser = true) : Outgoing flow true [m]
  | control {closed : Bool} {kind : String} {count : Option Int} {ms : List CoreMessage}
      (valid : flow = true → ValidCredit kind count) (rest : Outgoing flow closed ms) :
      Outgoing flow closed (.streamControl kind count :: ms)

namespace Outgoing

variable {flow closed : Bool} {m : CoreMessage} {ms : List CoreMessage}

theorem toClosed (h : Outgoing flow closed ms) : Outgoing flow true ms := by
  induction h with
  | nil => exact .nil
  | closer isCloser => exact .closer isCloser
  | control valid _ ih => exact .control valid ih

theorem snocControl {kind : String} {count : Option Int}
    (valid : flow = true → ValidCredit kind count) (h : Outgoing flow false ms) :
    Outgoing flow false (ms ++ [.streamControl kind count]) := by
  generalize hc : false = closed at h
  induction h with
  | nil => exact .control valid .nil
  | closer => exact absurd hc (by simp)
  | control valid' _ ih => exact .control valid' (ih hc)

theorem snocCloser (isCloser : m.isCloser = true) (h : Outgoing flow false ms) :
    Outgoing flow true (ms ++ [m]) := by
  generalize hc : false = closed at h
  induction h with
  | nil => exact .closer isCloser
  | closer => exact absurd hc (by simp)
  | control valid _ ih => exact .control valid (ih hc)

theorem tail (h : Outgoing flow closed (m :: ms)) : Outgoing flow closed ms := by
  cases h with
  | closer => exact .nil
  | control _ rest => exact rest

/-- Nothing follows a close, and no data is ever sent on a read stream. -/
theorem head (h : Outgoing flow closed (m :: ms)) :
    (m.isCloser = true ∧ ms = []) ∨
      ∃ kind count, m = .streamControl kind count ∧ (flow = true → ValidCredit kind count) := by
  cases h with
  | closer isCloser => exact .inl ⟨isCloser, rfl⟩
  | control valid _ => exact .inr ⟨_, _, rfl, valid⟩

end Outgoing

/-- The credits a message carries. -/
def CoreMessage.credits : CoreMessage → Nat
  | .streamControl _ count => (count.getD 0).toNat
  | _ => 0

def creditsInFlight (ms : List CoreMessage) : Nat := (ms.map CoreMessage.credits).sum

def NodeMessage.isData : NodeMessage → Bool
  | .streamData _ _ => true
  | _ => false

/-- The chunk the task has a credit for and has not sent. -/
def ReadTask.inHand : ReadTask → Nat
  | .reading => 1
  | _ => 0

/-- Everything that will reach the window or has been promised to it. -/
def Crossing.underWay (s : Crossing) : Nat :=
  s.node.flow.credits + creditsInFlight s.toNode + s.node.task.inHand +
    s.toCore.countP NodeMessage.isData + s.core.queue.items.length

structure CrossInv (s : Crossing) : Prop where
  quiet : s.node.registered = false → s.toNode = []
  outgoing : Outgoing s.node.kind.flowControlled s.core.closed s.toNode
  single : s.node.kind.flowControlled = true → ∀ kind count rest,
    s.toNode = .streamControl kind count :: rest →
      s.node.flow.credits = 0 ∧ creditsInFlight rest = 0
  covered : s.node.kind.flowControlled = true → s.core.closed = false →
    s.underWay ≤ s.window.batchRemaining

theorem CrossInv.opened (id : RequestId) (kind : ReadStreamKind) (frameCount : Nat) :
    CrossInv (.opened id kind frameCount) where
  quiet _ := rfl
  outgoing := .nil
  single _ _ _ _ h := absurd h (by simp [Crossing.opened])
  covered _ _ := by
    simp [Crossing.underWay, Crossing.opened, AgentReadStream.opened, creditsInFlight,
      ReadTask.inHand, NodeStream.new]

theorem ValidCredit.pos {kind : String} {count : Option Int} (h : ValidCredit kind count) :
    0 < (count.getD 0).toNat := by
  obtain ⟨-, n, rfl, h1, -⟩ := h
  simp only [Option.getD_some]
  omega

/-- With no credit in flight, an open Core stream has nothing in flight. -/
theorem Outgoing.eq_nil {ms : List CoreMessage} (h : Outgoing true false ms)
    (hc : creditsInFlight ms = 0) : ms = [] := by
  cases h with
  | nil => rfl
  | control valid _ =>
    have := (valid rfl).pos
    simp [creditsInFlight, CoreMessage.credits] at hc
    omega

/-- `grant` accepts a valid credit when the last one is used up. -/
theorem FlowControl.grant_ok {f : FlowControl} {kind : String} {count : Option Int}
    (valid : ValidCredit kind count) (zero : f.credits = 0) :
    f.grant kind count =
      .ok (if f.closed then f else { f with credits := (count.getD 0).toNat }) := by
  obtain ⟨rfl, n, rfl, h1, h2⟩ := valid
  unfold grant
  rw [if_neg (by simp [h1, h2])]
  cases f.closed <;> simp [zero]

/-- An abort raises where a thread runs the generator, and there only. -/
theorem NodeAgent.dispatch_abort {a : AgentReadStream} :
    NodeAgent.dispatch (some a) .streamAbort =
      if a.Busy then .error AgentReadStream.generatorBusy else .ok a.close.1 := by
  have raises : a.close.2 = if a.Busy then some AgentReadStream.generatorBusy else none := by
    unfold AgentReadStream.close
    by_cases hbusy : a.Busy
    · obtain ⟨hkind, hopen, -⟩ := id hbusy
      simp [hkind, ReadStreamKind.flowControlled, hopen, hbusy]
    · rw [if_neg hbusy]
      split
      · split <;> simp
      · rfl
  cases hclose : a.close with
  | mk closed raised =>
    rw [hclose] at raises
    have raises : raised = _ := raises
    by_cases hbusy : a.Busy
    · rw [if_pos hbusy] at raises ⊢
      simp only [dispatch, hclose, raises]
    · rw [if_neg hbusy] at raises ⊢
      simp only [dispatch, hclose, raises]

/-- **The invariant makes the Node's next `_dispatch` safe**, where no abort meets a running
    generator. -/
theorem CrossInv.dispatchSafe {s : Crossing} (h : CrossInv s) (calm : ¬s.Interrupted) :
    DispatchSafe s := by
  intro message rest hhead
  have hreg : s.node.registered = true := by
    by_contra hr
    exact absurd (h.quiet (by simpa using hr)) (by simp [hhead])
  have hlook : s.lookup = some s.node := by simp [Crossing.lookup, hreg]
  have hout := h.outgoing
  rw [hhead] at hout
  rw [hlook]
  rcases hout.head with ⟨hcl, -⟩ | ⟨kind, count, rfl, valid⟩
  · cases message with
    | streamData | streamControl => exact absurd hcl (by simp [CoreMessage.isCloser])
    | streamClose => exact ⟨_, rfl⟩
    | streamAbort =>
      have hidle : ¬s.node.Busy := fun hbusy => calm ⟨hbusy, by rw [hhead]; rfl⟩
      exact ⟨_, NodeAgent.dispatch_abort.trans (if_neg hidle)⟩
  · unfold NodeAgent.dispatch AgentReadStream.control
    cases hf : s.node.kind.flowControlled with
    | false => simp [hf]
    | true =>
      have hone := h.single hf kind count rest hhead
      simp [hf, FlowControl.grant_ok (valid hf) hone.1, Except.map]

/-! ## 5. Each step keeps it -/

theorem Crossing.control_closed {s : Crossing} {kind : String} {count : Option Int}
    (h : s.core.closed = true) : s.control kind count = s := if_pos h

theorem Crossing.control_open {s : Crossing} {kind : String} {count : Option Int}
    (h : s.core.closed = false) :
    s.control kind count = { s with toNode := s.toNode ++ [.streamControl kind count] } :=
  if_neg (by simp [h])

@[simp] theorem creditsInFlight_append (ms : List CoreMessage) (m : CoreMessage) :
    creditsInFlight (ms ++ [m]) = creditsInFlight ms + m.credits := by
  simp [creditsInFlight]

theorem CoreMessage.credits_of_isCloser {m : CoreMessage} (h : m.isCloser = true) :
    m.credits = 0 := by
  cases m <;> simp_all [isCloser, credits]

/-- A close goes to the end of the channel, where it carries no credit. -/
theorem CrossInv.closeWith {s : Crossing} {m : CoreMessage} (h : CrossInv s)
    (isCloser : m.isCloser = true) (hreg : s.core.closed = false → s.node.registered = true) :
    CrossInv (s.closeWith m) := by
  unfold Crossing.closeWith
  cases hc : s.core.closed with
  | true => simpa using h
  | false =>
    have hout := h.outgoing
    rw [hc] at hout
    refine ⟨fun hr => ?_, hout.snocCloser isCloser, fun hf kind count rest heq => ?_, ?_⟩
    · exact absurd (hr.symm.trans (hreg hc)) (by simp)
    · change s.toNode ++ [m] = _ at heq
      cases hms : s.toNode with
      | nil =>
        rw [hms] at heq
        obtain ⟨rfl, -⟩ := List.cons.inj heq
        exact absurd isCloser (by simp [CoreMessage.isCloser])
      | cons m' ms =>
        rw [hms, List.cons_append] at heq
        obtain ⟨rfl, rfl⟩ := List.cons.inj heq
        obtain ⟨hzero, hrest⟩ := h.single hf kind count ms hms
        simp [hzero, hrest, CoreMessage.credits_of_isCloser isCloser]
    · exact fun _ hopen => absurd hopen (by simp)

/-- A control without flow control can carry anything. -/
theorem CrossInv.control {s : Crossing} {kind : String} {count : Option Int} (h : CrossInv s)
    (free : s.node.kind.flowControlled = false)
    (hreg : s.core.closed = false → s.node.registered = true) :
    CrossInv (s.control kind count) := by
  cases hc : s.core.closed with
  | true => rw [Crossing.control_closed hc]; exact h
  | false =>
    have hout := h.outgoing
    rw [hc] at hout
    rw [Crossing.control_open hc]
    refine ⟨fun hr => ?_, ?_, fun hf => ?_, fun hf => ?_⟩
    · exact absurd (hr.symm.trans (hreg hc)) (by simp)
    · simpa [hc] using hout.snocControl (by simp [free])
    · exact absurd (hf.symm.trans free) (by simp)
    · exact absurd (hf.symm.trans free) (by simp)

/-- **A grant is sent only when nothing is under way.** The window has counted every chunk of
    the last batch, so the Node has no credit left when the new one arrives. -/
theorem CrossInv.grant {s : Crossing} (h : CrossInv s)
    (hf : s.node.kind.flowControlled = true) (batch : s.window.batchRemaining = 0)
    (more : 0 < s.window.ungranted)
    (hreg : s.core.closed = false → s.node.registered = true) : CrossInv s.grantNextBatch := by
  unfold Crossing.grantNextBatch
  cases hc : s.core.closed with
  | true =>
    rw [Crossing.control_closed hc]
    refine ⟨h.quiet, by simpa [hc] using h.outgoing, h.single, fun _ hopen => ?_⟩
    exact absurd (hopen.symm.trans hc) (by simp)
  | false =>
    have hzero := h.covered hf hc
    rw [batch] at hzero
    simp only [Crossing.underWay] at hzero
    have hout := h.outgoing
    rw [hc, hf] at hout
    have hnil := hout.eq_nil (by omega)
    rw [Crossing.control_open hc]
    have hbatch : 1 ≤ s.window.nextBatch ∧
        s.window.nextBatch ≤ NODE_REMOTE_RUN_SOURCE_STREAM_WINDOW := by
      unfold ReceiveWindow.nextBatch
      exact ⟨by simp only [NODE_REMOTE_RUN_SOURCE_STREAM_WINDOW]; omega, min_le_left _ _⟩
    have valid : ValidCredit "credit" (some (s.window.nextBatch : Int)) :=
      ⟨rfl, _, rfl, by omega, by omega⟩
    refine ⟨fun hr => ?_, ?_, fun _ kind count rest heq => ?_, fun _ _ => ?_⟩
    · exact absurd (hr.symm.trans (hreg hc)) (by simp)
    · simpa [hnil, hc] using Outgoing.control (fun _ => valid) .nil
    · change s.toNode ++ [_] = _ at heq
      rw [hnil] at heq
      obtain ⟨-, rfl⟩ := List.cons.inj heq
      have hcredits : s.node.flow.credits = 0 := by omega
      exact ⟨hcredits, rfl⟩
    · simp only [Crossing.underWay, creditsInFlight_append, CoreMessage.credits,
        ReceiveWindow.granted, Option.getD_some, Int.toNat_natCast]
      omega

/-- What the consumer takes out of the queue, the window counts. -/
theorem CrossInv.receive {s : Crossing} {core : NodeStream} {got : Received} (h : CrossInv s)
    (hrec : s.core.receiveEvent = some (core, got)) : CrossInv ({ s with core }.account got) := by
  obtain ⟨item, hq, hc, -⟩ := NodeStream.receiveEvent_eq_some hrec
  have hwindow : s.window.batchRemaining ≤ s.window.receive.batchRemaining + 1 := by
    unfold ReceiveWindow.receive
    split
    · omega
    · simp only; omega
  have hlen : s.core.queue.items.length = core.queue.items.length + 1 := by simp [hq]
  have hcovered (w : ReceiveWindow) (hw : s.window.batchRemaining ≤ w.batchRemaining + 1) :
      CrossInv { s with core, window := w } := by
    refine ⟨h.quiet, by simpa [hc] using h.outgoing, h.single, fun hf hopen => ?_⟩
    have := h.covered hf (hc.symm.trans hopen)
    simp only [Crossing.underWay] at this ⊢
    omega
  unfold Crossing.account
  cases got with
  | event e =>
    cases e with
    | data => exact hcovered _ hwindow
    | control => exact hcovered _ (by omega)
  | streamEnd | raised => exact hcovered _ (by omega)

/-- A closed Core stream no longer expects anything. -/
theorem CrossInv.coreClosed {s : Crossing} {core : NodeStream} {registered : Bool}
    {toCore : List NodeMessage} (h : CrossInv s) (hc : core.closed = true) :
    CrossInv { s with core, coreRegistered := registered, toCore } :=
  ⟨h.quiet, by simpa [hc] using h.outgoing.toClosed, h.single,
    fun _ hopen => absurd (hopen.symm.trans hc) (by simp)⟩

theorem CrossInv.deliver {s : Crossing} {message : NodeMessage} {rest : List NodeMessage}
    (h : CrossInv s) (head : s.toCore = message :: rest) :
    CrossInv ({ s with toCore := rest }.deliver message) := by
  have hrest : s.toCore.countP NodeMessage.isData =
      rest.countP NodeMessage.isData + if message.isData = true then 1 else 0 := by
    rw [head, List.countP_cons]
  -- the message is dropped: less is under way
  have hdrop : CrossInv { s with toCore := rest } := by
    refine ⟨h.quiet, h.outgoing, h.single, fun hf hopen => ?_⟩
    have := h.covered hf hopen
    simp only [Crossing.underWay] at this ⊢
    omega
  unfold Crossing.deliver
  split
  · match message with
    | .streamData _ (some chunk) =>
      cases hc : (s.core.feedData chunk).1.closed with
      | true => exact h.coreClosed hc
      | false =>
        obtain ⟨hopen, hq⟩ := NodeStream.feedEvent_open hc
        refine ⟨h.quiet, by simpa [hopen, hc] using h.outgoing, h.single, fun hf _ => ?_⟩
        have := h.covered hf hopen
        have hlen : (s.core.feedData chunk).1.queue.items.length =
            s.core.queue.items.length + 1 := by
          rw [NodeStream.feedData, hq]; simp
        simp only [Crossing.underWay, NodeMessage.isData, if_true] at this hrest ⊢
        omega
    | .streamClose _ _ => exact h.coreClosed NodeStream.feedEnd_closed
    | .streamError _ _ _ => exact h.coreClosed NodeStream.feedError_closed
    | .streamData _ none | .response .. | .streamControl .. | .other => exact hdrop
  · exact hdrop

/-- The Node's own steps: what the task holds grows no bigger than what it took. -/
theorem CrossInv.nodeStep {s : Crossing} {node : AgentReadStream} {sent : List NodeMessage}
    (h : CrossInv s) (kind : node.kind = s.node.kind)
    (credits : node.flow.credits ≤ s.node.flow.credits)
    (held : s.node.kind.flowControlled = true →
      node.flow.credits + node.task.inHand + sent.countP NodeMessage.isData ≤
        s.node.flow.credits + s.node.task.inHand)
    (quiet : node.registered = false → s.toNode = []) :
    CrossInv { s with node, toCore := s.toCore ++ sent } := by
  refine ⟨quiet, by simpa [kind] using h.outgoing, fun hf k c rest heq => ?_, fun hf ho => ?_⟩
  · obtain ⟨hzero, hrest⟩ := h.single (kind ▸ hf) k c rest heq
    have hcredits : node.flow.credits = 0 := by omega
    exact ⟨hcredits, hrest⟩
  · have hle := h.covered (kind ▸ hf) ho
    have hheld := held (kind ▸ hf)
    simp only [Crossing.underWay, List.countP_append] at hle ⊢
    omega

/-- The first wait of `close` at the earliest, the registry loses the stream. -/
theorem AgentReadStream.close_spec (a : AgentReadStream) :
    a.close.1.kind = a.kind ∧ a.close.1.flow.credits = a.flow.credits ∧
      a.close.1.task = a.task ∧ a.close.1.generating = a.generating := by
  unfold close
  split
  · split
    · exact ⟨rfl, rfl, rfl, rfl⟩
    · dsimp only
      split
      · exact ⟨rfl, rfl, rfl, rfl⟩
      · exact ⟨rfl, rfl, rfl, rfl⟩
  · exact ⟨rfl, rfl, rfl, rfl⟩

/-- Where a close or an abort is answered without an exception, the stream has been closed. -/
theorem NodeAgent.dispatch_closer {a node : AgentReadStream} {m : CoreMessage}
    (isCloser : m.isCloser = true) (ok : NodeAgent.dispatch (some a) m = .ok node) :
    node = a.close.1 := by
  cases m with
  | streamData | streamControl => exact absurd isCloser (by simp [CoreMessage.isCloser])
  | streamClose => exact (Except.ok.inj ok).symm
  | streamAbort =>
    rw [NodeAgent.dispatch_abort] at ok
    split at ok
    · exact absurd ok (by simp)
    · exact (Except.ok.inj ok).symm

/-- Nothing is answered where no thread runs a generator. -/
theorem NodeAgent.answer_idle {id : RequestId} {s : Crossing} {m : CoreMessage}
    (idle : s.node.generating = false) : NodeAgent.answer id s.lookup m = [] := by
  have quiet : s.node.close.2 = none := by
    unfold AgentReadStream.close
    split
    · split
      · rfl
      · rw [if_neg (fun hbusy => absurd (hbusy.2.2.symm.trans idle) (by simp))]
    · rfl
  unfold NodeAgent.answer Crossing.lookup
  split
  · rename_i a hfound
    split at hfound
    · rw [← Option.some.inj hfound, quiet]
    · exact absurd hfound (by simp)
  · rfl

/-- What the Node answers is no data. -/
theorem NodeAgent.answer_noData {id : RequestId} {found : Option AgentReadStream}
    {m : CoreMessage} : (NodeAgent.answer id found m).countP NodeMessage.isData = 0 := by
  unfold NodeAgent.answer
  split
  · split <;> rfl
  · rfl

theorem AgentReadStream.closeTask_spec (a : AgentReadStream) :
    a.closeTask.kind = a.kind ∧ a.closeTask.flow.credits = a.flow.credits ∧
      a.closeTask.task.inHand = 0 ∧ a.closeTask.generating = a.generating := by
  unfold closeTask
  split
  · split
    · exact ⟨rfl, rfl, rfl, rfl⟩
    · exact ⟨rfl, rfl, rfl, rfl⟩
  · exact ⟨rfl, rfl, rfl, rfl⟩

/-- Past the loop test the task holds at most the credit it claimed. -/
theorem AgentReadStream.advance_spec {a b : AgentReadStream} (h : a.advance = some b) :
    b.kind = a.kind ∧ b.registered = a.registered ∧ b.flow.credits ≤ a.flow.credits ∧
      (a.kind.flowControlled = true →
        b.flow.credits + b.task.inHand ≤ a.flow.credits) ∧ b.generating = a.generating := by
  unfold advance at h
  split at h
  · obtain rfl := Option.some.inj h
    exact ⟨rfl, rfl, le_rfl, fun _ => le_rfl, rfl⟩
  · split at h
    · obtain ⟨⟨granted, flow⟩, hclaim, rfl⟩ := Option.map_eq_some_iff.mp h
      unfold FlowControl.claim at hclaim
      split at hclaim
      · obtain ⟨rfl, rfl⟩ := Prod.mk.inj (Option.some.inj hclaim)
        exact ⟨rfl, rfl, le_rfl, fun _ => le_rfl, rfl⟩
      · split at hclaim
        · obtain ⟨rfl, rfl⟩ := Prod.mk.inj (Option.some.inj hclaim)
          refine ⟨rfl, rfl, Nat.sub_le _ _, fun _ => ?_, rfl⟩
          simp only [ReadTask.inHand, if_true]
          omega
        · exact absurd hclaim (by simp)
    · rename_i hfree
      obtain rfl := Option.some.inj h
      exact ⟨rfl, rfl, le_rfl, fun hf => absurd hf hfree, rfl⟩

/-- The Node takes a message: a control hands over its credit, a close ends the channel. -/
theorem CrossInv.dispatch {s : Crossing} {message : CoreMessage} {rest : List CoreMessage}
    {node : AgentReadStream} (h : CrossInv s) (head : s.toNode = message :: rest)
    (ok : NodeAgent.dispatch s.lookup message = .ok node) :
    CrossInv { s with toNode := rest, node,
                      toCore := s.toCore ++ NodeAgent.answer s.core.streamId s.lookup message } := by
  have sent := @NodeAgent.answer_noData s.core.streamId s.lookup message
  have hreg : s.node.registered = true := by
    by_contra hr
    exact absurd (h.quiet (by simpa using hr)) (by simp [head])
  have hlook : s.lookup = some s.node := by simp [Crossing.lookup, hreg]
  have hout := h.outgoing
  rw [head] at hout
  have hflight : creditsInFlight s.toNode = message.credits + creditsInFlight rest := by
    simp [head, creditsInFlight]
  rcases hout.head with ⟨hcl, rfl⟩ | ⟨kind, count, rfl, valid⟩
  · obtain rfl : node = s.node.close.1 := by
      rw [hlook] at ok
      exact NodeAgent.dispatch_closer hcl ok
    obtain ⟨hkind, hcredits, htask, -⟩ := s.node.close_spec
    refine ⟨fun _ => rfl, .nil, fun _ _ _ _ heq => absurd heq (by simp), fun hf ho => ?_⟩
    have := h.covered (hkind ▸ hf) ho
    simp only [Crossing.underWay, hcredits, htask, List.countP_append, sent] at this ⊢
    omega
  · have hcontrol : s.node.control kind count = .ok node := by
      rw [hlook] at ok
      exact ok
    unfold AgentReadStream.control at hcontrol
    split at hcontrol
    · rename_i hf
      obtain ⟨hzero, hrest⟩ := h.single hf kind count rest head
      rw [FlowControl.grant_ok (valid hf) hzero] at hcontrol
      obtain rfl := Except.ok.inj hcontrol
      refine ⟨fun hr => absurd (hr.symm.trans hreg) (by simp), hout.tail, ?_, fun _ ho => ?_⟩
      · -- the only credit has just been taken
        rintro - k c more rfl
        have hout' := hout.tail
        rcases hout'.head with ⟨hcl, -⟩ | ⟨k', c', heq, valid'⟩
        · exact absurd hcl (by simp [CoreMessage.isCloser])
        · obtain ⟨rfl, rfl⟩ := CoreMessage.streamControl.inj heq
          have := (valid' hf).pos
          simp only [creditsInFlight, List.map_cons, List.sum_cons, CoreMessage.credits] at hrest
          omega
      · have hle := h.covered hf ho
        have hcount : (CoreMessage.streamControl kind count).credits = (count.getD 0).toNat := rfl
        simp only [Crossing.underWay, hflight, hcount, List.countP_append, sent] at hle ⊢
        split
        · omega
        · simp only; omega
    · rename_i hfree
      obtain rfl := Except.ok.inj hcontrol
      refine ⟨fun hr => absurd (hr.symm.trans hreg) (by simp), hout.tail, ?_, ?_⟩
      · exact fun hf => absurd hf hfree
      · exact fun hf => absurd hf hfree

/-- **One step keeps the invariant, unless it is a crossing.** -/
theorem CrossInv.step {s t : Crossing} {act : CrossAct} (h : CrossInv s)
    (step : CrossStep s act t) (cross : NoCross s act t) : CrossInv t := by
  obtain ⟨-, hno⟩ := cross
  -- a step of the task alone, which sends nothing
  have alone {node : AgentReadStream} (kind : node.kind = s.node.kind)
      (credits : node.flow.credits ≤ s.node.flow.credits)
      (held : s.node.kind.flowControlled = true →
        node.flow.credits + node.task.inHand ≤ s.node.flow.credits + s.node.task.inHand)
      (quiet : node.registered = false → s.toNode = []) : CrossInv { s with node } := by
    simpa using @CrossInv.nodeStep s node [] h kind credits (by simpa using held) quiet
  -- the Node leaves the registry by itself
  have leaves {node : AgentReadStream}
      (hno : s.node.registered = true → node.registered = false → s.toNode = [])
      (hr : node.registered = false) : s.toNode = [] := by
    cases hs : s.node.registered with
    | true => exact hno hs hr
    | false => exact h.quiet hs
  cases step with
  | control kind count free => exact h.control free hno
  | grant flow batch more => exact h.grant flow batch more hno
  | close => exact h.closeWith rfl hno
  | abort => exact h.closeWith rfl hno
  | receive got => exact h.receive got
  | deliver head => exact h.deliver head
  | dispatch head ok => exact h.dispatch head ok
  | advance task idle next =>
    obtain ⟨hkind, hreg, hcredits, hheld, -⟩ := AgentReadStream.advance_spec next
    refine alone hkind hcredits (fun hf => ?_) fun hr => h.quiet (hreg.symm.trans hr)
    have := hheld hf
    omega
  | generate file task opened => exact alone rfl le_rfl (fun _ => le_rfl) h.quiet
  | generated => exact alone rfl le_rfl (fun _ => le_rfl) h.quiet
  | sendData chunk task idle =>
    refine h.nodeStep rfl le_rfl (fun _ => ?_) h.quiet
    simp [task, ReadTask.inHand, NodeMessage.isData]
  | sendClose task idle =>
    refine h.nodeStep rfl le_rfl (fun _ => ?_) h.quiet
    split <;> simp [ReadTask.inHand, NodeMessage.isData]
  | sendError error code task idle =>
    refine h.nodeStep rfl le_rfl (fun _ => ?_) h.quiet
    split <;> simp [ReadTask.inHand, NodeMessage.isData]
  | closeTask task =>
    obtain ⟨hkind, hcredits, hhand, -⟩ := s.node.closeTask_spec
    exact alone hkind hcredits.le (fun _ => by omega) (leaves hno)
  | popRegistry task =>
    exact alone rfl le_rfl (fun _ => by simp [AgentReadStream.popRegistry, ReadTask.inHand])
      (leaves hno)

/-- An abort that meets a running generator is not safe. -/
theorem DispatchSafe.calm {s : Crossing} (safe : DispatchSafe s) : ¬s.Interrupted := by
  intro ⟨hbusy, hhead⟩
  obtain ⟨rest, hrest⟩ := List.head?_eq_some_iff.mp hhead
  obtain ⟨node, hok⟩ := safe _ _ hrest
  unfold Crossing.lookup at hok
  split at hok
  · rw [NodeAgent.dispatch_abort, if_pos hbusy] at hok
    exact absurd hok (by simp)
  · exact absurd hok (by simp [NodeAgent.dispatch])

/-- **A crossing is fatal at once.** If the state a step leads to is safe, the step was no
    crossing: otherwise a message is in flight to a stream the Node no longer has. -/
theorem CrossStep.noCross {s t : Crossing} {act : CrossAct} (step : CrossStep s act t)
    (safe : DispatchSafe t) : NoCross s act t := by
  have hlost (hr : t.node.registered = false) : t.toNode = [] := by
    cases ht : t.toNode with
    | nil => rfl
    | cons message rest =>
      obtain ⟨node, hok⟩ := safe message rest ht
      rw [Crossing.lookup, if_neg (by simp [hr])] at hok
      exact absurd hok (by simp [NodeAgent.dispatch])
  refine ⟨safe.calm, ?_⟩
  cases step with
  | control kind count free =>
    intro hopen
    by_contra hr
    rw [Crossing.control_open hopen] at hlost
    exact absurd (hlost (by simpa using hr)) (by simp)
  | grant flow batch more =>
    intro hopen
    by_contra hr
    rw [Crossing.grantNextBatch, Crossing.control_open hopen] at hlost
    exact absurd (hlost (by simpa using hr)) (by simp)
  | close | abort =>
    intro hopen
    by_contra hr
    rw [Crossing.closeWith, if_neg (by simp [hopen])] at hlost
    exact absurd (hlost (by simpa using hr)) (by simp)
  | closeTask task => exact fun _ hr => hlost hr
  | popRegistry task => exact fun _ hr => hlost hr
  | receive | deliver | dispatch | advance | generate | generated | sendData | sendClose
  | sendError => trivial

/-! ## 6. Crossing closes -/

/-- **The Node's `_dispatch` never raises exactly when nothing crosses.** Along a run from a
    freshly opened read stream, every state is safe iff at every step the Node drops the
    stream only with no Core message in flight, the Core sends only while the Node still has
    it, and no abort comes in while a thread runs the generator of a Workspace file. -/
theorem dispatch_safe_iff_noCross {id : RequestId} {kind : ReadStreamKind} {frameCount : Nat}
    {acts : List CrossAct} {s : Crossing} :
    Run (Guard CrossStep fun _ _ t => DispatchSafe t) (.opened id kind frameCount) acts s ↔
      Run (Guard CrossStep NoCross) (.opened id kind frameCount) acts s := by
  constructor
  · intro safe
    exact safe.mono fun _ _ _ g => ⟨g.1, g.1.noCross g.2⟩
  · intro quiet
    have keep {acts : List CrossAct} {t : Crossing}
        (h : Run (Guard CrossStep NoCross) (.opened id kind frameCount) acts t) :
        CrossInv t :=
      h.invariant (fun _ _ _ g hs => hs.step g.1 g.2) (.opened id kind frameCount)
    induction quiet with
    | refl => exact .refl
    | snoc before last ih =>
      exact ih.snoc ⟨last.1, (keep (before.snoc last)).dispatchSafe last.2.1⟩

/-- **A download's end crosses an abort.** The Node has sent `stream.close` and dropped the
    stream; the Core, which has not read that yet, aborts. The Node's `_dispatch` raises. -/
theorem abort_crosses_download_end : ∃ s,
    Run CrossStep (.opened 0 .download 0) [.sendClose, .closeTask, .abort] s ∧
    s.toCore = [.streamClose (some 0) (some [])] ∧ s.toNode = [.streamAbort] ∧
    NodeAgent.dispatch s.lookup .streamAbort =
      .error (.protocol "Unknown Core stream" "stream_unknown") := by
  refine ⟨_, .cons (.sendClose rfl rfl) (.cons (.closeTask rfl) (.single .abort)), ?_⟩
  exact ⟨rfl, rfl, rfl⟩

-- an abort that comes in while a thread reads the first chunk of a Workspace file
example : ∃ s, Run CrossStep (.opened 0 .workspaceFile 1)
    [.grant, .dispatch, .advance, .generate, .abort] s ∧ s.Interrupted := by
  refine ⟨_, .cons (.grant rfl rfl (by decide)) (.cons (.dispatch rfl rfl)
    (.cons (.advance rfl rfl rfl) (.cons (.generate rfl (.inr rfl) rfl) (.single .abort)))), ?_⟩
  exact ⟨⟨rfl, rfl, rfl⟩, rfl⟩

end Termroom.Node
