import Termroom.Node.Agent

/-!
# The credit window of a Workspace Source stream

A Workspace Source stream is one half of `Node/Agent.lean` run by two programs: the Node's
`start`, which takes its frames out of an iterator, one credit each, and then sends the end;
and the Core's `_WorkspaceSourceReceiveWindow`, which grants a window of credits, reads as
many frames and grants the next. `SourceStream` adds to the two ends what these programs
hold: the frames not yet sent, and what `receive` has returned so far.

`source_stream_flows` is the whole of it. The counting invariant is that the batch the Core
still waits for is *exactly* what is on its way: in the queue, in the channel, in the task's
hand, in the Node's credits, or in a credit that is still in flight. So a credit is sent only
when all of these are zero, and a state with nothing on its way has a credit due.
-/

set_option autoImplicit false

namespace Termroom.Node

open Conc Data

/-! ## 1. The two programs -/

/-- What `receive` can raise: `NodeRemoteRunError`, or what the stream was closed with. -/
inductive SourceReadError where
  | remoteRun (message code : String)
  | stream (error : NodeError)
  deriving DecidableEq

/-- What one `receive` of the window comes to, from what it takes out of the queue.
    `NodeStream.receive` skips a control and waits on. -/
def ReceiveWindow.answer (w : ReceiveWindow) :
    Received → Option (Except SourceReadError (Option Bytes))
  | .event (.control _) => none
  | .event (.data chunk) =>
    if w.batchRemaining = 0 ∨ w.received ≥ w.frameCount then
      some (.error (.remoteRun "Node Remote Run Source stream exceeded its declared frames"
        "source_stream_invalid"))
    else some (.ok (some chunk))
  | .streamEnd =>
    if w.received ≠ w.frameCount then
      some (.error (.remoteRun "Node Remote Run Source stream ended at the wrong frame"
        "source_stream_invalid"))
    else some (.ok none)
  | .raised error => some (.error (.stream error))

/-- `_grant_next_batch` has a credit to send. Both callers, `__init__` and `receive`, make it
    before the reader does anything else. -/
def ReceiveWindow.GrantDue (w : ReceiveWindow) : Prop := w.batchRemaining = 0 ∧ 0 < w.ungranted

instance (w : ReceiveWindow) : Decidable w.GrantDue := by
  unfold ReceiveWindow.GrantDue
  infer_instance

/-- A stream under way: `unsent` is what the iterator of `start` still yields, `heard` what
    the calls of `receive` came to. -/
structure SourceStream where
  link : Crossing
  unsent : List Bytes
  heard : List (Except SourceReadError (Option Bytes))

/-- Right after the open: `frame_count` is the number of frames there are. -/
def SourceStream.opened (id : RequestId) (kind : ReadStreamKind) (frames : List Bytes) :
    SourceStream := ⟨.opened id kind frames.length, frames, []⟩

/-- One step of either program, or of the connection between them: a step of `Crossing` that
    the programs take. The loop of `start` runs as long as frames are left. -/
inductive SourceStep (s : SourceStream) : CrossAct → SourceStream → Prop
  | grant {link : Crossing} (step : CrossStep s.link .grant link) :
      SourceStep s .grant { s with link }
  | receive {core : NodeStream} {got : Received} (paid : ¬ s.link.window.GrantDue)
      (some : s.link.core.receiveEvent = some (core, got)) :
      SourceStep s .receive
        { s with link := { s.link with core }.account got,
                 heard := s.heard ++ (s.link.window.answer got).toList }
  | deliver {link : Crossing} (step : CrossStep s.link .deliver link) :
      SourceStep s .deliver { s with link }
  | dispatch {link : Crossing} (step : CrossStep s.link .dispatch link) :
      SourceStep s .dispatch { s with link }
  | advance {link : Crossing} (more : s.unsent ≠ []) (step : CrossStep s.link .advance link) :
      SourceStep s .advance { s with link }
  | sendData {chunk : Bytes} {rest : List Bytes} {link : Crossing}
      (next : s.unsent = chunk :: rest) (step : CrossStep s.link (.sendData chunk) link) :
      SourceStep s (.sendData chunk) { s with link, unsent := rest }
  | sendClose {link : Crossing} (last : s.unsent = [])
      (step : CrossStep s.link .sendClose link) : SourceStep s .sendClose { s with link }
  | closeTask {link : Crossing} (step : CrossStep s.link .closeTask link) :
      SourceStep s .closeTask { s with link }
  | popRegistry {link : Crossing} (step : CrossStep s.link .popRegistry link) :
      SourceStep s .popRegistry { s with link }

/-- A frame that waits in the queue. -/
def StreamItem.isData : StreamItem → Bool
  | .event (.data _) => true
  | _ => false

/-- What the Core is to hear: every frame in order, then the end. -/
def answers (frames : List Bytes) : List (Except SourceReadError (Option Bytes)) :=
  frames.map (fun chunk => .ok (some chunk)) ++ [.ok none]

/-! ## 2. Nothing goes on for ever -/

/-- How much of its loop a task has left. -/
def ReadTask.left : ReadTask → Nat
  | .loop => 5
  | .reading => 4
  | .final => 2
  | .closing => 1
  | .done => 0

/-- The steps a stream can still take, at most. -/
def SourceStream.fuel (s : SourceStream) : Nat :=
  4 * s.unsent.length + s.link.node.task.left + 2 * s.link.toCore.length +
    s.link.core.queue.items.length + 2 * s.link.window.ungranted + s.link.toNode.length

/-- A feed makes the queue at most one longer. -/
theorem NodeStream.feed_length_le (s : NodeStream) :
    (∀ chunk, (s.feedData chunk).1.queue.items.length ≤ s.queue.items.length + 1) ∧
      (∀ result, (s.feedEnd result).queue.items.length ≤ s.queue.items.length + 1) ∧
      ∀ error, (s.feedError error).queue.items.length ≤ s.queue.items.length + 1 := by
  have tail (t : NodeStream) (item : StreamItem) (ht : t.queue = s.queue) :
      (t.replaceQueueTail item).queue.items.length ≤ s.queue.items.length + 1 := by
    simp only [NodeStream.replaceQueueTail_items, NodeStream.roomMade, ht, List.length_append,
      List.length_singleton]
    split <;> simp
  have error (e : NodeError) : (s.feedError e).queue.items.length ≤ s.queue.items.length + 1 := by
    unfold NodeStream.feedError
    split
    · omega
    · exact tail _ _ rfl
  refine ⟨fun chunk => ?_, fun result => ?_, error⟩
  · unfold NodeStream.feedData NodeStream.feedEvent
    split
    · simp
    · split
      · rename_i queue hput
        simp [(BoundedQueue.putNowait_eq_some.mp hput).2]
      · exact error _
  · unfold NodeStream.feedEnd
    split
    · omega
    · exact tail _ _ rfl

/-- A message that arrives touches the Core's end only. -/
theorem Crossing.deliver_spec (s : Crossing) (message : NodeMessage) :
    (s.deliver message).node = s.node ∧ (s.deliver message).toCore = s.toCore ∧
      (s.deliver message).toNode = s.toNode ∧ (s.deliver message).window = s.window ∧
      (s.deliver message).core.queue.items.length ≤ s.core.queue.items.length + 1 := by
  obtain ⟨hdata, hend, herror⟩ := s.core.feed_length_le
  unfold deliver
  split
  · split
    · exact ⟨rfl, rfl, rfl, rfl, hdata _⟩
    · exact ⟨rfl, rfl, rfl, rfl, hend _⟩
    · exact ⟨rfl, rfl, rfl, rfl, herror _⟩
    · exact ⟨rfl, rfl, rfl, rfl, Nat.le_succ _⟩
  · exact ⟨rfl, rfl, rfl, rfl, Nat.le_succ _⟩

theorem ReceiveWindow.receive_ungranted (w : ReceiveWindow) :
    w.receive.ungranted = w.ungranted := by
  unfold receive
  split <;> rfl

/-- Counting a frame touches the window only. -/
theorem Crossing.account_spec (s : Crossing) (got : Received) :
    (s.account got).core = s.core ∧ (s.account got).node = s.node ∧
      (s.account got).toCore = s.toCore ∧ (s.account got).toNode = s.toNode ∧
      (s.account got).window.ungranted = s.window.ungranted := by
  unfold account
  split
  · exact ⟨rfl, rfl, rfl, rfl, s.window.receive_ungranted⟩
  · exact ⟨rfl, rfl, rfl, rfl, rfl⟩

/-- What the Core sends does not move the Node's task, nor the thread that runs a generator. -/
theorem NodeAgent.dispatch_task {found : Option AgentReadStream} {message : CoreMessage}
    {node : AgentReadStream} (ok : NodeAgent.dispatch found message = .ok node) :
    ∃ a, found = some a ∧ node.task = a.task ∧ node.generating = a.generating := by
  cases found with
  | none => simp [NodeAgent.dispatch] at ok
  | some a =>
    refine ⟨a, rfl, ?_⟩
    cases message with
    | streamData data =>
      cases data with
      | none => simp [NodeAgent.dispatch] at ok
      | some chunk => simp [NodeAgent.dispatch] at ok; split at ok <;> simp at ok
    | streamControl kind count =>
      simp only [NodeAgent.dispatch, AgentReadStream.control] at ok
      split at ok
      · cases hgrant : a.flow.grant kind count with
        | error e => simp [hgrant, Except.map] at ok
        | ok flow =>
          rw [hgrant] at ok
          obtain rfl := Except.ok.inj ok
          exact ⟨rfl, rfl⟩
      · simp at ok
        exact ⟨by rw [ok], by rw [ok]⟩
    | streamClose | streamAbort =>
      rw [NodeAgent.dispatch_closer rfl ok]
      exact ⟨a.close_spec.2.2.1, a.close_spec.2.2.2⟩

/-- The same for the stream that is looked up. -/
theorem Crossing.dispatch_task {s : Crossing} {message : CoreMessage} {node : AgentReadStream}
    (ok : NodeAgent.dispatch s.lookup message = .ok node) :
    node.task = s.node.task ∧ node.generating = s.node.generating := by
  obtain ⟨a, hlook, htask⟩ := NodeAgent.dispatch_task ok
  unfold Crossing.lookup at hlook
  split at hlook
  · rwa [← Option.some.inj hlook] at htask
  · exact absurd hlook (by simp)

/-- Past the loop test less of the loop is left. -/
theorem AgentReadStream.advance_left {a b : AgentReadStream} (task : a.task = .loop)
    (h : a.advance = some b) : b.task.left < a.task.left := by
  unfold advance at h
  rw [task]
  split at h
  · obtain rfl := Option.some.inj h
    simp [ReadTask.left]
  · split at h
    · obtain ⟨⟨granted, flow⟩, -, rfl⟩ := Option.map_eq_some_iff.mp h
      cases granted <;> simp [ReadTask.left]
    · obtain rfl := Option.some.inj h
      simp [ReadTask.left]

theorem AgentReadStream.closeTask_left {a : AgentReadStream} (task : a.task = .final) :
    a.closeTask.task.left < a.task.left := by
  unfold closeTask
  rw [task]
  split
  · split <;> simp [ReadTask.left]
  · simp [ReadTask.left]

/-- The two programs read a chunk in the step that sends it. -/
theorem SourceStep.idle {s t : SourceStream} {act : CrossAct} (step : SourceStep s act t)
    (idle : s.link.node.generating = false) : t.link.node.generating = false := by
  cases step with
  | grant step =>
    cases step with
    | grant =>
      unfold Crossing.grantNextBatch Crossing.control
      split <;> exact idle
  | @receive core got =>
    rw [(Crossing.account_spec { s.link with core } got).2.1]
    exact idle
  | deliver step =>
    cases step with
    | @deliver message rest =>
      rw [(Crossing.deliver_spec { s.link with toCore := rest } message).1]
      exact idle
  | dispatch step =>
    cases step with
    | dispatch head ok => exact (Crossing.dispatch_task ok).2.trans idle
  | advance more step =>
    cases step with
    | advance task _ next => exact (AgentReadStream.advance_spec next).2.2.2.2.trans idle
  | sendData next step => cases step with | sendData => exact idle
  | sendClose last step => cases step with | sendClose => exact idle
  | closeTask step =>
    cases step with
    | closeTask => exact s.link.node.closeTask_spec.2.2.2.trans idle
  | popRegistry step => cases step with | popRegistry => exact idle

/-- **Every step uses some of it up.** -/
theorem SourceStep.fuel_lt {s t : SourceStream} {act : CrossAct} (step : SourceStep s act t)
    (idle : s.link.node.generating = false) : t.fuel < s.fuel := by
  unfold SourceStream.fuel
  cases step with
  | grant step =>
    cases step with
    | grant flow batch more =>
      have hone : 1 ≤ s.link.window.nextBatch := by
        simp only [ReceiveWindow.nextBatch, NODE_REMOTE_RUN_SOURCE_STREAM_WINDOW]
        omega
      have hle : s.link.window.nextBatch ≤ s.link.window.ungranted := min_le_right _ _
      cases hc : s.link.core.closed <;>
        (simp [Crossing.grantNextBatch, Crossing.control, ReceiveWindow.granted, hc]; omega)
  | @receive core got paid some =>
    obtain ⟨item, hq, -, -⟩ := NodeStream.receiveEvent_eq_some some
    obtain ⟨hcore, hnode, htoCore, htoNode, hungranted⟩ :=
      Crossing.account_spec { s.link with core } got
    simp only [hcore, hnode, htoCore, htoNode, hungranted, hq, List.length_cons]
    omega
  | deliver step =>
    cases step with
    | @deliver message rest head =>
      obtain ⟨hnode, htoCore, htoNode, hwindow, hle⟩ :=
        Crossing.deliver_spec { s.link with toCore := rest } message
      simp only [hnode, htoCore, htoNode, hwindow, head, List.length_cons] at hle ⊢
      omega
  | dispatch step =>
    cases step with
    | @dispatch message rest node head ok =>
      have htask := (Crossing.dispatch_task ok).1
      have silent := @NodeAgent.answer_idle s.link.core.streamId s.link message idle
      simp only [htask, head, silent, List.append_nil, List.length_cons]
      omega
  | advance more step =>
    cases step with
    | advance task _ next =>
      have := AgentReadStream.advance_left task next
      simp only
      omega
  | sendData next step =>
    cases step with
    | sendData _ task =>
      simp [next, task, ReadTask.left]
      omega
  | sendClose last step =>
    cases step with
    | sendClose task =>
      cases hc : s.link.node.closed with
      | true => simp [task, ReadTask.left]
      | false =>
        simp [task, ReadTask.left]
        omega
  | closeTask step =>
    cases step with
    | closeTask task =>
      have := AgentReadStream.closeTask_left task
      simp only
      omega
  | popRegistry step =>
    cases step with
    | popRegistry task => simp [task, AgentReadStream.popRegistry, ReadTask.left]

/-- **A run takes no more steps than there is fuel.** -/
theorem SourceStream.run_length {s t : SourceStream} {acts : List CrossAct}
    (idle : s.link.node.generating = false) (run : Run SourceStep s acts t) :
    acts.length + t.fuel ≤ s.fuel := by
  induction run with
  | refl => simp
  | snoc before last ih =>
    have hidle := before.invariant (fun _ _ _ step h => step.idle h) idle
    have := last.fuel_lt hidle
    simp only [List.length_append, List.length_singleton]
    omega

/-! ## 3. Where every frame is -/

/-- How far the end of the stream has come. -/
inductive EndAt where
  | unsent
  | flying
  | queued
  | heard
  deriving DecidableEq

def EndAt.sent : EndAt → Bool
  | .unsent => false
  | .flying | .queued | .heard => true

def EndAt.arrived : EndAt → Bool
  | .unsent | .flying => false
  | .queued | .heard => true

/-- The frames on this side of the iterator: heard by the reader, in the queue, in the
    channel. -/
structure Whereabouts where
  taken : List Bytes
  queued : List Bytes
  flying : List Bytes
  endAt : EndAt

def creditMessage (n : Nat) : CoreMessage := .streamControl "credit" (some n)

/-- **The invariant of a Workspace Source stream.** -/
structure Flows (id : RequestId) (frames : List Bytes) (w : Whereabouts) (s : SourceStream) :
    Prop where
  /-- Every frame is somewhere, in order. -/
  ordered : frames = w.taken ++ w.queued ++ w.flying ++ s.unsent
  heard : s.heard = w.taken.map (fun chunk => .ok (some chunk)) ++
    if w.endAt = .heard then [.ok none] else []
  queue : s.link.core.queue.items = w.queued.map (fun chunk => .event (.data chunk)) ++
    if w.endAt = .queued then [.streamEnd] else []
  channel : s.link.toCore = w.flying.map (fun chunk => .streamData (some id) (some chunk)) ++
    if w.endAt = .flying then [.streamClose (some id) (some [])] else []
  streamId : s.link.core.streamId = id
  kind : s.link.node.kind.flowControlled = true
  idle : s.link.node.generating = false
  core : s.link.core.closed = w.endAt.arrived ∧ s.link.coreRegistered = !w.endAt.arrived
  arrived : w.endAt.arrived = true → w.flying = []
  ended : w.endAt = .heard → w.queued = []
  running : w.endAt.sent = false → s.link.node.registered = true ∧ s.link.node.closed = false ∧
    s.link.node.flow.closed = false ∧ (s.link.node.task = .loop ∨ s.link.node.task = .reading)
  finished : w.endAt.sent = true → s.unsent = [] ∧ s.link.node.task.inHand = 0 ∧
    s.link.node.task ≠ .loop
  /-- The window counts what the reader has had and what it may still grant. -/
  counted : s.link.window.frameCount = frames.length ∧
    s.link.window.received = w.taken.length ∧
    s.link.window.ungranted + s.link.window.batchRemaining + w.taken.length = frames.length
  /-- The batch is exactly what is on its way. -/
  batch : s.link.window.batchRemaining = w.queued.length + w.flying.length +
    s.link.node.task.inHand + s.link.node.flow.credits + creditsInFlight s.link.toNode
  bounded : s.link.window.batchRemaining ≤ NODE_REMOTE_RUN_SOURCE_STREAM_WINDOW
  /-- A credit in flight is the only thing on its way. -/
  credit : s.link.toNode = [] ∨ ∃ n, s.link.toNode = [creditMessage n] ∧ 1 ≤ n ∧
    n ≤ NODE_REMOTE_RUN_SOURCE_STREAM_WINDOW ∧ s.link.node.flow.credits = 0 ∧
    s.link.node.task.inHand = 0

theorem Flows.opened {id : RequestId} {kind : ReadStreamKind} {frames : List Bytes}
    (flow : kind.flowControlled = true) :
    Flows id frames ⟨[], [], [], .unsent⟩ (.opened id kind frames) where
  ordered := by simp [SourceStream.opened]
  heard := by simp [SourceStream.opened]
  queue := by simp [SourceStream.opened, Crossing.opened, NodeStream.new]
  channel := by simp [SourceStream.opened, Crossing.opened]
  streamId := rfl
  kind := flow
  idle := rfl
  core := ⟨rfl, rfl⟩
  arrived := fun h => absurd h (by simp [EndAt.arrived])
  ended := fun h => absurd h (by simp)
  running := fun _ => ⟨rfl, rfl, rfl, .inl rfl⟩
  finished := fun h => absurd h (by simp [EndAt.sent])
  counted := ⟨rfl, rfl, by simp [SourceStream.opened, Crossing.opened, ReceiveWindow.new]⟩
  batch := by
    simp [SourceStream.opened, Crossing.opened, ReceiveWindow.new, AgentReadStream.opened,
      ReadTask.inHand, creditsInFlight]
  bounded := by simp [SourceStream.opened, Crossing.opened, ReceiveWindow.new]
  credit := .inl rfl

section Step

variable {id : RequestId} {frames : List Bytes} {w : Whereabouts} {s : SourceStream}

/-- What the iterator still has is what is not granted, or granted and not yet sent. -/
theorem Flows.unsent_length (h : Flows id frames w s) :
    s.unsent.length = s.link.window.ungranted + s.link.node.task.inHand +
      s.link.node.flow.credits + creditsInFlight s.link.toNode := by
  have hlen := congrArg List.length h.ordered
  have hbatch := h.batch
  have hcounted := h.counted.2.2
  simp only [List.length_append] at hlen
  omega

/-- Frames are left to grant only while the task runs. -/
theorem Flows.sent_eq_false (h : Flows id frames w s) (more : s.unsent ≠ []) :
    w.endAt.sent = false := by
  by_contra hsent
  exact more (h.finished (by simpa using hsent)).1

theorem EndAt.eq_unsent {e : EndAt} (h : e.sent = false) : e = .unsent := by
  cases e with
  | unsent => rfl
  | flying | queued | heard => exact absurd h (by simp [EndAt.sent])

/-- A credit that is due goes out at once, and it finds nothing else on its way. -/
theorem Flows.quiet_of_batch (h : Flows id frames w s)
    (batch : s.link.window.batchRemaining = 0) :
    s.link.toNode = [] ∧ s.link.node.flow.credits = 0 ∧ s.link.node.task.inHand = 0 ∧
      w.queued = [] ∧ w.flying = [] := by
  have hbatch := h.batch
  rw [batch] at hbatch
  refine ⟨?_, by omega, by omega, List.length_eq_zero_iff.mp (by omega),
    List.length_eq_zero_iff.mp (by omega)⟩
  rcases h.credit with hnil | ⟨n, hn, hpos, -⟩
  · exact hnil
  · simp only [hn, creditMessage, creditsInFlight, CoreMessage.credits, List.map_cons,
      List.map_nil, List.sum_cons, List.sum_nil, Option.getD_some, Int.toNat_natCast] at hbatch
    omega

/-- **The Node accepts every credit.** One in flight finds the window used up, the stream
    registered and its task at the loop test. -/
theorem Flows.accepts (h : Flows id frames w s) {n : Nat} (hn : s.link.toNode = [creditMessage n]) :
    NodeAgent.dispatch s.link.lookup (creditMessage n) =
      .ok { s.link.node with flow := ⟨n, false⟩ } := by
  rcases h.credit with hnil | ⟨m, hm, hpos, hle, hcredits, -⟩
  · exact absurd (hnil.symm.trans hn) (by simp)
  obtain rfl : m = n := by
    have := hm.symm.trans hn
    simp only [creditMessage, List.cons.injEq, CoreMessage.streamControl.injEq,
      Option.some.injEq, and_true, true_and] at this
    omega
  have hunsent : s.unsent ≠ [] := by
    have hlen := h.unsent_length
    simp only [hn, creditMessage, creditsInFlight, CoreMessage.credits, List.map_cons,
      List.map_nil, List.sum_cons, List.sum_nil, Option.getD_some, Int.toNat_natCast] at hlen
    apply List.ne_nil_of_length_pos
    omega
  obtain ⟨hreg, -, hclosed, -⟩ := h.running (h.sent_eq_false hunsent)
  have hvalid : ValidCredit "credit" (some (m : Int)) := ⟨rfl, m, rfl, by omega, by omega⟩
  simp [NodeAgent.dispatch, creditMessage, Crossing.lookup, hreg, AgentReadStream.control, h.kind,
    FlowControl.grant_ok hvalid hcredits, hclosed, Except.map]

/-! ## 4. Each step keeps it -/

theorem Flows.grant {link : Crossing} (h : Flows id frames w s)
    (step : CrossStep s.link .grant link) : Flows id frames w { s with link } := by
  cases step with
  | grant flow batch more =>
    have hunsent : s.unsent ≠ [] := by
      apply List.ne_nil_of_length_pos
      have := h.unsent_length
      omega
    have hend := EndAt.eq_unsent (h.sent_eq_false hunsent)
    have hopen : s.link.core.closed = false := by simp [h.core.1, hend, EndAt.arrived]
    obtain ⟨hnil, hcredits, hhand, hqueued, hflying⟩ := h.quiet_of_batch batch
    have hbatch : 1 ≤ s.link.window.nextBatch ∧
        s.link.window.nextBatch ≤ NODE_REMOTE_RUN_SOURCE_STREAM_WINDOW ∧
        s.link.window.nextBatch ≤ s.link.window.ungranted := by
      simp only [ReceiveWindow.nextBatch, NODE_REMOTE_RUN_SOURCE_STREAM_WINDOW]
      omega
    have hcounted := h.counted
    rw [Crossing.grantNextBatch, Crossing.control_open hopen]
    exact
      { h with
        counted := ⟨hcounted.1, hcounted.2.1, by
          simp only [ReceiveWindow.granted]
          omega⟩
        batch := by
          simp [ReceiveWindow.granted, hqueued, hflying, hcredits, hhand, hnil, creditsInFlight,
            CoreMessage.credits]
        bounded := hbatch.2.1
        credit := .inr ⟨_, by simp [hnil, creditMessage], hbatch.1, hbatch.2.1, hcredits, hhand⟩ }

theorem Flows.receive {core : NodeStream} {got : Received} (h : Flows id frames w s)
    (some : s.link.core.receiveEvent = some (core, got)) :
    ∃ w', Flows id frames w'
      { s with link := { s.link with core }.account got,
               heard := s.heard ++ (s.link.window.answer got).toList } := by
  obtain ⟨⟨item, queue⟩, hget, heq⟩ := Option.map_eq_some_iff.mp some
  obtain ⟨rfl, rfl⟩ := Prod.mk.inj heq
  have hq := BoundedQueue.getNowait_eq_some.mp hget
  have hqueue := hq.symm.trans h.queue
  have hcounted := h.counted
  have hbatch := h.batch
  have hbounded := h.bounded
  have hlen := congrArg List.length h.ordered
  cases hw : w.queued with
  | nil =>
    -- only the end can be there
    rw [hw, List.map_nil, List.nil_append] at hqueue
    split at hqueue
    · rename_i hend
      obtain ⟨rfl, hrest⟩ := List.cons.inj hqueue
      have hflying := h.arrived (by simp [hend, EndAt.arrived])
      have hunsent := (h.finished (by simp [hend, EndAt.sent])).1
      have hall : s.link.window.received = s.link.window.frameCount := by
        simp only [hw, hflying, hunsent, List.append_nil] at hlen
        omega
      refine ⟨{ w with endAt := .heard }, ?_⟩
      exact
        { h with
          heard := by
            simp [h.heard, hend, StreamItem.received, ReceiveWindow.answer, hall]
          queue := by simp [Crossing.account, StreamItem.received, hw, hrest]
          channel := by
            simp [Crossing.account, StreamItem.received, h.channel, hend]
          core := by
            simpa [Crossing.account, StreamItem.received, hend, EndAt.arrived] using h.core
          arrived := fun _ => hflying
          ended := fun _ => hw
          running := fun he => absurd he (by simp [EndAt.sent])
          finished := fun _ => h.finished (by simp [hend, EndAt.sent]) }
    · exact absurd hqueue (by simp)
  | cons chunk rest =>
    rw [hw, List.map_cons, List.cons_append] at hqueue
    obtain ⟨rfl, hrest⟩ := List.cons.inj hqueue
    have hend : w.endAt ≠ .heard := by
      intro he
      exact absurd (h.ended he) (by simp [hw])
    simp only [hw, List.length_append, List.length_cons] at hlen hbatch
    have hpaid : ¬ (s.link.window.batchRemaining = 0 ∨
        s.link.window.received ≥ s.link.window.frameCount) := by omega
    refine ⟨{ w with taken := w.taken ++ [chunk], queued := rest }, ?_⟩
    exact
      { h with
        ordered := by simp [h.ordered, hw]
        heard := by
          simp [h.heard, hend, StreamItem.received, ReceiveWindow.answer, if_neg hpaid]
        queue := by simpa [Crossing.account, StreamItem.received] using hrest
        ended := fun he => absurd he hend
        counted := by
          simp only [Crossing.account, StreamItem.received, ReceiveWindow.receive, if_neg hpaid,
            List.length_append, List.length_singleton]
          omega
        batch := by
          simp only [Crossing.account, StreamItem.received, ReceiveWindow.receive, if_neg hpaid]
          omega
        bounded := by
          simp only [Crossing.account, StreamItem.received, ReceiveWindow.receive, if_neg hpaid]
          omega }

/-- A feed of an open stream whose queue has room appends to it. -/
theorem NodeStream.feedData_room {c : NodeStream} (hopen : c.closed = false)
    (room : c.queue.items.length < NODE_STREAM_QUEUE_DEPTH) (chunk : Bytes) :
    (c.feedData chunk).1.closed = false ∧ (c.feedData chunk).1.streamId = c.streamId ∧
      (c.feedData chunk).1.queue.items = c.queue.items ++ [.event (.data chunk)] := by
  unfold NodeStream.feedData NodeStream.feedEvent
  rw [if_neg (by simp [hopen])]
  cases hput : c.queue.putNowait (.event (.data chunk)) with
  | none =>
    have hfull := BoundedQueue.full_iff.mp (BoundedQueue.putNowait_eq_none.mp hput)
    omega
  | some queue => exact ⟨hopen, rfl, (BoundedQueue.putNowait_eq_some.mp hput).2⟩

theorem NodeStream.feedEnd_room {c : NodeStream} (hopen : c.closed = false)
    (room : c.queue.items.length < NODE_STREAM_QUEUE_DEPTH) (result : Option JsonObject) :
    (c.feedEnd result).closed = true ∧ (c.feedEnd result).streamId = c.streamId ∧
      (c.feedEnd result).queue.items = c.queue.items ++ [.streamEnd] := by
  refine ⟨NodeStream.feedEnd_closed, NodeStream.feedEnd_streamId, ?_⟩
  unfold NodeStream.feedEnd
  rw [if_neg (by simp [hopen]), NodeStream.replaceQueueTail_items]
  simp [NodeStream.roomMade, BoundedQueue.not_full_iff.mpr room]

/-- The queue holds at most one window of frames, and the end. -/
theorem Flows.queue_length_le (h : Flows id frames w s) :
    s.link.core.queue.items.length ≤ NODE_REMOTE_RUN_SOURCE_STREAM_WINDOW + 1 := by
  have hbatch := h.batch
  have hbounded := h.bounded
  rw [h.queue, List.length_append, List.length_map]
  split <;> simp <;> omega

theorem Flows.deliver {link : Crossing} (h : Flows id frames w s)
    (step : CrossStep s.link .deliver link) : ∃ w', Flows id frames w' { s with link } := by
  cases step with
  | @deliver message rest head =>
    have room : s.link.core.queue.items.length < NODE_STREAM_QUEUE_DEPTH :=
      Nat.lt_of_le_of_lt h.queue_length_le (by decide)
    have hchannel := head.symm.trans h.channel
    have hbatch := h.batch
    cases hw : w.flying with
    | nil =>
      rw [hw, List.map_nil, List.nil_append] at hchannel
      split at hchannel
      · rename_i hend
        obtain ⟨rfl, hrest⟩ := List.cons.inj hchannel
        have hcore := h.core
        rw [hend] at hcore
        have hreg : s.link.coreRegistered = true := hcore.2
        obtain ⟨hclosed, hid, hqueue⟩ := NodeStream.feedEnd_room hcore.1 room (some [])
        refine ⟨{ w with endAt := .queued }, ?_⟩
        rw [Crossing.deliver, if_pos hreg]
        exact
          { h with
            heard := by simp [h.heard, hend]
            queue := by
              rw [hqueue, h.queue]
              simp [hend]
            channel := by simp [hw, hrest]
            streamId := hid.trans h.streamId
            core := ⟨hclosed, rfl⟩
            arrived := fun _ => hw
            ended := fun he => absurd he (by simp)
            running := fun he => absurd he (by simp [EndAt.sent])
            finished := fun _ => h.finished (by simp [hend, EndAt.sent]) }
      · exact absurd hchannel (by simp)
    | cons chunk flying =>
      rw [hw, List.map_cons, List.cons_append] at hchannel
      obtain ⟨rfl, hrest⟩ := List.cons.inj hchannel
      have harrived : w.endAt.arrived = false := by
        by_contra ha
        exact absurd (h.arrived (by simpa using ha)) (by simp [hw])
      have hcore := h.core
      rw [harrived] at hcore
      have hqueued : w.endAt ≠ .queued := by
        intro he
        exact absurd harrived (by simp [he, EndAt.arrived])
      have hheard : w.endAt ≠ .heard := by
        intro he
        exact absurd harrived (by simp [he, EndAt.arrived])
      have hreg : s.link.coreRegistered = true := hcore.2
      obtain ⟨hclosed, hid, hqueue⟩ := NodeStream.feedData_room hcore.1 room chunk
      refine ⟨{ w with queued := w.queued ++ [chunk], flying }, ?_⟩
      rw [Crossing.deliver, if_pos hreg]
      exact
        { h with
          ordered := by simp [h.ordered, hw]
          queue := by
            rw [hqueue, h.queue]
            simp [hqueued]
          channel := hrest
          streamId := hid.trans h.streamId
          core := ⟨hclosed.trans harrived.symm, by simp [harrived, hcore.2]⟩
          arrived := fun ha => absurd (harrived.symm.trans ha) (by simp)
          ended := fun he => absurd he hheard
          batch := by
            simp only [hw, List.length_append, List.length_cons] at hbatch ⊢
            simpa using by omega }

theorem Flows.dispatch {link : Crossing} (h : Flows id frames w s)
    (step : CrossStep s.link .dispatch link) : Flows id frames w { s with link } := by
  cases step with
  | @dispatch message rest node head ok =>
    rcases h.credit with hnil | ⟨n, hn, hpos, hle, hcredits, hhand⟩
    · exact absurd (hnil.symm.trans head) (by simp)
    obtain ⟨rfl, rfl⟩ := List.cons.inj (head.symm.trans hn)
    rw [h.accepts hn] at ok
    obtain rfl := Except.ok.inj ok
    have hbatch := h.batch
    have hflight : creditsInFlight s.link.toNode = n := by
      simp [hn, creditMessage, creditsInFlight, CoreMessage.credits]
    rw [NodeAgent.answer_idle h.idle, List.append_nil]
    exact
      { h with
        running := fun he => by
          obtain ⟨hreg, hclosed, -, htask⟩ := h.running he
          exact ⟨hreg, hclosed, rfl, htask⟩
        batch := by
          simp only [creditsInFlight, List.map_nil, List.sum_nil]
          omega
        credit := .inl rfl }

theorem Flows.advance {link : Crossing} (h : Flows id frames w s) (more : s.unsent ≠ [])
    (step : CrossStep s.link .advance link) : Flows id frames w { s with link } := by
  cases step with
  | @advance node task _ next =>
    obtain ⟨hreg, hclosed, hflow, -⟩ := h.running (h.sent_eq_false more)
    have hbatch := h.batch
    simp only [AgentReadStream.advance, hclosed, h.kind, FlowControl.claim, hflow,
      Bool.false_eq_true, if_false, if_true] at next
    by_cases hcredits : 0 < s.link.node.flow.credits
    · rw [if_pos hcredits] at next
      obtain rfl := Option.some.inj next
      exact
        { h with
          running := fun _ => ⟨hreg, rfl, rfl, .inr rfl⟩
          finished := fun he => absurd ((h.sent_eq_false more).symm.trans he) (by simp)
          batch := by
            simp only [task, ReadTask.inHand, if_true] at hbatch ⊢
            omega
          credit := by
            rcases h.credit with hnil | ⟨n, -, -, -, hzero, -⟩
            · exact .inl hnil
            · omega }
    · rw [if_neg hcredits] at next
      exact absurd next (by simp)

/-- While the task has a frame in hand, no credit is in flight. -/
theorem Flows.sendData {chunk : Bytes} {rest : List Bytes} {link : Crossing}
    (h : Flows id frames w s) (next : s.unsent = chunk :: rest)
    (step : CrossStep s.link (.sendData chunk) link) :
    ∃ w', Flows id frames w' { s with link, unsent := rest } := by
  cases step with
  | sendData _ task =>
    have hsent := h.sent_eq_false (by simp [next])
    have hend := EndAt.eq_unsent hsent
    obtain ⟨hreg, hclosed, hflow, -⟩ := h.running hsent
    have hbatch := h.batch
    refine ⟨{ w with flying := w.flying ++ [chunk] }, ?_⟩
    exact
      { h with
        ordered := by simp [h.ordered, next]
        channel := by simp [h.channel, hend, h.streamId]
        arrived := fun he => absurd he (by simp [hend, EndAt.arrived])
        running := fun _ => ⟨hreg, hclosed, hflow, .inl rfl⟩
        finished := fun he => absurd (hsent.symm.trans he) (by simp)
        batch := by
          simp only [task, ReadTask.inHand, List.length_append, List.length_singleton]
            at hbatch ⊢
          omega
        credit := by
          rcases h.credit with hnil | ⟨n, -, -, -, -, hhand⟩
          · exact .inl hnil
          · exact absurd hhand (by simp [task, ReadTask.inHand]) }

/-- With nothing left to send, no credit is left either. -/
theorem Flows.spent (h : Flows id frames w s) (last : s.unsent = []) :
    s.link.toNode = [] ∧ s.link.node.flow.credits = 0 ∧ s.link.node.task.inHand = 0 := by
  have hlen := h.unsent_length
  rw [last, List.length_nil] at hlen
  refine ⟨?_, by omega, by omega⟩
  rcases h.credit with hnil | ⟨n, hn, hpos, -⟩
  · exact hnil
  · simp only [hn, creditMessage, creditsInFlight, CoreMessage.credits, List.map_cons,
      List.map_nil, List.sum_cons, List.sum_nil, Option.getD_some, Int.toNat_natCast] at hlen
    omega

theorem Flows.sendClose {link : Crossing} (h : Flows id frames w s) (last : s.unsent = [])
    (step : CrossStep s.link .sendClose link) : ∃ w', Flows id frames w' { s with link } := by
  cases step with
  | sendClose task =>
    have hsent : w.endAt.sent = false := by
      by_contra he
      exact (h.finished (by simpa using he)).2.2 task
    have hend := EndAt.eq_unsent hsent
    obtain ⟨hreg, hclosed, hflow, -⟩ := h.running hsent
    have hbatch := h.batch
    refine ⟨{ w with endAt := .flying }, ?_⟩
    exact
      { h with
        heard := by simp [h.heard, hend]
        queue := by simp [h.queue, hend]
        channel := by simp [h.channel, hend, hclosed, h.streamId]
        core := by simpa [hend, EndAt.arrived] using h.core
        arrived := fun he => absurd he (by simp [EndAt.arrived])
        ended := fun he => absurd he (by simp)
        running := fun he => absurd he (by simp [EndAt.sent])
        finished := fun _ => ⟨last, rfl, by simp⟩
        batch := by
          simp only [task, ReadTask.inHand] at hbatch ⊢
          omega
        credit := .inl (h.spent last).1 }

/-- The `finally` of `start` changes nothing that is counted. -/
theorem Flows.cleanup {node : AgentReadStream} (h : Flows id frames w s)
    (kind : node.kind = s.link.node.kind) (idle : node.generating = false)
    (credits : node.flow.credits = s.link.node.flow.credits) (hand : node.task.inHand = 0)
    (loop : node.task ≠ .loop) (hand' : s.link.node.task.inHand = 0)
    (loop' : s.link.node.task ≠ .loop) :
    Flows id frames w { s with link := { s.link with node } } := by
  have hsent : w.endAt.sent = true := by
    by_contra he
    rcases (h.running (by simpa using he)).2.2.2 with htask | htask
    · exact loop' htask
    · exact absurd hand' (by simp [htask, ReadTask.inHand])
  have hbatch := h.batch
  have hlast := (h.finished hsent).1
  exact
    { h with
      kind := kind ▸ h.kind
      idle := idle
      running := fun he => absurd (hsent.symm.trans he) (by simp)
      finished := fun _ => ⟨hlast, hand, loop⟩
      batch := by
        simp only [hand, credits, hand'] at hbatch ⊢
        omega
      credit := .inl (h.spent hlast).1 }

theorem Flows.step {t : SourceStream} {act : CrossAct} (h : Flows id frames w s)
    (step : SourceStep s act t) : ∃ w', Flows id frames w' t := by
  cases step with
  | grant step => exact ⟨w, h.grant step⟩
  | receive paid some => exact h.receive some
  | deliver step => exact h.deliver step
  | dispatch step => exact ⟨w, h.dispatch step⟩
  | advance more step => exact ⟨w, h.advance more step⟩
  | sendData next step => exact h.sendData next step
  | sendClose last step => exact h.sendClose last step
  | closeTask step =>
    cases step with
    | closeTask task =>
      obtain ⟨hkind, hcredits, hhand, hidle⟩ := s.link.node.closeTask_spec
      refine ⟨w, h.cleanup hkind (hidle.trans h.idle) hcredits hhand ?_
        (by simp [task, ReadTask.inHand]) (by simp [task])⟩
      have := AgentReadStream.closeTask_left task
      intro hloop
      simp [hloop, task, ReadTask.left] at this
  | popRegistry step =>
    cases step with
    | popRegistry task =>
      refine ⟨w, h.cleanup rfl h.idle rfl ?_ ?_ (by simp [task, ReadTask.inHand]) (by simp [task])⟩
      · simp [AgentReadStream.popRegistry, ReadTask.inHand]
      · simp [AgentReadStream.popRegistry]

/-! ## 5. Something can always happen -/

/-- **No deadlock**: until the reader has heard the end, one side or the connection has a
    step. The cases follow a frame back from the reader to the iterator. -/
theorem Flows.progress (h : Flows id frames w s) (more : w.endAt ≠ .heard) :
    ∃ act t, SourceStep s act t := by
  -- a credit that is due
  by_cases hdue : s.link.window.GrantDue
  · exact ⟨_, _, .grant (.grant h.kind hdue.1 hdue.2)⟩
  -- an item in the queue
  cases hget : s.link.core.receiveEvent with
  | some got => exact ⟨_, _, .receive hdue hget⟩
  | none =>
    have hqueue : s.link.core.queue.items = [] := by
      apply BoundedQueue.getNowait_eq_none.mp
      simpa [NodeStream.receiveEvent] using hget
    -- a message to the Core
    cases hcore : s.link.toCore with
    | cons message rest => exact ⟨_, _, .deliver (.deliver hcore)⟩
    | nil =>
      have hqueued := h.queue
      have hflying := h.channel
      rw [hqueue] at hqueued
      rw [hcore] at hflying
      have hend : w.endAt = .unsent := by
        cases he : w.endAt with
        | unsent => rfl
        | flying => simp [he] at hflying
        | queued => simp [he] at hqueued
        | heard => exact absurd he more
      simp [hend] at hqueued hflying
      obtain ⟨hreg, hclosed, hflow, htask⟩ := h.running (by simp [hend, EndAt.sent])
      -- a credit in flight
      rcases h.credit with hnil | ⟨n, hn, -⟩
      · rcases htask with hloop | hreading
        · cases hunsent : s.unsent with
          | nil => exact ⟨_, _, .sendClose hunsent (.sendClose hloop h.idle)⟩
          | cons chunk rest =>
            -- nothing is on its way but the Node's credits: were there none, one would be due
            have hcredits : 0 < s.link.node.flow.credits := by
              by_contra hzero
              have hlen := h.unsent_length
              have hbatch := h.batch
              rw [hunsent] at hlen
              simp only [hqueued, hflying, hloop, hnil, ReadTask.inHand, creditsInFlight,
                List.map_nil, List.sum_nil, List.length_nil, List.length_cons] at hlen hbatch
              exact hdue ⟨by omega, by omega⟩
            have hclaim : s.link.node.flow.claim =
                some (true, { s.link.node.flow with credits := s.link.node.flow.credits - 1 }) := by
              simp [FlowControl.claim, hflow, hcredits]
            have hnext : s.link.node.advance.isSome = true := by
              simp [AgentReadStream.advance, hclosed, h.kind, hclaim]
            obtain ⟨node, hnode⟩ := Option.isSome_iff_exists.mp hnext
            exact ⟨_, _, .advance (by simp [hunsent]) (.advance hloop h.idle hnode)⟩
        · cases hunsent : s.unsent with
          | nil =>
            have hhand := (h.spent hunsent).2.2
            exact absurd hhand (by simp [hreading, ReadTask.inHand])
          | cons chunk rest => exact ⟨_, _, .sendData hunsent (.sendData chunk hreading h.idle)⟩
      · exact ⟨_, _, .dispatch (.dispatch hn (h.accepts hn))⟩

end Step

/-! ## 6. The stream is lossless and never stalls -/

theorem Flows.ofRun {id : RequestId} {kind : ReadStreamKind} {frames : List Bytes}
    {acts : List CrossAct} {s : SourceStream} (flow : kind.flowControlled = true)
    (run : Run SourceStep (.opened id kind frames) acts s) : ∃ w, Flows id frames w s := by
  induction run with
  | refl => exact ⟨_, .opened flow⟩
  | snoc before last ih =>
    obtain ⟨w, h⟩ := ih
    exact h.step last

/-- What the reader has heard is the beginning of what it is to hear. -/
theorem Flows.heard_begins {id : RequestId} {frames : List Bytes} {w : Whereabouts}
    {s : SourceStream} (h : Flows id frames w s) :
    s.heard <+: answers frames ∧ (w.endAt = .heard → s.heard = answers frames) := by
  have hall (he : w.endAt = .heard) : s.heard = answers frames := by
    have hqueued := h.ended he
    have hflying := h.arrived (by simp [he, EndAt.arrived])
    have hunsent := (h.finished (by simp [he, EndAt.sent])).1
    have hframes : frames = w.taken := by simpa [hqueued, hflying, hunsent] using h.ordered
    simp [h.heard, he, answers, hframes]
  refine ⟨?_, hall⟩
  by_cases he : w.endAt = .heard
  · exact ⟨[], by simp [hall he]⟩
  · rw [h.heard, if_neg he, List.append_nil]
    refine ⟨(w.queued ++ w.flying ++ s.unsent).map (fun chunk => .ok (some chunk)) ++
      [.ok none], ?_⟩
    rw [answers, h.ordered]
    simp

/-- **Credit flow is lossless and never stalls.** After any steps of the two programs and of
    the connection between them:

    1. the reader has heard the frames in order, then the end, as far as it has come;
    2. unless it has heard it all, some step is possible, and the steps cannot go on for ever;
    3. at most one window of frames waits in the queue or in the channel, and the queue has
       room for more;
    4. a credit on its way finds the Node's window used up, and is accepted. -/
theorem source_stream_flows {id : RequestId} {kind : ReadStreamKind} {frames : List Bytes}
    {acts : List CrossAct} {s : SourceStream} (flow : kind.flowControlled = true)
    (run : Run SourceStep (.opened id kind frames) acts s) :
    s.heard <+: answers frames ∧
    (s.heard = answers frames ∨ ∃ act t, SourceStep s act t) ∧
    acts.length ≤ 6 * frames.length + 5 ∧
    s.link.core.queue.items.countP StreamItem.isData +
      s.link.toCore.countP NodeMessage.isData ≤ NODE_REMOTE_RUN_SOURCE_STREAM_WINDOW ∧
    s.link.core.queue.items.length < NODE_STREAM_QUEUE_DEPTH ∧
    ∀ message rest, s.link.toNode = message :: rest →
      rest = [] ∧ s.link.node.flow.credits = 0 ∧ s.link.node.task.inHand = 0 ∧
      ∃ n, 1 ≤ n ∧ n ≤ NODE_REMOTE_RUN_SOURCE_STREAM_WINDOW ∧ message = creditMessage n ∧
        NodeAgent.dispatch s.link.lookup message =
          .ok { s.link.node with flow := ⟨n, false⟩ } := by
  obtain ⟨w, h⟩ := Flows.ofRun flow run
  obtain ⟨hbegins, hall⟩ := h.heard_begins
  refine ⟨hbegins, ?_, ?_, ?_, ?_, ?_⟩
  · by_cases he : w.endAt = .heard
    · exact .inl (hall he)
    · exact .inr (h.progress he)
  · have hlen := SourceStream.run_length rfl run
    simp only [SourceStream.fuel, SourceStream.opened, Crossing.opened, NodeStream.new,
      ReceiveWindow.new, AgentReadStream.opened, ReadTask.left, BoundedQueue.empty_items,
      List.length_nil] at hlen
    omega
  · have hqueue : s.link.core.queue.items.countP StreamItem.isData = w.queued.length := by
      rw [h.queue, List.countP_append, List.countP_map]
      split <;> simp [StreamItem.isData, Function.comp_def]
    have hchannel : s.link.toCore.countP NodeMessage.isData = w.flying.length := by
      rw [h.channel, List.countP_append, List.countP_map]
      split <;> simp [NodeMessage.isData, Function.comp_def]
    have hbatch := h.batch
    have hbounded := h.bounded
    omega
  · exact Nat.lt_of_le_of_lt h.queue_length_le (by decide)
  · intro message rest hhead
    rcases h.credit with hnil | ⟨n, hn, hpos, hle, hcredits, hhand⟩
    · exact absurd (hnil.symm.trans hhead) (by simp)
    · obtain ⟨rfl, rfl⟩ := List.cons.inj (hhead.symm.trans hn)
      exact ⟨rfl, hcredits, hhand, n, hpos, hle, rfl, h.accepts hn⟩

/-- A file of one frame, from the first credit to the end: the bound holds all along, and the
    reader hears the frame and the end. -/
theorem source_stream_flows_one : ∃ acts s,
    Run SourceStep (.opened 0 .workspaceFile [[7]]) acts s ∧
    s.heard = answers [[7]] ∧ s.link.node.registered = false ∧ acts.length ≤ 6 * 1 + 5 := by
  have run := Run.cons
    (SourceStep.grant (s := .opened 0 .workspaceFile [[7]]) (.grant rfl rfl (by decide)))
    (.cons (.dispatch (.dispatch rfl rfl))
    (.cons (.advance (by decide) (.advance rfl rfl rfl))
    (.cons (.sendData rfl (.sendData [7] rfl rfl))
    (.cons (.sendClose rfl (.sendClose rfl rfl))
    (.cons (.closeTask (.closeTask rfl))
    (.cons (.popRegistry (.popRegistry rfl))
    (.cons (.deliver (.deliver rfl))
    (.cons (.deliver (.deliver rfl))
    (.cons (.receive (by decide) rfl)
    (.cons (.receive (by decide) rfl) .refl))))))))))
  exact ⟨_, _, run, rfl, rfl, (source_stream_flows rfl run).2.2.1⟩

end Termroom.Node
