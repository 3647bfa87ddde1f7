import Termroom.Node.Stream

/-!
# `NodeConnection`: requests, streams and their tombstones

One control connection carries every request and stream between the Core and a Node. The
Core keeps a future for each request that waits (`_pending`) and a `NodeStream` for each
stream (`_streams`). What it gives up on early it moves to a tombstone deque, so that a late
message for it is ignored; a message for an id that is neither known nor in a tombstone is a
protocol error, and that takes the whole connection down.

Both deques are bounded (`maxlen=256`), which is a choice: the connection remembers its last
256 abandoned requests and its last 256 dropped streams. **Within that memory an abandoned
request never tears the connection down** (`dispatch_tolerates_abandoned`), whatever the
order of issuing, sending, cancelling, answering and resuming. The same holds of every
stream but one kind: `open_stream` takes a stream it does not return out of `_streams`
without a tombstone.
-/

set_option autoImplicit false

namespace Termroom.Node

open Conc Data

/-! ## 1. The source -/

/-- An `asyncio` future, as far as the connection looks at it. -/
inductive Future where
  | waiting
  | done (result : Except NodeError JsonObject)

structure NodeConnection where
  pending : RequestId → Option Future
  closedRequests : Ring RequestId NODE_CLOSED_REQUEST_TOMBSTONES
  streams : RequestId → Option NodeStream
  closedStreams : Ring RequestId NODE_CLOSED_STREAM_TOMBSTONES
  closed : Bool

namespace NodeConnection

def new : NodeConnection := ⟨fun _ => none, .empty, fun _ => none, .empty, false⟩

/-- `request`, up to its `send`. -/
def registerRequest (c : NodeConnection) (id : RequestId) : NodeConnection :=
  { c with pending := Function.update c.pending id (some .waiting) }

/-- The `finally` of `request`. -/
def forgetRequest (c : NodeConnection) (id : RequestId) : NodeConnection :=
  { c with pending := Function.update c.pending id none }

/-- The `except asyncio.CancelledError` of `request`. -/
def buryRequest (c : NodeConnection) (id : RequestId) : NodeConnection :=
  { c with closedRequests := c.closedRequests.push id }

/-- `open_stream`, up to its `request`. -/
def registerStream (c : NodeConnection) (streamId : RequestId) : NodeConnection :=
  { c with streams := Function.update c.streams streamId (some (.new streamId)) }

/-- `_streams.pop(stream_id, None)`, as `open_stream` does it when it fails. -/
def popStream (c : NodeConnection) (streamId : RequestId) : NodeConnection :=
  { c with streams := Function.update c.streams streamId none }

/-- `drop_stream`: the id of a stream that was there goes to the tombstones. -/
def dropStream (c : NodeConnection) (streamId : RequestId) : NodeConnection :=
  match c.streams streamId with
  | some _ => { c.popStream streamId with closedStreams := c.closedStreams.push streamId }
  | none => c

def setStream (c : NodeConnection) (stream : NodeStream) : NodeConnection :=
  { c with streams := Function.update c.streams stream.streamId (some stream) }

/-- `validate_request_id`. -/
def validateRequestId : Option RequestId → Except NodeError RequestId
  | some id => .ok id
  | none => .error (.protocol "Node request id is invalid" "request_invalid")

/-- `_stream`: the stream, `none` for a tombstone. -/
def findStream (c : NodeConnection) (streamId : Option RequestId) :
    Except NodeError (Option NodeStream) :=
  (validateRequestId streamId).bind fun id =>
    match c.streams id with
    | some stream => .ok (some stream)
    | none =>
      if id ∈ c.closedStreams.items then .ok none
      else .error (.protocol "Unknown Node stream" "stream_unknown")

/-- `_dispatch_response`. The second component is the exception raised, if any. -/
def dispatchResponse (c : NodeConnection) (id : Option RequestId) (ok : Bool)
    (result : Option JsonObject) (error code : String) : NodeConnection × Option NodeError :=
  match validateRequestId id with
  | .error e => (c, some e)
  | .ok id =>
    match c.pending id with
    | some .waiting =>
      if ok then
        match result with
        | some result =>
          ({ c with pending := Function.update c.pending id (some (.done (.ok result))) }, none)
        | none => (c, some (.protocol "Node response is invalid" "response_invalid"))
      else
        ({ c with pending := Function.update c.pending id
                    (some (.done (.error (.ofResponse error code)))) }, none)
    | some (.done _) | none =>
      if id ∈ c.closedRequests.items then (c, none)
      else (c, some (.protocol "Unknown Node response" "response_unknown"))

/-- The stream messages share their beginning: find the stream, ignore a tombstone. -/
def withStream (c : NodeConnection) (streamId : Option RequestId)
    (body : NodeStream → NodeConnection × Option NodeError) :
    NodeConnection × Option NodeError :=
  match c.findStream streamId with
  | .error e => (c, some e)
  | .ok none => (c, none)
  | .ok (some stream) => body stream

def dispatchStreamData (c : NodeConnection) (streamId : Option RequestId)
    (data : Option Bytes) : NodeConnection × Option NodeError :=
  c.withStream streamId fun stream =>
    match data with
    | none => (c, some (.protocol "Node stream data is invalid" "stream_invalid"))
    | some chunk =>
      if chunk.length > MAX_NODE_STREAM_CHUNK_BYTES then
        (c, some (.protocol "Node stream chunk is too large" "stream_too_large"))
      else (c.setStream (stream.feedData chunk).1, (stream.feedData chunk).2)

/-- The control a `stream.control` message carries, if its fields are as they must be. -/
def paneModeControl (kind : String) (revision : Option Int) (available : Option Bool)
    (mode : ModeField) : Option JsonObject :=
  match revision, available, mode with
  | some revision, some true, .dict mode =>
    if kind = "pane_mode" ∧ 1 ≤ revision then
      some [("kind", .str "pane_mode"), ("revision", .int revision),
        ("available", .bool true), ("mode", .obj mode)]
    else none
  | some revision, some false, .absent =>
    if kind = "pane_mode" ∧ 1 ≤ revision then
      some [("kind", .str "pane_mode"), ("revision", .int revision),
        ("available", .bool false)]
    else none
  | _, _, _ => none

def dispatchStreamControl (c : NodeConnection) (streamId : Option RequestId) (kind : String)
    (revision : Option Int) (available : Option Bool) (mode : ModeField) :
    NodeConnection × Option NodeError :=
  c.withStream streamId fun stream =>
    match paneModeControl kind revision available mode with
    | none => (c, some (.protocol "Node stream control is invalid" "stream_invalid"))
    | some control => (c.setStream (stream.feedControl control).1, (stream.feedControl control).2)

/-- `dispatch`. -/
def dispatch (c : NodeConnection) : NodeMessage → NodeConnection × Option NodeError
  | .response id ok result error code => c.dispatchResponse id ok result error code
  | .streamData streamId data => c.dispatchStreamData streamId data
  | .streamControl streamId kind revision available mode =>
    c.dispatchStreamControl streamId kind revision available mode
  | .streamClose streamId result =>
    c.withStream streamId fun stream =>
      match result with
      | none => (c, some (.protocol "Node stream result is invalid" "stream_invalid"))
      | some result =>
        ((c.setStream (stream.feedEnd result)).dropStream stream.streamId, none)
  | .streamError streamId error code =>
    c.withStream streamId fun stream =>
      ((c.setStream (stream.feedError (.ofStream error code))).dropStream stream.streamId, none)
  | .other => (c, some (.protocol "Unexpected Node message" "message_unexpected"))

/-- `close`. The streams it drops are told, but they are in no registry any more. -/
def close (c : NodeConnection) : NodeConnection :=
  if c.closed then c
  else { c with closed := true, pending := fun _ => none, streams := fun _ => none }

end NodeConnection

/-! The fields of a message that say whom it is for, and the checks it passes when it comes
from a conforming Node. -/

def NodeMessage.requestId : NodeMessage → Option RequestId
  | .response id .. => id
  | _ => none

def NodeMessage.streamId : NodeMessage → Option RequestId
  | .streamData id _ | .streamControl id .. | .streamClose id _ | .streamError id _ _ => id
  | .response .. | .other => none

/-- The stream a message ends. -/
def NodeMessage.endedStream : NodeMessage → Option RequestId
  | .streamClose id _ | .streamError id _ _ => id
  | _ => none

def NodeMessage.WellFormed : NodeMessage → Prop
  | .response id _ result _ _ => id.isSome ∧ result.isSome
  | .streamData id data =>
    id.isSome ∧ ∃ chunk, data = some chunk ∧ chunk.length ≤ MAX_NODE_STREAM_CHUNK_BYTES
  | .streamControl id kind revision available mode =>
    id.isSome ∧ (NodeConnection.paneModeControl kind revision available mode).isSome
  | .streamClose id result => id.isSome ∧ result.isSome
  | .streamError id _ _ => id.isSome
  | .other => False

/-- A well-formed message answers a request or belongs to a stream. -/
theorem NodeMessage.WellFormed.cases {m : NodeMessage} (h : m.WellFormed) :
    (∃ id ok result error code, m = .response (some id) ok (some result) error code) ∨
      ∃ sid, m.streamId = some sid ∧ m.requestId = none ∧
        (m.endedStream = none ∨ m.endedStream = some sid) := by
  cases m with
  | response id ok result error code =>
    obtain ⟨id, rfl⟩ := Option.isSome_iff_exists.mp h.1
    obtain ⟨result, rfl⟩ := Option.isSome_iff_exists.mp h.2
    exact .inl ⟨id, ok, result, error, code, rfl⟩
  | streamData id _ | streamControl id =>
    obtain ⟨sid, rfl⟩ := Option.isSome_iff_exists.mp h.1
    exact .inr ⟨sid, rfl, rfl, .inl rfl⟩
  | streamClose id _ =>
    obtain ⟨sid, rfl⟩ := Option.isSome_iff_exists.mp h.1
    exact .inr ⟨sid, rfl, rfl, .inr rfl⟩
  | streamError id =>
    obtain ⟨sid, rfl⟩ := Option.isSome_iff_exists.mp h
    exact .inr ⟨sid, rfl, rfl, .inr rfl⟩
  | other => exact absurd h (by simp [NodeMessage.WellFormed])

/-! ## 2. The calls on the Core, the Node, and the channel between them

`Link` adds to the connection where each `request` coroutine stands, what the Node has seen
and said, and the channel to the Core. Four fields only record history for the statements:
the two logs of tombstones, `abandoned` and `issuedStreams`. -/

/-- Where the coroutine of a request is. A timeout is a cancellation. -/
inductive RequestPhase where
  | idle
  | sending
  | awaiting
  | finished
  deriving DecidableEq

structure Link where
  conn : NodeConnection
  phase : RequestId → RequestPhase
  /-- The stream that the request's `open_stream` opens. -/
  opens : RequestId → Option RequestId
  delivered : RequestId → Bool
  answered : RequestId → Bool
  /-- The Node has opened the stream and not yet ended it. -/
  nodeStreams : RequestId → Bool
  toCore : List NodeMessage
  /-- Every tombstone there has been, newest first. -/
  closedRequestLog : List RequestId
  closedStreamLog : List RequestId
  issuedStreams : RequestId → Bool
  /-- Streams that an `open_stream` took out of the registry on its way out. -/
  abandoned : RequestId → Bool

namespace Link

def initial : Link :=
  ⟨.new, fun _ => .idle, fun _ => none, fun _ => false, fun _ => false, fun _ => false, [],
    [], [], fun _ => false, fun _ => false⟩

/-- `request`, or `open_stream` with its `request`, up to the `send`. -/
def issue (s : Link) (id : RequestId) (stream : Option RequestId) : Link :=
  let s := { s with conn := s.conn.registerRequest id,
                    phase := Function.update s.phase id .sending,
                    opens := Function.update s.opens id stream }
  match stream with
  | none => s
  | some sid =>
    { s with conn := s.conn.registerStream sid,
             issuedStreams := Function.update s.issuedStreams sid true }

/-- The end of a `request` coroutine. -/
def finish (s : Link) (id : RequestId) : Link :=
  { s with conn := s.conn.forgetRequest id, phase := Function.update s.phase id .finished }

/-- The `except BaseException` of `open_stream`: pop the stream it was opening. -/
def abandonStream (s : Link) (id : RequestId) : Link :=
  match s.opens id with
  | none => s
  | some sid =>
    match s.conn.streams sid with
    | none => s
    | some _ =>
      { s with conn := s.conn.popStream sid,
               abandoned := Function.update s.abandoned sid true }

/-- A cancelled `request`: the tombstone, the `finally`, and the `open_stream` around it. -/
def cancel (s : Link) (id : RequestId) : Link :=
  ({ s with conn := s.conn.buryRequest id,
            closedRequestLog := id :: s.closedRequestLog }.finish id).abandonStream id

/-- `drop_stream`, with its tombstone recorded. -/
def dropStream (s : Link) (sid : RequestId) : Link :=
  match s.conn.streams sid with
  | none => s
  | some _ => { s with conn := s.conn.dropStream sid, closedStreamLog := sid :: s.closedStreamLog }

/-- The resumed `request` has its result, and `open_stream` looks for the stream's id in it;
    it pops the stream after an error response and after an answer for another stream. -/
def resume (s : Link) (id : RequestId) (result : Except NodeError JsonObject) : Link :=
  match s.opens id, result with
  | some sid, .ok fields =>
    if fields.lookup "stream_id" = some (.str sid.hex) then s.finish id
    else (s.finish id).abandonStream id
  | _, _ => (s.finish id).abandonStream id

/-- The Node's answer, which opens the stream if it says so. -/
def respond (s : Link) (id : RequestId) (ok : Bool) (result : JsonObject)
    (error code : String) : Link :=
  { s with
    answered := Function.update s.answered id true,
    toCore := s.toCore ++ [.response (some id) ok (some result) error code],
    nodeStreams :=
      match ok, s.opens id with
      | true, some sid => Function.update s.nodeStreams sid true
      | _, _ => s.nodeStreams }

/-- The reader hands a message to `dispatch`. -/
def dispatched (s : Link) (m : NodeMessage) (rest : List NodeMessage) : Link :=
  { s with
    conn := (s.conn.dispatch m).1,
    toCore := rest,
    closedStreamLog :=
      match m.endedStream with
      | some sid =>
        if (s.conn.streams sid).isSome then sid :: s.closedStreamLog else s.closedStreamLog
      | none => s.closedStreamLog }

end Link

/-- What can happen next. The first group is the Core's callers, then the Node, then the
    connection's reader. -/
inductive LinkAct where
  | issue (id : RequestId) (stream : Option RequestId)
  | deliver (id : RequestId)
  | sent (id : RequestId)
  | sendFailed (id : RequestId)
  | cancel (id : RequestId)
  | resume (id : RequestId)
  | dropStream (sid : RequestId)
  | respond (id : RequestId)
  | streamMessage (m : NodeMessage)
  | dispatch
  | close

/-- One step. The Node conforms: it answers a request once and after it has seen it, and
    sends well-formed messages for a stream between opening and ending it. A request that
    could not be sent never reaches it; one that was cancelled may. -/
inductive LinkStep (s : Link) : LinkAct → Link → Prop
  | issue (id : RequestId) (stream : Option RequestId) (fresh : s.phase id = .idle)
      (freshStream : ∀ sid, stream = some sid → s.issuedStreams sid = false) :
      LinkStep s (.issue id stream) (s.issue id stream)
  | deliver (id : RequestId) (first : s.delivered id = false)
      (underWay : s.phase id = .sending ∨ s.phase id = .finished ∧ id ∈ s.closedRequestLog) :
      LinkStep s (.deliver id) { s with delivered := Function.update s.delivered id true }
  | sent (id : RequestId) (phase : s.phase id = .sending) (delivered : s.delivered id = true) :
      LinkStep s (.sent id) { s with phase := Function.update s.phase id .awaiting }
  | sendFailed (id : RequestId) (phase : s.phase id = .sending)
      (lost : s.delivered id = false) :
      LinkStep s (.sendFailed id) ((s.finish id).abandonStream id)
  | cancel (id : RequestId) (phase : s.phase id = .sending ∨ s.phase id = .awaiting) :
      LinkStep s (.cancel id) (s.cancel id)
  | resume (id : RequestId) {result : Except NodeError JsonObject}
      (phase : s.phase id = .awaiting) (done : s.conn.pending id = some (.done result)) :
      LinkStep s (.resume id) (s.resume id result)
  | dropStream (sid : RequestId) : LinkStep s (.dropStream sid) (s.dropStream sid)
  | respond (id : RequestId) (ok : Bool) (result : JsonObject) (error code : String)
      (seen : s.delivered id = true) (once : s.answered id = false) :
      LinkStep s (.respond id) (s.respond id ok result error code)
  | streamMessage (m : NodeMessage) {sid : RequestId} (target : m.streamId = some sid)
      (wellFormed : m.WellFormed) (opened : s.nodeStreams sid = true) :
      LinkStep s (.streamMessage m)
        { s with toCore := s.toCore ++ [m],
                 nodeStreams := if m.endedStream = none then s.nodeStreams
                                else Function.update s.nodeStreams sid false }
  | dispatch {m : NodeMessage} {rest : List NodeMessage} (head : s.toCore = m :: rest)
      (fine : ∀ e, (s.conn.dispatch m).2 = some e → e.isProtocol = false) :
      LinkStep s .dispatch (s.dispatched m rest)
  | close : LinkStep s .close { s with conn := s.conn.close }

/-! ## 3. What `dispatch` does with a stream message -/

namespace NodeConnection

variable {c : NodeConnection} {m : NodeMessage} {sid : RequestId} {stream : NodeStream}

theorem withStream_found {body : NodeStream → NodeConnection × Option NodeError}
    (h : c.streams sid = some stream) : c.withStream (some sid) body = body stream := by
  simp [withStream, findStream, validateRequestId, Except.bind, h]

theorem withStream_tombstone {body : NodeStream → NodeConnection × Option NodeError}
    (h : c.streams sid = none) (hmem : sid ∈ c.closedStreams.items) :
    c.withStream (some sid) body = (c, none) := by
  simp [withStream, findStream, validateRequestId, Except.bind, h, hmem]

/-- A found stream takes the message; a message that ends it also drops it. -/
theorem dispatch_found (hm : m.WellFormed) (hsid : m.streamId = some sid)
    (h : c.streams sid = some stream) (hid : stream.streamId = sid) :
    ∃ stream', stream'.streamId = sid ∧
      (c.dispatch m).1 =
        (if m.endedStream = none then c.setStream stream'
         else (c.setStream stream').dropStream sid) ∧
      ∀ e, (c.dispatch m).2 = some e → e.isProtocol = false := by
  have event (e : StreamEvent) : (stream.feedEvent e).1.streamId = sid ∧
      ∀ err, (stream.feedEvent e).2 = some err → err.isProtocol = false := by
    obtain ⟨hkeep, herr⟩ := stream.feedEvent_spec e
    exact ⟨hkeep.trans hid, fun err he => by rw [herr err he]; rfl⟩
  cases m with
  | response | other => exact absurd hsid (by simp [NodeMessage.streamId])
  | streamData id data =>
    obtain rfl : id = some sid := hsid
    obtain ⟨-, chunk, rfl, hlen⟩ := hm
    refine ⟨_, (event (.data chunk)).1, ?_⟩
    simp only [dispatch, dispatchStreamData, withStream_found h, if_neg hlen.not_gt,
      NodeStream.feedData, NodeMessage.endedStream, if_true, true_and]
    exact (event (.data chunk)).2
  | streamControl id kind revision available mode =>
    obtain rfl : id = some sid := hsid
    obtain ⟨control, hcontrol⟩ := Option.isSome_iff_exists.mp hm.2
    refine ⟨_, (event (.control control)).1, ?_⟩
    simp only [dispatch, dispatchStreamControl, withStream_found h, hcontrol,
      NodeStream.feedControl, NodeMessage.endedStream, if_true, true_and]
    exact (event (.control control)).2
  | streamClose id result =>
    obtain rfl : id = some sid := hsid
    obtain ⟨result, rfl⟩ := Option.isSome_iff_exists.mp hm.2
    refine ⟨stream.feedEnd result, NodeStream.feedEnd_streamId.trans hid, ?_⟩
    simp [dispatch, withStream_found h, NodeMessage.endedStream, hid]
  | streamError id error code =>
    obtain rfl : id = some sid := hsid
    refine ⟨stream.feedError (.ofStream error code), NodeStream.feedError_streamId.trans hid, ?_⟩
    simp [dispatch, withStream_found h, NodeMessage.endedStream, hid]

/-- A message for a stream that is gone changes nothing, whether it raises or not. -/
theorem dispatch_missing (hsid : m.streamId = some sid) (h : c.streams sid = none) :
    (c.dispatch m).1 = c ∧ (sid ∈ c.closedStreams.items → (c.dispatch m).2 = none) := by
  have missing (body : NodeStream → NodeConnection × Option NodeError) :
      (c.withStream (some sid) body).1 = c ∧
        (sid ∈ c.closedStreams.items → (c.withStream (some sid) body).2 = none) := by
    refine ⟨?_, fun hmem => by rw [withStream_tombstone h hmem]⟩
    by_cases hmem : sid ∈ c.closedStreams.items
    · rw [withStream_tombstone h hmem]
    · simp [withStream, findStream, validateRequestId, Except.bind, h, hmem]
  cases m with
  | response | other => exact absurd hsid (by simp [NodeMessage.streamId])
  | streamData id _ | streamControl id | streamClose id _ | streamError id =>
    obtain rfl : id = some sid := hsid
    exact missing _

/-- A response for an id that is neither waited for nor in a tombstone. -/
theorem dispatch_unknown_response {id : RequestId} {ok : Bool} {result : Option JsonObject}
    {error code : String} (hp : c.pending id = none) (hmem : id ∉ c.closedRequests.items) :
    (c.dispatch (.response (some id) ok result error code)).2 =
      some (.protocol "Unknown Node response" "response_unknown") := by
  simp [dispatch, dispatchResponse, validateRequestId, hp, hmem]

/-- `drop_stream` of a stream that is there. -/
theorem dropStream_found (h : c.streams sid = some stream) :
    c.dropStream sid =
      { c.popStream sid with closedStreams := c.closedStreams.push sid } := by
  simp [dropStream, h]

end NodeConnection

/-! ## 4. Requests

What the requests of a link depend on, apart from everything about streams, and the invariant
that ties a response still to come to the future that waits for it, or to a tombstone. -/

structure RequestView where
  ring : Ring RequestId NODE_CLOSED_REQUEST_TOMBSTONES
  log : List RequestId
  responses : List RequestId
  answered : RequestId → Bool
  phase : RequestId → RequestPhase
  pending : RequestId → Option Future
  delivered : RequestId → Bool

def Link.requests (s : Link) : RequestView where
  ring := s.conn.closedRequests
  log := s.closedRequestLog
  responses := s.toCore.filterMap NodeMessage.requestId
  answered := s.answered
  phase := s.phase
  pending := s.conn.pending
  delivered := s.delivered

namespace RequestView

/-- The response has not been given to the connection yet. -/
def Outstanding (v : RequestView) (id : RequestId) : Prop :=
  v.answered id = false ∨ id ∈ v.responses

structure Ok (v : RequestView) : Prop where
  remembered : v.ring.Holds v.log
  once : v.responses.Nodup
  answered : ∀ id ∈ v.responses, v.answered id = true
  awaited : ∀ id, v.Outstanding id → v.phase id = .sending ∨ v.phase id = .awaiting →
    v.pending id = some .waiting
  buried : ∀ id, v.Outstanding id → v.delivered id = true → v.phase id = .finished → id ∈ v.log
  begun : ∀ id, v.delivered id = true → v.phase id ≠ .idle
  seen : ∀ id, v.answered id = true → v.delivered id = true

variable {v : RequestView} {id : RequestId}

theorem Ok.initial : Ok Link.initial.requests where
  remembered := Ring.holds_empty
  once := List.nodup_nil
  answered _ h := absurd h (by simp [Link.requests, Link.initial])
  awaited _ _ h := absurd h (by simp [Link.requests, Link.initial])
  buried _ _ h := absurd h (by simp [Link.requests, Link.initial])
  begun _ h := absurd h (by simp [Link.requests, Link.initial])
  seen _ h := absurd h (by simp [Link.requests, Link.initial])

/-- A request whose phase changes is still under way. -/
theorem Ok.underWay {i : RequestId} {phase : RequestPhase} (h : v.Ok) (hphase : phase ≠ .idle)
    (hd : v.delivered i = true) : Function.update v.phase id phase i ≠ .idle := by
  by_cases hi : i = id
  · rw [hi, Function.update_self]
    exact hphase
  · rw [Function.update_of_ne hi]
    exact h.begun i hd

theorem Ok.issue (h : v.Ok) :
    Ok { v with pending := Function.update v.pending id (some .waiting),
                phase := Function.update v.phase id .sending } where
  remembered := h.remembered
  once := h.once
  answered := h.answered
  awaited i out hp := by
    by_cases hi : i = id
    · simp [hi]
    · simp only [Function.update_of_ne hi] at hp ⊢
      exact h.awaited i out hp
  buried i out hd hp := by
    by_cases hi : i = id
    · simp [hi] at hp
    · simp only [Function.update_of_ne hi] at hp
      exact h.buried i out hd hp
  begun i hd := h.underWay (by decide) hd
  seen := h.seen

theorem Ok.deliver (h : v.Ok)
    (underWay : v.phase id = .sending ∨ v.phase id = .finished ∧ id ∈ v.log) :
    Ok { v with delivered := Function.update v.delivered id true } where
  remembered := h.remembered
  once := h.once
  answered := h.answered
  awaited := h.awaited
  buried i out hd hp := by
    by_cases hi : i = id
    · subst hi
      rcases underWay with hs | ⟨-, hmem⟩
      · exact absurd (hs.symm.trans hp) (by simp)
      · exact hmem
    · simp only [Function.update_of_ne hi] at hd
      exact h.buried i out hd hp
  begun i hd := by
    by_cases hi : i = id
    · subst hi
      rcases underWay with hs | ⟨hs, -⟩
      · simp [hs]
      · simp [hs]
    · simp only [Function.update_of_ne hi] at hd
      exact h.begun i hd
  seen i ha := by
    by_cases hi : i = id
    · simp [hi]
    · simpa only [Function.update_of_ne hi] using h.seen i ha

theorem Ok.sent (h : v.Ok) (phase : v.phase id = .sending) :
    Ok { v with phase := Function.update v.phase id .awaiting } where
  remembered := h.remembered
  once := h.once
  answered := h.answered
  awaited i out hp := by
    by_cases hi : i = id
    · subst hi
      exact h.awaited i out (.inl phase)
    · simp only [Function.update_of_ne hi] at hp
      exact h.awaited i out hp
  buried i out hd hp := by
    by_cases hi : i = id
    · simp [hi] at hp
    · simp only [Function.update_of_ne hi] at hp
      exact h.buried i out hd hp
  begun i hd := h.underWay (by decide) hd
  seen := h.seen

/-- A coroutine may end once no response can come for it any more, or a tombstone waits. -/
theorem Ok.finish (h : v.Ok)
    (settled : v.Outstanding id → v.delivered id = true → id ∈ v.log) :
    Ok { v with pending := Function.update v.pending id none,
                phase := Function.update v.phase id .finished } where
  remembered := h.remembered
  once := h.once
  answered := h.answered
  awaited i out hp := by
    by_cases hi : i = id
    · simp [hi] at hp
    · simp only [Function.update_of_ne hi] at hp ⊢
      exact h.awaited i out hp
  buried i out hd hp := by
    by_cases hi : i = id
    · subst hi
      exact settled out hd
    · simp only [Function.update_of_ne hi] at hp
      exact h.buried i out hd hp
  begun i hd := h.underWay (by decide) hd
  seen := h.seen

theorem Ok.bury (h : v.Ok) : Ok { v with ring := v.ring.push id, log := id :: v.log } where
  remembered := h.remembered.push id
  once := h.once
  answered := h.answered
  awaited := h.awaited
  buried i out hd hp := List.mem_cons_of_mem _ (h.buried i out hd hp)
  begun := h.begun
  seen := h.seen

/-- The one answer goes on its way. -/
theorem Ok.respond (h : v.Ok) (seen : v.delivered id = true) (once : v.answered id = false) :
    Ok { v with answered := Function.update v.answered id true,
                responses := v.responses ++ [id] } where
  remembered := h.remembered
  once := by
    have hnot : id ∉ v.responses := fun hmem =>
      absurd ((h.answered id hmem).symm.trans once) (by simp)
    simpa [List.nodup_append] using ⟨h.once, fun i hi heq => hnot (heq ▸ hi)⟩
  answered i hi := by
    by_cases heq : i = id
    · simp [heq]
    · have hmem : i ∈ v.responses := by simpa [heq] using hi
      simpa only [Function.update_of_ne heq] using h.answered i hmem
  awaited i out hp := by
    by_cases heq : i = id
    · subst heq
      exact h.awaited i (.inl once) hp
    · refine h.awaited i ?_ hp
      simpa [Outstanding, Function.update_of_ne heq, heq] using out
  buried i out hd hp := by
    by_cases heq : i = id
    · subst heq
      exact h.buried i (.inl once) hd hp
    · refine h.buried i ?_ hd hp
      simpa [Outstanding, Function.update_of_ne heq, heq] using out
  begun := h.begun
  seen i ha := by
    by_cases heq : i = id
    · rw [heq]; exact seen
    · exact h.seen i (by simpa only [Function.update_of_ne heq] using ha)

/-- The connection takes a response: nothing else waits for that id. -/
theorem Ok.take {rest : List RequestId} {pending : RequestId → Option Future} (h : v.Ok)
    (head : v.responses = id :: rest) (others : ∀ i, i ≠ id → pending i = v.pending i) :
    Ok { v with responses := rest, pending } := by
  have hnodup := h.once
  rw [head, List.nodup_cons] at hnodup
  have hans : v.answered id = true := h.answered id (by simp [head])
  have hout (i : RequestId) (out : v.answered i = false ∨ i ∈ rest) :
      i ≠ id ∧ v.Outstanding i := by
    rcases out with ha | hm
    · exact ⟨fun heq => absurd ((heq ▸ ha).symm.trans hans) (by simp), .inl ha⟩
    · exact ⟨fun heq => hnodup.1 (heq ▸ hm), .inr (by simp [head, hm])⟩
  exact
    { remembered := h.remembered
      once := hnodup.2
      answered := fun i hi => h.answered i (by simp [head, hi])
      awaited := fun i out hp => (others i (hout i out).1).trans (h.awaited i (hout i out).2 hp)
      buried := fun i out hd hp => h.buried i (hout i out).2 hd hp
      begun := h.begun
      seen := h.seen }

/-- **A response in the channel is expected.** Its future waits, or its id was buried. -/
theorem Ok.expected (h : v.Ok) (hmem : id ∈ v.responses) :
    v.pending id = some .waiting ∨ id ∈ v.log := by
  have hseen := h.seen id (h.answered id hmem)
  cases hp : v.phase id with
  | idle => exact absurd hp (h.begun id hseen)
  | sending => exact .inl (h.awaited id (.inr hmem) (.inl hp))
  | awaiting => exact .inl (h.awaited id (.inr hmem) (.inr hp))
  | finished => exact .inr (h.buried id (.inr hmem) hseen hp)

end RequestView

/-! ## 5. Streams -/

structure RegistryView where
  ring : Ring RequestId NODE_CLOSED_STREAM_TOMBSTONES
  log : List RequestId
  streams : RequestId → Option NodeStream
  opens : RequestId → Option RequestId
  issued : RequestId → Bool
  abandoned : RequestId → Bool
  nodeStreams : RequestId → Bool
  toCore : List NodeMessage

def Link.registry (s : Link) : RegistryView where
  ring := s.conn.closedStreams
  log := s.closedStreamLog
  streams := s.conn.streams
  opens := s.opens
  issued := s.issuedStreams
  abandoned := s.abandoned
  nodeStreams := s.nodeStreams
  toCore := s.toCore

namespace RegistryView

/-- Every stream issued is in the registry, buried, or abandoned; and the Node speaks of no
    other. -/
structure Ok (v : RegistryView) : Prop where
  remembered : v.ring.Holds v.log
  ids : ∀ sid stream, v.streams sid = some stream → stream.streamId = sid
  accounted : ∀ sid, v.issued sid = true →
    (∃ stream, v.streams sid = some stream) ∨ sid ∈ v.log ∨ v.abandoned sid = true
  opens : ∀ id sid, v.opens id = some sid → v.issued sid = true
  opened : ∀ sid, v.nodeStreams sid = true → v.issued sid = true
  inFlight : ∀ m ∈ v.toCore, ∀ sid, m.streamId = some sid → v.issued sid = true
  wellFormed : ∀ m ∈ v.toCore, m.WellFormed

variable {v : RegistryView} {sid : RequestId} {stream : NodeStream}

theorem Ok.initial : Ok Link.initial.registry where
  remembered := Ring.holds_empty
  ids _ _ h := absurd h (by simp [Link.registry, Link.initial, NodeConnection.new])
  accounted _ h := absurd h (by simp [Link.registry, Link.initial])
  opens _ _ h := absurd h (by simp [Link.registry, Link.initial])
  opened _ h := absurd h (by simp [Link.registry, Link.initial])
  inFlight _ h := absurd h (by simp [Link.registry, Link.initial])
  wellFormed _ h := absurd h (by simp [Link.registry, Link.initial])

/-- A request that opens no stream. -/
theorem Ok.issueNone {id : RequestId} (h : v.Ok) :
    Ok { v with opens := Function.update v.opens id none } where
  remembered := h.remembered
  ids := h.ids
  accounted := h.accounted
  opens i sid hi := by
    by_cases heq : i = id
    · simp [heq] at hi
    · exact h.opens i sid (by simpa only [Function.update_of_ne heq] using hi)
  opened := h.opened
  inFlight := h.inFlight
  wellFormed := h.wellFormed

theorem Ok.issueStream {id : RequestId} (h : v.Ok) :
    Ok { v with opens := Function.update v.opens id (some sid),
                streams := Function.update v.streams sid (some (.new sid)),
                issued := Function.update v.issued sid true } := by
  have grow (i : RequestId) (hi : v.issued i = true) :
      Function.update v.issued sid true i = true := by
    by_cases heq : i = sid
    · simp [heq]
    · simpa only [Function.update_of_ne heq] using hi
  refine ⟨h.remembered, fun i st hst => ?_, fun i hi => ?_, fun i sid' hi => ?_,
    fun i hi => grow i (h.opened i hi), fun m hm i hi => grow i (h.inFlight m hm i hi),
    h.wellFormed⟩
  · by_cases heq : i = sid
    · subst heq
      simp only [Function.update_self, Option.some.injEq] at hst
      rw [← hst]; rfl
    · exact h.ids i st (by simpa only [Function.update_of_ne heq] using hst)
  · by_cases heq : i = sid
    · exact .inl ⟨.new sid, by simp [heq]⟩
    · simp only [Function.update_of_ne heq] at hi ⊢
      exact h.accounted i hi
  · by_cases heq : i = id
    · subst heq
      obtain rfl : sid = sid' := by simpa using hi
      simp
    · exact grow sid' (h.opens i sid' (by simpa only [Function.update_of_ne heq] using hi))

theorem Ok.abandon (h : v.Ok) :
    Ok { v with streams := Function.update v.streams sid none,
                abandoned := Function.update v.abandoned sid true } := by
  refine ⟨h.remembered, fun i st hst => ?_, fun i hi => ?_, h.opens, h.opened, h.inFlight,
    h.wellFormed⟩
  · by_cases heq : i = sid
    · simp [heq] at hst
    · exact h.ids i st (by simpa only [Function.update_of_ne heq] using hst)
  · by_cases heq : i = sid
    · exact .inr (.inr (by simp [heq]))
    · simp only [Function.update_of_ne heq]
      exact h.accounted i hi

theorem Ok.drop (h : v.Ok) :
    Ok { v with streams := Function.update v.streams sid none,
                ring := v.ring.push sid, log := sid :: v.log } := by
  refine ⟨h.remembered.push sid, fun i st hst => ?_, fun i hi => ?_, h.opens, h.opened,
    h.inFlight, h.wellFormed⟩
  · by_cases heq : i = sid
    · simp [heq] at hst
    · exact h.ids i st (by simpa only [Function.update_of_ne heq] using hst)
  · by_cases heq : i = sid
    · exact .inr (.inl (by simp [heq]))
    · simp only [Function.update_of_ne heq]
      exact (h.accounted i hi).imp_right fun hr => hr.imp_left (List.mem_cons_of_mem _)

/-- The stream found takes a message. -/
theorem Ok.set (h : v.Ok) (hid : stream.streamId = sid) :
    Ok { v with streams := Function.update v.streams sid (some stream) } := by
  refine ⟨h.remembered, fun i st hst => ?_, fun i hi => ?_, h.opens, h.opened, h.inFlight,
    h.wellFormed⟩
  · by_cases heq : i = sid
    · subst heq
      simp only [Function.update_self, Option.some.injEq] at hst
      rw [← hst]; exact hid
    · exact h.ids i st (by simpa only [Function.update_of_ne heq] using hst)
  · by_cases heq : i = sid
    · exact .inl ⟨stream, by simp [heq]⟩
    · simp only [Function.update_of_ne heq]
      exact h.accounted i hi

/-- The Node sends something about a stream it may speak of, or nothing about streams. -/
theorem Ok.send {m : NodeMessage} {nodeStreams : RequestId → Bool} (h : v.Ok)
    (wellFormed : m.WellFormed) (issued : ∀ sid, m.streamId = some sid → v.issued sid = true)
    (opened : ∀ sid, nodeStreams sid = true → v.issued sid = true) :
    Ok { v with toCore := v.toCore ++ [m], nodeStreams } := by
  refine ⟨h.remembered, h.ids, h.accounted, h.opens, opened, fun m' hm => ?_, fun m' hm => ?_⟩
  · rcases List.mem_append.mp hm with hm | hm
    · exact h.inFlight m' hm
    · rw [List.mem_singleton.mp hm]; exact issued
  · rcases List.mem_append.mp hm with hm | hm
    · exact h.wellFormed m' hm
    · rw [List.mem_singleton.mp hm]; exact wellFormed

theorem Ok.take {m : NodeMessage} {rest : List NodeMessage} (h : v.Ok)
    (head : v.toCore = m :: rest) : Ok { v with toCore := rest } :=
  ⟨h.remembered, h.ids, h.accounted, h.opens, h.opened,
    fun m' hm => h.inFlight m' (by simp [head, hm]),
    fun m' hm => h.wellFormed m' (by simp [head, hm])⟩

end RegistryView

/-! ## 6. A step of the link -/

/-- `s` and `t` differ only in what concerns streams. -/
def SameRequests (c d : NodeConnection) : Prop :=
  d.pending = c.pending ∧ d.closedRequests = c.closedRequests ∧ d.closed = c.closed

theorem NodeConnection.dropStream_same (c : NodeConnection) (sid : RequestId) :
    SameRequests c (c.dropStream sid) := by
  unfold dropStream
  split
  · exact ⟨rfl, rfl, rfl⟩
  · exact ⟨rfl, rfl, rfl⟩

theorem NodeConnection.dispatch_same {c : NodeConnection} {m : NodeMessage} {sid : RequestId}
    (hm : m.WellFormed) (hsid : m.streamId = some sid)
    (ids : ∀ stream, c.streams sid = some stream → stream.streamId = sid) :
    SameRequests c (c.dispatch m).1 := by
  cases h : c.streams sid with
  | none => rw [(dispatch_missing hsid h).1]; exact ⟨rfl, rfl, rfl⟩
  | some stream =>
    obtain ⟨stream', -, heq, -⟩ := dispatch_found hm hsid h (ids stream h)
    rw [heq]
    split
    · exact ⟨rfl, rfl, rfl⟩
    · exact dropStream_same _ _

/-- A response touches one future and nothing else. -/
theorem NodeConnection.dispatchResponse_frame (c : NodeConnection) (id : RequestId) (ok : Bool)
    (result : Option JsonObject) (error code : String) :
    ∃ pending, (c.dispatchResponse (some id) ok result error code).1 = { c with pending } ∧
      ∀ i, i ≠ id → pending i = c.pending i := by
  have updated (f : Future) : ∀ i, i ≠ id →
      Function.update c.pending id (some f) i = c.pending i :=
    fun i hi => Function.update_of_ne hi _ _
  unfold dispatchResponse validateRequestId
  simp only
  split
  · split
    · split
      · exact ⟨_, rfl, updated _⟩
      · exact ⟨c.pending, rfl, fun _ _ => rfl⟩
    · exact ⟨_, rfl, updated _⟩
  all_goals
    split
    · exact ⟨c.pending, rfl, fun _ _ => rfl⟩
    · exact ⟨c.pending, rfl, fun _ _ => rfl⟩

namespace Link

variable {s : Link} {id sid : RequestId}

theorem abandonStream_requests : (s.abandonStream id).requests = s.requests := by
  unfold abandonStream
  split
  · rfl
  · split
    · rfl
    · rfl

theorem abandonStream_registry (h : s.registry.Ok) : (s.abandonStream id).registry.Ok := by
  unfold abandonStream
  split
  · exact h
  · split
    · exact h
    · exact h.abandon

theorem dropStream_requests : (s.dropStream sid).requests = s.requests := by
  unfold dropStream
  split
  · rfl
  · obtain ⟨hp, hr, -⟩ := s.conn.dropStream_same sid
    simp only [requests, hp, hr]

theorem dropStream_registry (h : s.registry.Ok) : (s.dropStream sid).registry.Ok := by
  unfold dropStream
  split
  · exact h
  · rename_i stream hs
    simpa only [registry, NodeConnection.dropStream_found hs, NodeConnection.popStream]
      using h.drop

/-- However `open_stream` ends, its `request` has ended before. -/
theorem resume_cases (result : Except NodeError JsonObject) :
    s.resume id result = s.finish id ∨ s.resume id result = (s.finish id).abandonStream id := by
  unfold resume
  split
  · split
    · exact .inl rfl
    · exact .inr rfl
  · exact .inr rfl

theorem issue_requests (h : s.requests.Ok) (stream : Option RequestId) :
    (s.issue id stream).requests.Ok := by
  cases stream with
  | none => exact h.issue
  | some sid => exact h.issue

theorem issue_registry (h : s.registry.Ok) (stream : Option RequestId) :
    (s.issue id stream).registry.Ok := by
  cases stream with
  | none => exact h.issueNone
  | some sid => exact h.issueStream

theorem dispatched_requests {m : NodeMessage} {rest : List NodeMessage} (hr : s.requests.Ok)
    (hs : s.registry.Ok) (head : s.toCore = m :: rest) : (s.dispatched m rest).requests.Ok := by
  have hm : m.WellFormed := hs.wellFormed m (by simp [registry, head])
  rcases hm.cases with ⟨i, ok, result, error, code, rfl⟩ | ⟨sid, hsid, hid, -⟩
  · obtain ⟨pending, hc, hothers⟩ :=
      s.conn.dispatchResponse_frame i ok (some result) error code
    have hhead : s.requests.responses = i :: rest.filterMap NodeMessage.requestId := by
      simp [requests, head, NodeMessage.requestId]
    have := hr.take hhead hothers
    simpa only [requests, dispatched, NodeConnection.dispatch, hc] using this
  · obtain ⟨hp, hring, -⟩ := NodeConnection.dispatch_same hm hsid (hs.ids sid)
    have hview : (s.dispatched m rest).requests = s.requests := by
      simp only [requests, dispatched, hp, hring, head, List.filterMap_cons, hid]
    rw [hview]
    exact hr

theorem dispatched_registry {m : NodeMessage} {rest : List NodeMessage} (hs : s.registry.Ok)
    (head : s.toCore = m :: rest) : (s.dispatched m rest).registry.Ok := by
  have hm : m.WellFormed := hs.wellFormed m (by simp [registry, head])
  have htake := hs.take head
  rcases hm.cases with ⟨i, ok, result, error, code, rfl⟩ | ⟨sid, hsid, -, hended⟩
  · obtain ⟨pending, hc, -⟩ := s.conn.dispatchResponse_frame i ok (some result) error code
    simpa only [registry, dispatched, NodeConnection.dispatch, hc, NodeMessage.endedStream]
      using htake
  · cases h : s.conn.streams sid with
  | none =>
    have hc := (NodeConnection.dispatch_missing hsid h).1
    rcases hended with he | he
    · simpa only [registry, dispatched, hc, he] using htake
    · simpa only [registry, dispatched, hc, he, h, Option.isSome_none, Bool.false_eq_true,
        if_false] using htake
  | some stream =>
    obtain ⟨stream', hid, hc, -⟩ :=
      NodeConnection.dispatch_found hm hsid h (hs.ids sid stream h)
    rcases hended with he | he
    · rw [if_pos he] at hc
      simpa only [registry, dispatched, hc, he, NodeConnection.setStream, hid] using htake.set hid
    · rw [if_neg (by simp [he])] at hc
      have hset : (s.conn.setStream stream').streams sid = some stream' := by
        simp [NodeConnection.setStream, hid]
      rw [NodeConnection.dropStream_found hset] at hc
      simp only [registry, dispatched, hc, he, h, Option.isSome_some, if_true,
        NodeConnection.popStream, NodeConnection.setStream, hid]
      exact (htake.set hid).drop

end Link

/-- The two invariants, for as long as the connection is open. -/
structure LinkInv (s : Link) : Prop where
  requests : s.requests.Ok
  registry : s.registry.Ok

/-- **One step keeps the invariant**, while the connection is open. -/
theorem LinkInv.step {s t : Link} {act : LinkAct} (inv : LinkInv s) (step : LinkStep s act t)
    (live : s.conn.closed = false) (hopen : t.conn.closed = false) : LinkInv t := by
  obtain ⟨hr, hs⟩ := inv
  have finish (id : RequestId)
      (settled : s.requests.Outstanding id → s.requests.delivered id = true →
        id ∈ s.requests.log) : (s.finish id).requests.Ok := hr.finish settled
  cases step with
  | issue id stream => exact ⟨Link.issue_requests hr stream, Link.issue_registry hs stream⟩
  | deliver id first underWay => exact ⟨hr.deliver underWay, hs⟩
  | sent id phase delivered => exact ⟨hr.sent phase, hs⟩
  | sendFailed id phase lost =>
    refine ⟨?_, Link.abandonStream_registry hs⟩
    rw [Link.abandonStream_requests]
    exact finish id fun _ hd => absurd (lost.symm.trans hd) (by simp)
  | cancel id phase =>
    refine ⟨?_, Link.abandonStream_registry hs⟩
    rw [Link.cancel, Link.abandonStream_requests]
    exact hr.bury.finish fun _ _ => List.mem_cons_self
  | @resume id result phase done =>
    -- a future that is done has had its response
    have hfinish : (s.finish id).requests.Ok := by
      refine finish id fun out _ => ?_
      exact absurd (done.symm.trans (hr.awaited id out (.inr phase))) (by simp)
    rcases s.resume_cases result with he | he
    · rw [he]; exact ⟨hfinish, hs⟩
    · rw [he]
      refine ⟨?_, Link.abandonStream_registry hs⟩
      rw [Link.abandonStream_requests]
      exact hfinish
  | dropStream sid =>
    refine ⟨?_, Link.dropStream_registry hs⟩
    rw [Link.dropStream_requests]
    exact hr
  | respond id ok result error code seen once =>
    refine ⟨?_, ?_⟩
    · have := hr.respond seen once
      simpa [Link.requests, Link.respond, List.filterMap_append, NodeMessage.requestId] using this
    · refine hs.send ⟨rfl, rfl⟩ (fun sid h => absurd h (by simp [NodeMessage.streamId])) ?_
      intro sid hsid
      unfold Link.respond at hsid
      split at hsid
      · rename_i sid' hopens
        by_cases heq : sid = sid'
        · exact hs.opens id sid (heq ▸ hopens)
        · simp only [Function.update_of_ne heq] at hsid
          exact hs.opened sid hsid
      · exact hs.opened sid hsid
  | @streamMessage m sid target wellFormed opened =>
    refine ⟨?_, hs.send wellFormed (fun i hi => ?_) (fun i hi => ?_)⟩
    · have hid : m.requestId = none := by
        cases m <;> simp_all [NodeMessage.streamId, NodeMessage.requestId]
      simpa [Link.requests, List.filterMap_append, hid] using hr
    · obtain rfl : sid = i := Option.some.inj (target.symm.trans hi)
      exact hs.opened sid opened
    · split at hi
      · exact hs.opened i hi
      · by_cases heq : i = sid
        · simp [heq] at hi
        · simp only [Function.update_of_ne heq] at hi
          exact hs.opened i hi
  | dispatch head fine =>
    exact ⟨Link.dispatched_requests hr hs head, Link.dispatched_registry hs head⟩
  | close => simp [NodeConnection.close, live] at hopen

/-- A run ends with its connection: nothing is dispatched after `close`. -/
def Live (s : Link) (_ : LinkAct) (_ : Link) : Prop := s.conn.closed = false

theorem LinkInv.ofRun {acts : List LinkAct} {s : Link}
    (run : Run (Guard LinkStep Live) .initial acts s) (hopen : s.conn.closed = false) :
    LinkInv s := by
  induction run with
  | refl => exact ⟨.initial, .initial⟩
  | snoc before last ih => exact (ih last.2).step last.1 last.2 hopen

/-! ## 7. Late messages -/

/-- The tombstone of `id`, if there has been one, is among the last `cap`. -/
def Recent (cap : Nat) (log : List RequestId) (id : RequestId) : Prop :=
  id ∈ log → ∃ later earlier, log = later ++ id :: earlier ∧ later.length < cap

theorem Recent.mem_items {cap : Nat} {ring : Ring RequestId cap} {log : List RequestId}
    {id : RequestId} (h : Recent cap log id) (remembered : ring.Holds log) (hmem : id ∈ log) :
    id ∈ ring.items :=
  (remembered.mem_items id).mpr (h hmem)

/-- **Abandoned work does not tear the connection down.** Take any run of requests and
    streams that are issued, sent, cancelled, answered, resumed and dropped, and the next
    message of a conforming Node. `dispatch` raises no protocol error on it, provided that
    fewer than 256 tombstones of its kind came after the one of its id, and that its stream
    was not taken out of the registry by an `open_stream` that did not return it. -/
theorem dispatch_tolerates_abandoned {acts : List LinkAct} {s : Link} {m : NodeMessage}
    {rest : List NodeMessage} (run : Run (Guard LinkStep Live) .initial acts s)
    (hopen : s.conn.closed = false) (head : s.toCore = m :: rest)
    (request : ∀ id, m.requestId = some id →
      Recent NODE_CLOSED_REQUEST_TOMBSTONES s.closedRequestLog id)
    (stream : ∀ sid, m.streamId = some sid →
      Recent NODE_CLOSED_STREAM_TOMBSTONES s.closedStreamLog sid ∧ s.abandoned sid = false) :
    ∀ e, (s.conn.dispatch m).2 = some e → e.isProtocol = false := by
  obtain ⟨hr, hs⟩ := LinkInv.ofRun run hopen
  have hmem : m ∈ s.registry.toCore := by simp [Link.registry, head]
  have hm := hs.wellFormed m hmem
  rcases hm.cases with ⟨id, ok, result, error, code, rfl⟩ | ⟨sid, hsid, -, -⟩
  · have hresp : id ∈ s.requests.responses := by
      simp [Link.requests, head, NodeMessage.requestId]
    have hnone : (s.conn.dispatch (.response (some id) ok (some result) error code)).2 = none := by
      simp only [NodeConnection.dispatch, NodeConnection.dispatchResponse,
        NodeConnection.validateRequestId]
      split
      · split
        · rfl
        · rfl
      all_goals
        rename_i hp
        have hlog : id ∈ s.closedRequestLog := by
          rcases hr.expected hresp with hw | hlog
          · exact absurd (hp.symm.trans hw) (by simp)
          · exact hlog
        have hring : id ∈ s.conn.closedRequests.items :=
          (request id rfl).mem_items hr.remembered hlog
        rw [if_pos hring]
    exact fun e he => absurd (hnone.symm.trans he) (by simp)
  · obtain ⟨recent, kept⟩ := stream sid hsid
    cases h : s.conn.streams sid with
    | some st =>
      obtain ⟨-, -, -, hfine⟩ := NodeConnection.dispatch_found hm hsid h (hs.ids sid st h)
      exact hfine
    | none =>
      rcases hs.accounted sid (hs.inFlight m hmem sid hsid) with ⟨st, hst⟩ | hlog | habandoned
      · exact absurd (h.symm.trans hst) (by simp)
      · have hnone := (NodeConnection.dispatch_missing hsid h).2
          (recent.mem_items hs.remembered hlog)
        exact fun e he => absurd (hnone.symm.trans he) (by simp)
      · exact absurd (kept.symm.trans habandoned) (by simp)

/-! ### The bound is met

Nothing in the amended statement can be dropped: 256 cancellations later a response to a
cancelled request is unknown. -/

/-- A request that opens no stream, issued and at once cancelled. -/
theorem Link.cancel_issue_none (s : Link) (id : RequestId) :
    (s.issue id none).cancel id =
      { s with
        conn := { s.conn with pending := Function.update s.conn.pending id none,
                              closedRequests := s.conn.closedRequests.push id },
        phase := Function.update s.phase id .finished,
        opens := Function.update s.opens id none,
        closedRequestLog := id :: s.closedRequestLog } := by
  simp [cancel, issue, finish, abandonStream, NodeConnection.forgetRequest,
    NodeConnection.registerRequest, NodeConnection.buryRequest]

/-- A request that reaches the Node and is cancelled, then `n` more cancelled requests. -/
def cancelledActs (n : Nat) : List LinkAct :=
  [.issue 0 none, .deliver 0, .cancel 0] ++
    (List.range n).flatMap fun i =>
      [.issue (.ofNat 128 (i + 1)) none, .cancel (.ofNat 128 (i + 1))]

/-- Where `cancelledActs n` leads. -/
structure Cancelled (n : Nat) (s : Link) : Prop where
  run : Run (Guard LinkStep Live) .initial (cancelledActs n) s
  live : s.conn.closed = false
  log : s.closedRequestLog = ((List.range (n + 1)).map (BitVec.ofNat 128)).reverse
  fresh : ∀ i, n < i → i < 2 ^ 128 → s.phase (.ofNat 128 i) = .idle
  gone : s.conn.pending 0 = none
  seen : s.delivered 0 = true ∧ s.answered 0 = false
  quiet : s.toCore = []

theorem ofNat_ne_ofNat {i j : Nat} (hi : i < 2 ^ 128) (hj : j < 2 ^ 128) (hij : i ≠ j) :
    BitVec.ofNat 128 i ≠ BitVec.ofNat 128 j := by
  intro h
  have := congrArg BitVec.toNat h
  rw [BitVec.toNat_ofNat, BitVec.toNat_ofNat, Nat.mod_eq_of_lt hi, Nat.mod_eq_of_lt hj] at this
  exact hij this

theorem Cancelled.zero : ∃ s, Cancelled 0 s := by
  let s₁ := Link.initial.issue 0 none
  let s₂ : Link := { s₁ with delivered := Function.update s₁.delivered 0 true }
  have hsending : s₁.phase 0 = .sending := rfl
  refine ⟨s₂.cancel 0, ⟨?_, rfl, rfl, fun i hi hb => ?_, rfl, ⟨rfl, rfl⟩, rfl⟩⟩
  · exact .cons ⟨.issue 0 none rfl (by simp), rfl⟩
      (.cons ⟨.deliver 0 rfl (.inl hsending), rfl⟩ (.single ⟨.cancel 0 (.inl hsending), rfl⟩))
  · have hne : BitVec.ofNat 128 i ≠ 0 := @ofNat_ne_ofNat i 0 hb (by decide) (by omega)
    have hphase : (s₂.cancel 0).phase =
        Function.update (Function.update (fun _ => .idle) 0 .sending) 0 .finished := rfl
    rw [hphase, Function.update_of_ne hne, Function.update_of_ne hne]

theorem Cancelled.succ {n : Nat} {s : Link} (h : Cancelled n s) (hn : n + 1 < 2 ^ 128) :
    ∃ t, Cancelled (n + 1) t := by
  have hzero : (0 : RequestId) ≠ .ofNat 128 (n + 1) :=
    @ofNat_ne_ofNat 0 (n + 1) (by decide) hn (by omega)
  have hacts : cancelledActs (n + 1) = cancelledActs n ++
      [.issue (.ofNat 128 (n + 1)) none, .cancel (.ofNat 128 (n + 1))] := by
    simp [cancelledActs, List.range_succ, List.flatMap_append]
  have hrun := h.run.append (.cons
    ⟨.issue (.ofNat 128 (n + 1)) none (h.fresh _ (by omega) hn) (by simp), h.live⟩
    (.single ⟨.cancel (.ofNat 128 (n + 1)) (.inl (by simp [Link.issue])), h.live⟩))
  rw [Link.cancel_issue_none, ← hacts] at hrun
  refine ⟨_, ⟨hrun, h.live, ?_, fun i hi hb => ?_, ?_, h.seen, h.quiet⟩⟩
  · rw [h.log, @List.range_succ (n + 1)]
    simp
  · have hne : BitVec.ofNat 128 i ≠ .ofNat 128 (n + 1) := ofNat_ne_ofNat hb hn (by omega)
    simp only [Function.update_of_ne hne]
    exact h.fresh i (by omega) hb
  · simp only [Function.update_of_ne hzero]
    exact h.gone

theorem Cancelled.exists {n : Nat} (hn : n < 2 ^ 128) : ∃ s, Cancelled n s := by
  induction n with
  | zero => exact Cancelled.zero
  | succ n ih =>
    obtain ⟨s, h⟩ := ih (by omega)
    exact h.succ hn

/-- **The 257th tombstone evicts the first.** A cancelled request reaches the Node, 256 more
    are cancelled, and the Node's answer to the first is an unknown response. -/
theorem late_response_after_256_cancellations : ∃ s rest,
    Run (Guard LinkStep Live) .initial (cancelledActs 256 ++ [.respond 0]) s ∧
    s.conn.closed = false ∧
    s.toCore = .response (some 0) true (some []) "" "" :: rest ∧
    (s.conn.dispatch (.response (some 0) true (some []) "" "")).2 =
      some (.protocol "Unknown Node response" "response_unknown") := by
  obtain ⟨s, h⟩ := @Cancelled.exists 256 (by decide)
  have hrun := h.run.snoc ⟨.respond 0 true [] "" "" h.seen.1 h.seen.2, h.live⟩
  refine ⟨_, [], hrun, h.live, by simp [Link.respond, h.quiet], ?_⟩
  have hring := (LinkInv.ofRun h.run h.live).requests.remembered
  have hgone : (0 : RequestId) ∉ s.conn.closedRequests.items := by
    rw [show s.conn.closedRequests.items = s.closedRequestLog.take 256 from hring, h.log]
    decide +kernel
  exact NodeConnection.dispatch_unknown_response h.gone hgone

/-- One cancelled request, answered late. -/
theorem dispatch_tolerates_one_cancelled : ∃ s m rest,
    Run (Guard LinkStep Live) .initial (cancelledActs 0 ++ [.respond 0]) s ∧
    s.toCore = m :: rest ∧
    ∀ e, (s.conn.dispatch m).2 = some e → e.isProtocol = false := by
  obtain ⟨s, h⟩ := Cancelled.zero
  have hrun := h.run.snoc ⟨.respond 0 true [] "" "" h.seen.1 h.seen.2, h.live⟩
  have hhead : (s.respond 0 true [] "" "").toCore =
      .response (some 0) true (some []) "" "" :: [] := by simp [Link.respond, h.quiet]
  refine ⟨_, _, [], hrun, hhead, dispatch_tolerates_abandoned hrun h.live hhead ?_ ?_⟩
  · intro id hid _
    obtain rfl : 0 = id := Option.some.inj hid
    exact ⟨[], [], h.log, by decide⟩
  · intro sid hsid
    exact absurd hsid (by simp [NodeMessage.streamId])

end Termroom.Node
