import Termroom.Node.Connection

/-!
# What `close` leaves behind

A `request` registers its future and then waits twice, for its message to be sent and for the
answer; `open_stream` registers a stream around that. `NodeConnection.close` can come between any
two of these steps. It fails every future and every stream that it finds in the registries, empties
them, and from then on `send` raises before it waits.

**Nobody is left waiting** (`close_leaves_no_waiter`): whoever still waits for an answer once the
connection is closed finds its future done, and whoever starts later fails at once.

The futures and streams are objects that their waiters hold on to, so the ones that `close` takes
out of the registries are kept here beside the connection. What a stream's consumer does to it (its
own `close`, or taking items) is left out.
-/

set_option autoImplicit false

namespace Termroom.Node

open Conc Data

/-! ## 1. The callers of a connection -/

/-- Where the coroutine of a request is, and how it ended. -/
inductive Call where
  | idle
  | sending
  | awaiting
  | returned (result : JsonObject)
  | raised (error : NodeError)
  | cancelled
  deriving DecidableEq

/-- It is suspended. -/
def Call.Waits (call : Call) : Prop := call = .sending ∨ call = .awaiting

/-- `NodeUnavailableError()`. -/
def offline : NodeError := .unavailable "Node is offline"

/-- `future.set_exception(error)`, unless it is done. -/
def Future.fail (error : NodeError) : Future → Future
  | .waiting => .done (.error error)
  | .done result => .done result

structure Callers where
  conn : NodeConnection
  calls : RequestId → Call
  /-- The stream that the request's `open_stream` opens. -/
  opens : RequestId → Option RequestId
  /-- The futures and the streams that `close` took out of the registries. -/
  leftFutures : RequestId → Option Future
  leftStreams : RequestId → Option NodeStream

namespace Callers

def new : Callers := ⟨.new, fun _ => .idle, fun _ => none, fun _ => none, fun _ => none⟩

/-- The future of a request, in the registry or out of it. -/
def future (w : Callers) (id : RequestId) : Option Future :=
  (w.conn.pending id).or (w.leftFutures id)

/-- `request` and `open_stream` around it, up to the first wait. `check` is how
    `validate_request_operation` and `request_budget_ms` come out. -/
def start (w : Callers) (id : RequestId) (stream : Option RequestId)
    (check : Except NodeError Unit) : Callers :=
  let opened := stream.elim w.conn w.conn.registerStream
  let withdrawn (conn : NodeConnection) := stream.elim conn conn.popStream
  match check with
  | .error error =>
      { w with conn := withdrawn opened, calls := Function.update w.calls id (.raised error),
               opens := Function.update w.opens id stream }
  | .ok () =>
      let registered := opened.registerRequest id
      -- `send` looks at `_closed` before it waits for anything
      if registered.closed then
        { w with conn := withdrawn (registered.forgetRequest id),
                 calls := Function.update w.calls id (.raised offline),
                 opens := Function.update w.opens id stream }
      else
        { w with conn := registered, calls := Function.update w.calls id .sending,
                 opens := Function.update w.opens id stream }

/-- The `finally` of `request`, and the `_streams.pop` of an `open_stream` that fails. -/
def fail (w : Callers) (id : RequestId) (call : Call) : Callers :=
  let conn := w.conn.forgetRequest id
  { w with conn := (w.opens id).elim conn conn.popStream,
           calls := Function.update w.calls id call }

def cancel (w : Callers) (id : RequestId) : Callers :=
  { w with conn := w.conn.buryRequest id }.fail id .cancelled

/-- The future is done: `request` returns or raises its result, and `open_stream` looks for the
    stream's id in it. -/
def resume (w : Callers) (id : RequestId) (result : Except NodeError JsonObject) : Callers :=
  match result with
  | .error error => w.fail id (.raised error)
  | .ok fields =>
    match w.opens id with
    | none =>
        { w with conn := w.conn.forgetRequest id,
                 calls := Function.update w.calls id (.returned fields) }
    | some sid =>
      if fields.lookup "stream_id" = some (.str sid.hex) then
        { w with conn := w.conn.forgetRequest id,
                 calls := Function.update w.calls id (.returned fields) }
      else w.fail id (.raised (.request "Node returned the wrong stream" "stream_invalid"))

/-- `close`. -/
def close (w : Callers) (reason : String) : Callers :=
  if w.conn.closed then w
  else
    { w with
      conn := w.conn.close
      leftFutures := fun id => (w.conn.pending id).map (·.fail (.unavailable reason))
      leftStreams := fun sid => (w.conn.streams sid).map (·.feedError (.unavailable reason)) }

end Callers

inductive CallersAct where
  | start (id : RequestId) (stream : Option RequestId) (check : Except NodeError Unit)
  | sent (id : RequestId)
  | sendFailed (id : RequestId) (error : NodeError)
  | cancel (id : RequestId)
  | resume (id : RequestId)
  | dispatch (message : NodeMessage)
  | dropStream (sid : RequestId)
  | close (reason : String)

/-- One step of a caller, of the connection's reader, or of whoever closes it. Each runs up to its
    next wait. `uuid4` gives a request and a stream ids of their own. -/
inductive CallersStep (w : Callers) : CallersAct → Callers → Prop
  | start (id : RequestId) (stream : Option RequestId) (check : Except NodeError Unit)
      (fresh : w.calls id = .idle) (freshStream : ∀ other, stream.isSome → w.opens other ≠ stream) :
      CallersStep w (.start id stream check) (w.start id stream check)
  | sent (id : RequestId) (sending : w.calls id = .sending) :
      CallersStep w (.sent id) { w with calls := Function.update w.calls id .awaiting }
  | sendFailed (id : RequestId) (error : NodeError) (sending : w.calls id = .sending) :
      CallersStep w (.sendFailed id error) (w.fail id (.raised error))
  | cancel (id : RequestId) (waits : (w.calls id).Waits) :
      CallersStep w (.cancel id) (w.cancel id)
  | resume (id : RequestId) {result : Except NodeError JsonObject}
      (awaiting : w.calls id = .awaiting) (done : w.future id = some (.done result)) :
      CallersStep w (.resume id) (w.resume id result)
  | dispatch (message : NodeMessage) :
      CallersStep w (.dispatch message) { w with conn := (w.conn.dispatch message).1 }
  | dropStream (sid : RequestId) :
      CallersStep w (.dropStream sid) { w with conn := w.conn.dropStream sid }
  | close (reason : String) : CallersStep w (.close reason) (w.close reason)

/-! ## 2. What a message does to the registries -/

/-- A message completes a future that waits, feeds a stream that is there, or takes one out. -/
inductive NodeConnection.Takes (c : NodeConnection) : NodeConnection → Prop
  | same : Takes c c
  | answered (id : RequestId) (result : Except NodeError JsonObject)
      (waiting : c.pending id = some .waiting) :
      Takes c { c with pending := Function.update c.pending id (some (.done result)) }
  | fed {sid : RequestId} {stream : NodeStream} (found : c.streams sid = some stream)
      (event : StreamEvent) : Takes c (c.setStream (stream.feedEvent event).1)
  | ended {stream : NodeStream} {sid : RequestId} (key : stream.streamId = sid) :
      Takes c ((c.setStream stream).dropStream sid)

namespace NodeConnection

theorem withStream_cases (c : NodeConnection) (streamId : Option RequestId)
    (body : NodeStream → NodeConnection × Option NodeError) :
    (c.withStream streamId body).1 = c ∨
      ∃ sid stream, c.streams sid = some stream ∧ c.withStream streamId body = body stream := by
  cases streamId with
  | none => left; rfl
  | some sid =>
    cases h : c.streams sid with
    | some stream => exact .inr ⟨sid, stream, h, withStream_found h⟩
    | none =>
      left
      by_cases hmem : sid ∈ c.closedStreams.items
      · rw [withStream_tombstone h hmem]
      · simp [withStream, findStream, validateRequestId, Except.bind, h, hmem]

theorem dispatch_takes (c : NodeConnection) (m : NodeMessage) : c.Takes (c.dispatch m).1 := by
  cases m with
  | other => exact .same
  | response id ok result error code =>
    simp only [dispatch, dispatchResponse]
    split
    · exact .same
    · split
      · rename_i waiting
        split
        · split
          · exact .answered _ _ waiting
          · exact .same
        · exact .answered _ _ waiting
      · split <;> exact .same
      · split <;> exact .same
  | streamData streamId data =>
    simp only [dispatch, dispatchStreamData]
    rcases c.withStream_cases streamId _ with hsame | ⟨sid, stream, found, hbody⟩
    · rw [hsame]
      exact .same
    · rw [hbody]
      split
      · exact .same
      · split
        · exact .same
        · exact .fed found _
  | streamControl streamId kind revision available mode =>
    simp only [dispatch, dispatchStreamControl]
    rcases c.withStream_cases streamId _ with hsame | ⟨sid, stream, found, hbody⟩
    · rw [hsame]
      exact .same
    · rw [hbody]
      split
      · exact .same
      · exact .fed found _
  | streamClose streamId result =>
    simp only [dispatch]
    rcases c.withStream_cases streamId _ with hsame | ⟨sid, stream, found, hbody⟩
    · rw [hsame]
      exact .same
    · rw [hbody]
      split
      · exact .same
      · exact .ended NodeStream.feedEnd_streamId
  | streamError streamId error code =>
    simp only [dispatch]
    rcases c.withStream_cases streamId _ with hsame | ⟨sid, stream, found, hbody⟩
    · rw [hsame]
      exact .same
    · rw [hbody]
      exact .ended NodeStream.feedError_streamId

/-- A stream that is there after a message was there before, or was fed an event. -/
theorem Takes.streams {c c' : NodeConnection} (h : c.Takes c') {sid : RequestId}
    {stream : NodeStream} (after : c'.streams sid = some stream) :
    c.streams sid = some stream ∨
      ∃ key before event, c.streams key = some before ∧ stream = (before.feedEvent event).1 := by
  cases h with
  | same | answered _ _ _ => exact .inl after
  | @fed key before found event =>
    simp only [setStream] at after
    by_cases hsid : sid = (before.feedEvent event).1.streamId
    · rw [hsid, Function.update_self] at after
      exact .inr ⟨key, before, event, found, (Option.some.inj after).symm⟩
    · rw [Function.update_of_ne hsid] at after
      exact .inl after
  | @ended other key hkey =>
    left
    subst hkey
    have hfound : (c.setStream other).streams other.streamId = some other := by simp [setStream]
    rw [dropStream_found hfound] at after
    by_cases hsid : sid = other.streamId
    · simp [popStream, hsid] at after
    · simpa [popStream, setStream, hsid] using after

theorem Takes.closed {c c' : NodeConnection} (h : c.Takes c') : c'.closed = c.closed := by
  cases h with
  | same | answered _ _ _ | fed _ _ => rfl
  | ended _ =>
    unfold dropStream
    split <;> rfl

/-- The futures that wait for an answer stay registered. -/
theorem Takes.pending {c c' : NodeConnection} (h : c.Takes c') (id : RequestId) :
    (c'.pending id).isSome = (c.pending id).isSome := by
  cases h with
  | same | fed _ _ => rfl
  | answered other result waiting =>
    by_cases hid : id = other
    · simp [hid, waiting]
    · simp [hid]
  | ended _ =>
    unfold dropStream
    split <;> rfl

end NodeConnection

/-! ## 3. Streams that end -/

/-- The end marker, or an error. -/
def StreamItem.Terminal : StreamItem → Prop
  | .event _ => False
  | .streamEnd | .error _ => True

/-- A closed stream tells its consumer so. -/
def NodeStream.Told (s : NodeStream) : Prop :=
  s.closed = true → ∃ item ∈ s.queue.items, item.Terminal

namespace NodeStream

variable {s : NodeStream}

theorem Told.feedError (h : s.Told) (error : NodeError) : (s.feedError error).Told := by
  intro _
  unfold NodeStream.feedError
  split
  · rename_i hclosed
    exact h hclosed
  · rw [replaceQueueTail_items]
    exact ⟨.error error, by simp, trivial⟩

theorem Told.feedEvent (h : s.Told) (event : StreamEvent) : (s.feedEvent event).1.Told := by
  unfold NodeStream.feedEvent
  split
  · exact h
  · rename_i hopen
    split
    · intro hclosed
      exact absurd hclosed hopen
    · exact h.feedError _

theorem Told.new (sid : RequestId) : (NodeStream.new sid).Told := by
  simp [Told, NodeStream.new]

end NodeStream

/-! ## 4. The invariant -/

namespace Callers

variable {w w' : Callers} {act : CallersAct}

/-- Over an open connection every future that is waited for is registered. Over a closed one the
    registries are empty, and every such future is done. -/
structure Ok (w : Callers) : Prop where
  registered : w.conn.closed = false → ∀ id, (w.calls id).Waits → (w.conn.pending id).isSome
  told : ∀ sid stream, w.conn.streams sid = some stream → stream.Told
  noPending : w.conn.closed = true → ∀ id, w.conn.pending id = none
  noStreams : w.conn.closed = true → ∀ sid, w.conn.streams sid = none
  left : w.conn.closed = true → ∀ id, (w.calls id).Waits →
    ∃ result, w.leftFutures id = some (.done result)

theorem Ok.new : Callers.new.Ok where
  registered _ id h := absurd h (by simp [Callers.new, Call.Waits])
  told sid stream h := absurd h (by simp [Callers.new, NodeConnection.new])
  noPending h := absurd h (by simp [Callers.new, NodeConnection.new])
  noStreams h := absurd h (by simp [Callers.new, NodeConnection.new])
  left h := absurd h (by simp [Callers.new, NodeConnection.new])

/-- A call ends: its future and perhaps a stream are taken out of the registries. -/
theorem Ok.ends (h : w.Ok) {id : RequestId} {call : Call} {conn : NodeConnection}
    {opens : RequestId → Option RequestId} (hclosed : conn.closed = w.conn.closed)
    (hpending : ∀ other, other ≠ id → conn.pending other = w.conn.pending other)
    (hgone : conn.pending id = none ∨ conn.pending id = w.conn.pending id)
    (hstreams : ∀ sid, conn.streams sid = none ∨ conn.streams sid = w.conn.streams sid)
    (hcall : ¬ call.Waits) :
    Ok { w with conn, calls := Function.update w.calls id call, opens } where
  registered hopen other hwaits := by
    by_cases hid : other = id
    · simp only [hid, Function.update_self] at hwaits
      exact absurd hwaits hcall
    · simp only [Function.update_of_ne hid] at hwaits
      simpa only [hpending other hid] using h.registered (hclosed ▸ hopen) other hwaits
  told sid stream hstream := by
    rcases hstreams sid with hnone | hsame
    · simp [hnone] at hstream
    · exact h.told sid stream (hsame ▸ hstream)
  noPending hc other := by
    by_cases hid : other = id
    · subst hid
      rcases hgone with hnone | hsame
      · exact hnone
      · exact hsame ▸ h.noPending (hclosed ▸ hc) other
    · simpa only [hpending other hid] using h.noPending (hclosed ▸ hc) other
  noStreams hc sid := by
    rcases hstreams sid with hnone | hsame
    · exact hnone
    · exact hsame ▸ h.noStreams (hclosed ▸ hc) sid
  left hc other hwaits := by
    by_cases hid : other = id
    · simp only [hid, Function.update_self] at hwaits
      exact absurd hwaits hcall
    · simp only [Function.update_of_ne hid] at hwaits
      exact h.left (hclosed ▸ hc) other hwaits

theorem popStream_streams (c : NodeConnection) (sid other : RequestId) :
    (c.popStream sid).streams other = none ∨
      (c.popStream sid).streams other = c.streams other := by
  by_cases hsid : other = sid
  · left; simp [NodeConnection.popStream, hsid]
  · right; simp [NodeConnection.popStream, hsid]

theorem forgotten (c : NodeConnection) {id other : RequestId} (hne : other ≠ id) :
    (c.forgetRequest id).pending other = c.pending other := by
  simp [NodeConnection.forgetRequest, hne]

theorem Ok.fail (h : w.Ok) (id : RequestId) {call : Call} (hcall : ¬ call.Waits) :
    (w.fail id call).Ok := by
  have hgone : (w.conn.forgetRequest id).pending id = none := by
    simp [NodeConnection.forgetRequest]
  unfold Callers.fail
  cases w.opens id with
  | none => exact h.ends rfl (fun _ => forgotten _) (.inl hgone) (fun _ => .inr rfl) hcall
  | some sid =>
    exact h.ends rfl (fun _ => forgotten _) (.inl hgone) (popStream_streams _ sid) hcall

theorem Ok.resume (h : w.Ok) (id : RequestId) (result : Except NodeError JsonObject) :
    (w.resume id result).Ok := by
  have raised {error : NodeError} : ¬ (Call.raised error).Waits := by simp [Call.Waits]
  have returned (fields : JsonObject) :
      Ok { w with conn := w.conn.forgetRequest id,
                  calls := Function.update w.calls id (.returned fields) } :=
    h.ends rfl (fun _ => forgotten _) (.inl (by simp [NodeConnection.forgetRequest]))
      (fun _ => .inr rfl) (by simp [Call.Waits])
  unfold Callers.resume
  split
  · exact h.fail id raised
  · split
    · exact returned _
    · split
      · exact returned _
      · exact h.fail id raised

theorem Ok.cancel (h : w.Ok) (id : RequestId) : (w.cancel id).Ok := by
  have buried : Ok { w with conn := w.conn.buryRequest id } :=
    ⟨h.registered, h.told, h.noPending, h.noStreams, h.left⟩
  exact buried.fail id (by simp [Call.Waits])

/-- A stream that is registered and popped again is not there, and the others are untouched. -/
theorem opened_withdrawn (c : NodeConnection) (sid other : RequestId) :
    ((c.registerStream sid).popStream sid).streams other = none ∨
      ((c.registerStream sid).popStream sid).streams other = c.streams other := by
  by_cases hsid : other = sid
  · left; simp [NodeConnection.popStream, hsid]
  · right; simp [NodeConnection.popStream, NodeConnection.registerStream, hsid]

theorem Ok.start (h : w.Ok) (id : RequestId) (stream : Option RequestId)
    (check : Except NodeError Unit) : (w.start id stream check).Ok := by
  have raised {error : NodeError} : ¬ (Call.raised error).Waits := by simp [Call.Waits]
  unfold Callers.start
  cases check with
  | error error =>
    cases stream with
    | none => exact h.ends rfl (fun _ _ => rfl) (.inr rfl) (fun _ => .inr rfl) raised
    | some sid => exact h.ends rfl (fun _ _ => rfl) (.inr rfl) (opened_withdrawn _ sid) raised
  | ok =>
    have same {other : RequestId} (hne : other ≠ id) (c : NodeConnection) :
        ((c.registerRequest id).forgetRequest id).pending other = c.pending other := by
      simp [NodeConnection.forgetRequest, NodeConnection.registerRequest, hne]
    cases hclosed : w.conn.closed with
    | true =>
      cases stream with
      | none =>
        simp only [Option.elim, NodeConnection.registerRequest, hclosed, if_true]
        exact h.ends hclosed.symm (fun _ hne => same hne _)
          (.inl (by simp [NodeConnection.forgetRequest])) (fun _ => .inr rfl) raised
      | some sid =>
        simp only [Option.elim, NodeConnection.registerRequest, NodeConnection.registerStream,
          hclosed, if_true]
        exact h.ends hclosed.symm (fun _ hne => same hne _)
          (.inl (by simp [NodeConnection.forgetRequest, NodeConnection.popStream]))
          (opened_withdrawn _ sid) raised
    | false =>
      -- the future waits in the registry, and the new stream is open
      have sending {conn : NodeConnection} (hopen : conn.closed = false)
          (hpending : conn.pending = Function.update w.conn.pending id (some .waiting))
          (hstreams : ∀ sid stream, conn.streams sid = some stream → stream.Told) :
          Ok { w with conn, calls := Function.update w.calls id .sending,
                      opens := Function.update w.opens id stream } := by
        refine ⟨fun _ other hwaits => ?_, hstreams, by simp [hopen], by simp [hopen],
          by simp [hopen]⟩
        by_cases hid : other = id
        · simp [hpending, hid]
        · simp only [Function.update_of_ne hid] at hwaits
          simpa [hpending, hid] using h.registered hclosed other hwaits
      cases stream with
      | none =>
        simp only [Option.elim, NodeConnection.registerRequest, hclosed, Bool.false_eq_true,
          if_false]
        exact sending rfl rfl h.told
      | some sid =>
        simp only [Option.elim, NodeConnection.registerRequest, NodeConnection.registerStream,
          hclosed, Bool.false_eq_true, if_false]
        refine sending rfl rfl fun other stream hstream => ?_
        by_cases hsid : other = sid
        · subst hsid
          obtain rfl : NodeStream.new other = stream := by simpa using hstream
          exact .new other
        · exact h.told other stream (by simpa [hsid] using hstream)

theorem Ok.dropStream (h : w.Ok) (sid : RequestId) :
    Ok { w with conn := w.conn.dropStream sid } := by
  unfold NodeConnection.dropStream
  split
  · refine ⟨h.registered, fun other stream hstream => ?_, h.noPending, fun hc other => ?_, h.left⟩
    · rcases popStream_streams w.conn sid other with hnone | hsame
      · exact absurd (hnone.symm.trans hstream) (by simp)
      · exact h.told other stream (hsame ▸ hstream)
    · rcases popStream_streams w.conn sid other with hnone | hsame
      · exact hnone
      · exact hsame.trans (h.noStreams hc other)
  · exact h

theorem Ok.close (h : w.Ok) (reason : String) : (w.close reason).Ok := by
  unfold Callers.close
  split
  · exact h
  · rename_i hopen
    have hconn : w.conn.close =
        { w.conn with closed := true, pending := fun _ => none, streams := fun _ => none } := by
      simp [NodeConnection.close, hopen]
    rw [hconn]
    refine ⟨by simp, by simp, fun _ _ => rfl, fun _ _ => rfl, fun _ id hwaits => ?_⟩
    -- its future was registered, and `close` has failed it
    obtain ⟨future, hfuture⟩ := Option.isSome_iff_exists.mp
      (h.registered (by simpa using hopen) id hwaits)
    cases future with
    | waiting => exact ⟨.error (.unavailable reason), by simp [hfuture, Future.fail]⟩
    | done result => exact ⟨result, by simp [hfuture, Future.fail]⟩

theorem Ok.takes (h : w.Ok) {conn : NodeConnection} (takes : w.conn.Takes conn) :
    Ok { w with conn } where
  registered hopen id hwaits := by
    rw [takes.pending]
    exact h.registered (takes.closed ▸ hopen) id hwaits
  told sid stream hstream := by
    rcases takes.streams hstream with hbefore | ⟨key, before, event, hbefore, rfl⟩
    · exact h.told sid stream hbefore
    · exact (h.told key before hbefore).feedEvent event
  noPending hc id := by
    have hsome := takes.pending id
    rw [h.noPending (takes.closed ▸ hc) id] at hsome
    simpa using hsome
  noStreams hc sid := by
    cases hstream : conn.streams sid with
    | none => rfl
    | some stream =>
      have hnone := h.noStreams (takes.closed ▸ hc)
      rcases takes.streams hstream with hbefore | ⟨key, before, event, hbefore, _⟩
      · simp [hnone] at hbefore
      · simp [hnone] at hbefore
  left hc id hwaits := h.left (takes.closed ▸ hc) id hwaits

theorem Ok.step (h : w.Ok) (step : CallersStep w act w') : w'.Ok := by
  cases step with
  | start id stream check _ _ => exact h.start id stream check
  | sent id sending =>
    -- only the phase changes, and it waited before
    have before {other : RequestId}
        (hwaits : (Function.update w.calls id .awaiting other).Waits) :
        (w.calls other).Waits := by
      by_cases hid : other = id
      · exact .inl (hid ▸ sending)
      · simpa [hid] using hwaits
    exact ⟨fun hopen other hwaits => h.registered hopen other (before hwaits), h.told,
      h.noPending, h.noStreams, fun hc other hwaits => h.left hc other (before hwaits)⟩
  | sendFailed id error _ => exact h.fail id (by simp [Call.Waits])
  | cancel id _ => exact h.cancel id
  | resume id _ _ => exact h.resume id _
  | dispatch message => exact h.takes (w.conn.dispatch_takes message)
  | dropStream sid => exact h.dropStream sid
  | close reason => exact h.close reason

theorem ok_of_run {acts : List CallersAct} (run : Run CallersStep .new acts w) : w.Ok :=
  run.invariant (fun _ _ _ step h => h.step step) .new

/-- A call that starts on a closed connection has failed when its step is over, and has left
    nothing in the registries. -/
theorem start_closed (hclosed : w.conn.closed = true) (id : RequestId)
    (stream : Option RequestId) (check : Except NodeError Unit) :
    ∃ error, (w.start id stream check).calls id = .raised error := by
  unfold Callers.start
  cases check with
  | error error => exact ⟨error, by simp⟩
  | ok =>
    have hreg : ((stream.elim w.conn w.conn.registerStream).registerRequest id).closed = true := by
      cases stream <;> exact hclosed
    simp only [hreg, if_true]
    exact ⟨offline, by simp⟩

end Callers

/-- **Nobody is left waiting.** In whatever order requests and streams are started, sent, answered
    and cancelled, messages are dispatched and the connection is closed: closing it completes every
    registered future and closes every registered stream, with a terminal item in its queue.
    Once it is closed the registries are empty and stay so, whoever still waits for an answer has a
    future that is done, and whoever starts fails in that very step. -/
theorem close_leaves_no_waiter {acts : List CallersAct} {w : Callers}
    (run : Run CallersStep .new acts w) :
    (∀ reason, w.conn.closed = false →
      (∀ id, (w.conn.pending id).isSome →
        ∃ result, (w.close reason).future id = some (.done result)) ∧
      ∀ sid, (w.conn.streams sid).isSome →
        ∃ stream, (w.close reason).leftStreams sid = some stream ∧ stream.closed = true ∧
          ∃ item ∈ stream.queue.items, item.Terminal) ∧
    (w.conn.closed = true →
      (∀ id, w.conn.pending id = none) ∧ (∀ sid, w.conn.streams sid = none) ∧
      (∀ id, (w.calls id).Waits → ∃ result, w.future id = some (.done result)) ∧
      ∀ id stream check w', CallersStep w (.start id stream check) w' →
        ∃ error, w'.calls id = .raised error) := by
  have ok := Callers.ok_of_run run
  constructor
  · intro reason hopen
    have hconn : (w.close reason).conn.pending = fun _ => none := by
      simp [Callers.close, hopen, NodeConnection.close]
    constructor
    · intro id hid
      obtain ⟨future, hfuture⟩ := Option.isSome_iff_exists.mp hid
      have hleft : (w.close reason).leftFutures id =
          some (future.fail (.unavailable reason)) := by
        simp [Callers.close, hopen, hfuture]
      simp only [Callers.future, hconn, hleft, Option.none_or, Option.some.injEq]
      cases future with
      | waiting => exact ⟨_, rfl⟩
      | done result => exact ⟨result, rfl⟩
    · intro sid hsid
      obtain ⟨stream, hstream⟩ := Option.isSome_iff_exists.mp hsid
      refine ⟨stream.feedError (.unavailable reason), ?_, NodeStream.feedError_closed, ?_⟩
      · simp [Callers.close, hopen, hstream]
      · exact (ok.told sid stream hstream).feedError _ NodeStream.feedError_closed
  · intro hclosed
    refine ⟨ok.noPending hclosed, ok.noStreams hclosed, fun id hwaits => ?_,
      fun id stream check w' step => ?_⟩
    · obtain ⟨result, hresult⟩ := ok.left hclosed id hwaits
      exact ⟨result, by simp [Callers.future, ok.noPending hclosed id, hresult]⟩
    · cases step with
      | start => exact Callers.start_closed hclosed id stream check

/-- A request waits for its answer and an `open_stream` for its message to be sent, when the
    connection is closed. -/
def closedUnderWay : Callers :=
  let started := (Callers.new.start 1 none (.ok ())).start 2 (some 7) (.ok ())
  { started with calls := Function.update started.calls 1 .awaiting }.close "Node disconnected"

theorem close_leaves_no_waiter_two :
    closedUnderWay.calls 1 = .awaiting ∧ closedUnderWay.calls 2 = .sending ∧
      (∃ result, closedUnderWay.future 1 = some (.done result)) ∧
      ∃ result, closedUnderWay.future 2 = some (.done result) := by
  have run : Run CallersStep .new [.start 1 none (.ok ()), .start 2 (some 7) (.ok ()), .sent 1,
      .close "Node disconnected"] closedUnderWay :=
    .snoc (.snoc (.snoc (.snoc .refl (.start 1 none (.ok ()) rfl (by simp)))
      (.start 2 (some 7) (.ok ()) (by decide) (by
        intro other _
        simp [Callers.start, Callers.new, NodeConnection.new, NodeConnection.registerRequest])))
      (.sent 1 (by decide))) (.close _)
  have hfirst : closedUnderWay.calls 1 = .awaiting := by decide
  have hsecond : closedUnderWay.calls 2 = .sending := by decide
  obtain ⟨_, hclosed⟩ := close_leaves_no_waiter run
  obtain ⟨_, _, hdone, _⟩ := hclosed (by decide)
  exact ⟨hfirst, hsecond, hdone 1 (.inr hfirst), hdone 2 (.inl hsecond)⟩

end Termroom.Node
