import Mathlib.Data.List.TakeWhile
import Termroom.Conc.Run
import Termroom.Data.Queue
import Termroom.Node.Protocol

/-!
# `NodeStream`: the Core's end of one stream

The receiving half of `node_core.py`'s `NodeStream`: a bounded queue that the connection's
reader fills (`feed_*`) and one consumer empties (`receive_event`). Feeding never waits. An
event that finds the queue full closes the stream with an overflow error; the end of the
stream, and any error, are *forced* in by `_replace_queue_tail`.

**What forcing costs.** On a full queue `_replace_queue_tail` makes room with `get_nowait`,
which takes the *head*: the oldest event the consumer has not seen. For an error this is
harmless, the consumer learns that the stream failed. For the end it is not: the consumer
receives every event but one, and then a normal end. `normal_end_lossless_iff` says that
this is the only loss there is: a normally ended stream delivered what was fed exactly when
its `feed_end` found room.
-/

set_option autoImplicit false

namespace Termroom.Node

open Conc Data

/-! ## 1. The source -/

/-- What a consumer can receive. -/
inductive StreamEvent where
  | data (chunk : Bytes)
  | control (control : JsonObject)
  deriving DecidableEq

/-- An entry of `_queue`: an event, the `_STREAM_END` sentinel, or an exception to raise. -/
inductive StreamItem where
  | event (event : StreamEvent)
  | streamEnd
  | error (error : NodeError)
  deriving DecidableEq

structure NodeStream where
  streamId : RequestId
  queue : BoundedQueue StreamItem NODE_STREAM_QUEUE_DEPTH
  closed : Bool
  result : JsonObject

/-- How a `receive_event` comes out: an event, `None` for the end, or an exception. -/
inductive Received where
  | event (event : StreamEvent)
  | streamEnd
  | raised (error : NodeError)
  deriving DecidableEq

def StreamItem.received : StreamItem → Received
  | .event e => .event e
  | .streamEnd => .streamEnd
  | .error e => .raised e

namespace NodeStream

/-- `NodeStream.__init__`. -/
def new (streamId : RequestId) : NodeStream := ⟨streamId, .empty, false, []⟩

/-- The exception of a stream whose consumer is too slow. -/
def overflow : NodeError := .core "Node stream exceeded its buffer" "stream_overflow"

/-- `_replace_queue_tail`: drop the head of a full queue, then put `item`. The `getD` is
    never used: after the first line there is room (`replaceQueueTail_items`). -/
def replaceQueueTail (s : NodeStream) (item : StreamItem) : NodeStream :=
  let queue := if s.queue.full then (s.queue.getNowait.map Prod.snd).getD s.queue else s.queue
  { s with queue := (queue.putNowait item).getD queue }

def feedError (s : NodeStream) (error : NodeError) : NodeStream :=
  if s.closed then s else { s with closed := true }.replaceQueueTail (.error error)

def feedEnd (s : NodeStream) (result : Option JsonObject) : NodeStream :=
  if s.closed then s
  else { s with result := result.getD [], closed := true }.replaceQueueTail .streamEnd

/-- The body that `feed_data` and `feed_control` share. The second component is the
    exception raised, if any. -/
def feedEvent (s : NodeStream) (event : StreamEvent) : NodeStream × Option NodeError :=
  if s.closed then (s, none)
  else
    match s.queue.putNowait (.event event) with
    | some queue => ({ s with queue }, none)
    | none => (s.feedError overflow, some overflow)

def feedData (s : NodeStream) (chunk : Bytes) : NodeStream × Option NodeError :=
  s.feedEvent (.data chunk)

def feedControl (s : NodeStream) (control : JsonObject) : NodeStream × Option NodeError :=
  s.feedEvent (.control control)

/-- `receive_event`, at the moment its `_queue.get()` returns. On an empty queue it waits,
    so there is no step: `none`. -/
def receiveEvent (s : NodeStream) : Option (NodeStream × Received) :=
  s.queue.getNowait.map fun (item, queue) => ({ s with queue }, item.received)

end NodeStream

/-! ## 2. Interleavings of feeding and receiving -/

/-- A call on the stream: by the connection's reader, or by the consumer. -/
inductive StreamCall where
  | feedData (chunk : Bytes)
  | feedControl (control : JsonObject)
  | feedEnd (result : Option JsonObject)
  | feedError (error : NodeError)
  | receiveEvent
  deriving DecidableEq

/-- What the caller sees of it. -/
inductive StreamOutcome where
  | returned
  | raised (error : NodeError)
  | received (got : Received)
  deriving DecidableEq

abbrev StreamLabel := StreamCall × StreamOutcome

/-- A feed returns, or raises what it says. -/
def StreamOutcome.ofFeed : Option NodeError → StreamOutcome
  | none => .returned
  | some e => .raised e

/-- Each call runs on the event loop without yielding, so it is one step. -/
def NodeStream.call (s : NodeStream) : StreamCall → Option (NodeStream × StreamOutcome)
  | .feedData chunk => some ((s.feedData chunk).map id .ofFeed)
  | .feedControl control => some ((s.feedControl control).map id .ofFeed)
  | .feedEnd result => some (s.feedEnd result, .returned)
  | .feedError error => some (s.feedError error, .returned)
  | .receiveEvent => s.receiveEvent.map (Prod.map id .received)

/-- The step function behind a label: make the call, and check that it came out as told. -/
def NodeStream.next (s : NodeStream) (l : StreamLabel) : Option NodeStream :=
  match s.call l.1 with
  | some (t, out) => if out = l.2 then some t else none
  | none => none

def StreamStep (s : NodeStream) (l : StreamLabel) (t : NodeStream) : Prop := s.next l = some t

/-- The event a call feeds. -/
def StreamCall.fed : StreamCall → Option StreamEvent
  | .feedData chunk => some (.data chunk)
  | .feedControl control => some (.control control)
  | _ => none

def StreamCall.isFeedEnd : StreamCall → Bool
  | .feedEnd _ => true
  | _ => false

/-- The events fed before `feed_end`, in order. -/
def fedBeforeEnd (ls : List StreamLabel) : List StreamEvent :=
  (ls.takeWhile fun l => !l.1.isFeedEnd).filterMap fun l => l.1.fed

/-- The events the consumer received, in order. -/
def receivedEvents (ls : List StreamLabel) : List StreamEvent :=
  ls.filterMap fun l =>
    match l.2 with
    | .received (.event e) => some e
    | _ => none

/-- Where a step is the `feed_end` that ends the stream, its queue has room for the end
    marker. -/
def RoomForEnd (s : NodeStream) (l : StreamLabel) (_t : NodeStream) : Prop :=
  l.1.isFeedEnd = true → s.closed = false → s.queue.full = false

/-! ## 3. What one step can do -/

/-- The queue once `_replace_queue_tail` has made room in it. -/
def NodeStream.roomMade (s : NodeStream) : List StreamItem :=
  if s.queue.full then s.queue.items.tail else s.queue.items

@[simp] theorem NodeStream.replaceQueueTail_closed {s : NodeStream} {item : StreamItem} :
    (s.replaceQueueTail item).closed = s.closed := rfl

theorem NodeStream.replaceQueueTail_items (s : NodeStream) (item : StreamItem) :
    (s.replaceQueueTail item).queue.items = s.roomMade ++ [item] := by
  have put : ∀ q : BoundedQueue StreamItem NODE_STREAM_QUEUE_DEPTH, q.full = false →
      ((q.putNowait item).getD q).items = q.items ++ [item] := by
    intro q hq
    cases h : q.putNowait item with
    | none => exact absurd (BoundedQueue.putNowait_eq_none.mp h) (by simp [hq])
    | some q' => exact (BoundedQueue.putNowait_eq_some.mp h).2
  unfold replaceQueueTail roomMade
  cases hf : s.queue.full with
  | false => simpa using put _ hf
  | true =>
    cases hg : s.queue.getNowait with
    | none =>
      -- a full queue of depth 32 is not empty
      have hlen := BoundedQueue.full_iff.mp hf
      rw [BoundedQueue.getNowait_eq_none.mp hg] at hlen
      exact absurd hlen (by simp [NODE_STREAM_QUEUE_DEPTH])
    | some got =>
      obtain ⟨head, q⟩ := got
      have hq := BoundedQueue.getNowait_eq_some.mp hg
      have hroom : q.full = false := by
        have hlen := BoundedQueue.full_iff.mp hf
        rw [hq, List.length_cons] at hlen
        exact BoundedQueue.not_full_iff.mpr (by omega)
      simpa [hq] using put q hroom

theorem StreamStep.deterministic (s : NodeStream) (l : StreamLabel) (t u : NodeStream)
    (h : StreamStep s l t) (h' : StreamStep s l u) : t = u :=
  Option.some.inj (h.symm.trans h')

theorem NodeStream.receiveEvent_eq_some {s t : NodeStream} {got : Received}
    (h : s.receiveEvent = some (t, got)) :
    ∃ item, s.queue.items = item :: t.queue.items ∧ t.closed = s.closed ∧
      got = item.received := by
  obtain ⟨⟨item, queue⟩, hget, heq⟩ := Option.map_eq_some_iff.mp h
  obtain ⟨rfl, rfl⟩ := Prod.mk.inj heq
  exact ⟨item, BoundedQueue.getNowait_eq_some.mp hget, rfl, rfl⟩

@[simp] theorem NodeStream.feedEnd_closed {s : NodeStream} {result : Option JsonObject} :
    (s.feedEnd result).closed = true := by
  unfold feedEnd
  split
  · assumption
  · rfl

@[simp] theorem NodeStream.feedError_closed {s : NodeStream} {error : NodeError} :
    (s.feedError error).closed = true := by
  unfold feedError
  split
  · assumption
  · rfl

/-! A stream keeps its id, and feeding it raises nothing but the overflow. -/

@[simp] theorem NodeStream.feedEnd_streamId {s : NodeStream} {result : Option JsonObject} :
    (s.feedEnd result).streamId = s.streamId := by
  unfold feedEnd
  split
  · rfl
  · rfl

@[simp] theorem NodeStream.feedError_streamId {s : NodeStream} {error : NodeError} :
    (s.feedError error).streamId = s.streamId := by
  unfold feedError
  split
  · rfl
  · rfl

theorem NodeStream.feedEvent_spec (s : NodeStream) (event : StreamEvent) :
    (s.feedEvent event).1.streamId = s.streamId ∧
      ∀ e, (s.feedEvent event).2 = some e → e = overflow := by
  unfold feedEvent
  split
  · exact ⟨rfl, fun e h => absurd h (by simp)⟩
  · split
    · exact ⟨rfl, fun e h => absurd h (by simp)⟩
    · exact ⟨feedError_streamId, fun e h => (Option.some.inj h).symm⟩

/-- A stream that is still open after a chunk was open before, and queues at most it. -/
theorem NodeStream.feedEvent_open {s : NodeStream} {event : StreamEvent}
    (h : (s.feedEvent event).1.closed = false) :
    s.closed = false ∧
      (s.feedEvent event).1.queue.items = s.queue.items ++ [.event event] := by
  unfold feedEvent at h ⊢
  cases hs : s.closed with
  | true => simp [hs] at h
  | false =>
    simp only [hs, Bool.false_eq_true, if_false] at h ⊢
    cases hput : s.queue.putNowait (.event event) with
    | none => simp [hput] at h
    | some queue => exact ⟨trivial, (BoundedQueue.putNowait_eq_some.mp hput).2⟩

/-- Everything a step can do to a stream. -/
inductive StreamEffect (s : NodeStream) : StreamLabel → NodeStream → Prop
  | received {t : NodeStream} (item : StreamItem) (queue : s.queue.items = item :: t.queue.items)
      (closed : t.closed = s.closed) : StreamEffect s (.receiveEvent, .received item.received) t
  | ignored {c : StreamCall} (closed : s.closed = true) : StreamEffect s (c, .returned) s
  | accepted {c : StreamCall} {t : NodeStream} (event : StreamEvent) (fed : c.fed = some event)
      (wasOpen : s.closed = false) (closed : t.closed = false)
      (queue : t.queue.items = s.queue.items ++ [.event event]) :
      StreamEffect s (c, .returned) t
  | ended {c : StreamCall} {t : NodeStream} (call : c.isFeedEnd = true)
      (wasOpen : s.closed = false) (closed : t.closed = true)
      (queue : t.queue.items = s.roomMade ++ [.streamEnd]) : StreamEffect s (c, .returned) t
  | failed {c : StreamCall} {out : StreamOutcome} {t : NodeStream} (error : NodeError)
      (quiet : ∀ e, out ≠ .received e) (wasOpen : s.closed = false) (closed : t.closed = true)
      (queue : t.queue.items = s.roomMade ++ [.error error]) : StreamEffect s (c, out) t

theorem NodeStream.feedEvent_effect {s : NodeStream} {c : StreamCall} {event : StreamEvent}
    (hc : c.fed = some event) :
    StreamEffect s (c, .ofFeed (s.feedEvent event).2) (s.feedEvent event).1 := by
  unfold feedEvent
  cases hs : s.closed with
  | true => simpa [StreamOutcome.ofFeed] using .ignored hs
  | false =>
    simp only [Bool.false_eq_true, if_false]
    cases hput : s.queue.putNowait (.event event) with
    | some queue =>
      exact .accepted event hc hs rfl (BoundedQueue.putNowait_eq_some.mp hput).2
    | none =>
      refine .failed overflow (by simp [StreamOutcome.ofFeed]) hs ?_ ?_
      · simp [feedError, hs]
      · simpa [feedError, hs, roomMade] using
          replaceQueueTail_items { s with closed := true } (.error overflow)

theorem StreamStep.effect {s t : NodeStream} {l : StreamLabel} (h : StreamStep s l t) :
    StreamEffect s l t := by
  obtain ⟨c, out⟩ := l
  have hcall : s.call c = some (t, out) := by
    unfold StreamStep NodeStream.next at h
    cases hc : s.call c with
    | none => simp [hc] at h
    | some r =>
      obtain ⟨t', out'⟩ := r
      simp only [hc] at h
      split at h
      · rename_i hout; simp_all
      · exact absurd h (by simp)
  cases c with
  | feedData chunk =>
    obtain ⟨rfl, rfl⟩ : (s.feedData chunk).1 = t ∧ .ofFeed (s.feedData chunk).2 = out := by
      simpa [NodeStream.call, Prod.ext_iff] using hcall
    exact NodeStream.feedEvent_effect rfl
  | feedControl control =>
    obtain ⟨rfl, rfl⟩ : (s.feedControl control).1 = t ∧
        .ofFeed (s.feedControl control).2 = out := by
      simpa [NodeStream.call, Prod.ext_iff] using hcall
    exact NodeStream.feedEvent_effect rfl
  | feedEnd result =>
    obtain ⟨rfl, rfl⟩ : s.feedEnd result = t ∧ .returned = out := by
      simpa [NodeStream.call] using hcall
    unfold NodeStream.feedEnd
    cases hs : s.closed with
    | true => exact .ignored hs
    | false =>
      refine .ended rfl hs (by simp) ?_
      exact NodeStream.replaceQueueTail_items _ _
  | feedError error =>
    obtain ⟨rfl, rfl⟩ : s.feedError error = t ∧ .returned = out := by
      simpa [NodeStream.call] using hcall
    unfold NodeStream.feedError
    cases hs : s.closed with
    | true => exact .ignored hs
    | false =>
      refine .failed error (by simp) hs (by simp) ?_
      exact NodeStream.replaceQueueTail_items _ _
  | receiveEvent =>
    obtain ⟨⟨t', got⟩, hget, heq⟩ := Option.map_eq_some_iff.mp hcall
    obtain ⟨rfl, rfl⟩ := Prod.mk.inj heq
    obtain ⟨item, hq, hc, rfl⟩ := NodeStream.receiveEvent_eq_some hget
    exact .received item hq hc

/-! ## 4. What happened to the events fed

`StreamFate` is the invariant: what the history of a run says about the stream it led to. -/

theorem fedBeforeEnd_open {ls : List StreamLabel} {l : StreamLabel}
    (h : ∀ k ∈ ls, k.1.isFeedEnd = false) :
    fedBeforeEnd (ls ++ [l]) = fedBeforeEnd ls ++ l.1.fed.toList := by
  have hpos : ∀ k ∈ ls, (!k.1.isFeedEnd) = true := fun k hk => by simp [h k hk]
  unfold fedBeforeEnd
  rw [List.takeWhile_append_of_pos hpos, List.takeWhile_eq_self_iff.mpr hpos,
    List.filterMap_append]
  obtain ⟨c, out⟩ := l
  cases c <;> rfl

theorem fedBeforeEnd_ended {ls : List StreamLabel} {l : StreamLabel}
    (h : ∃ k ∈ ls, k.1.isFeedEnd = true) : fedBeforeEnd (ls ++ [l]) = fedBeforeEnd ls := by
  obtain ⟨k, hk, hend⟩ := h
  unfold fedBeforeEnd
  rw [List.takeWhile_append, if_neg]
  intro hlen
  have hall := List.takeWhile_eq_self_iff.mp
    ((List.takeWhile_sublist _).eq_of_length hlen) k hk
  simp [hend] at hall

/-- How a stream with history `ls` stands. `waiting` are the events not received yet. -/
inductive StreamFate (id : RequestId) (ls : List StreamLabel) (s : NodeStream) : Prop
  | flowing (waiting : List StreamEvent) (isOpen : s.closed = false)
      (noEnd : ∀ l ∈ ls, l.1.isFeedEnd = false) (queue : s.queue.items = waiting.map .event)
      (all : receivedEvents ls ++ waiting = fedBeforeEnd ls)
      (roomy : Run (Guard StreamStep RoomForEnd) (.new id) ls s)
  | complete (waiting : List StreamEvent) (closed : s.closed = true)
      (hadEnd : ∃ l ∈ ls, l.1.isFeedEnd = true)
      (queue : s.queue.items = waiting.map .event ++ [.streamEnd])
      (all : receivedEvents ls ++ waiting = fedBeforeEnd ls)
      (roomy : Run (Guard StreamStep RoomForEnd) (.new id) ls s)
  /-- The end was forced into a full queue: one event is missing. -/
  | short (waiting : List StreamEvent) (closed : s.closed = true)
      (hadEnd : ∃ l ∈ ls, l.1.isFeedEnd = true)
      (queue : s.queue.items = waiting.map .event ++ [.streamEnd])
      (one : (receivedEvents ls ++ waiting).length + 1 = (fedBeforeEnd ls).length)
      (forced : ∀ t, ¬ Run (Guard StreamStep RoomForEnd) (.new id) ls t)
  /-- An error closed it, or its end was received: no end is to come. -/
  | drained (closed : s.closed = true) (queue : .streamEnd ∉ s.queue.items)

theorem receivedEvents_snoc (ls : List StreamLabel) (l : StreamLabel) :
    receivedEvents (ls ++ [l]) = receivedEvents ls ++ receivedEvents [l] := by
  simp [receivedEvents, List.filterMap_append]

theorem NodeStream.streamEnd_notMem_roomMade {s : NodeStream} {waiting : List StreamEvent}
    (hq : s.queue.items = waiting.map .event) : .streamEnd ∉ s.roomMade := by
  have hno : .streamEnd ∉ s.queue.items := by rw [hq]; simp
  unfold roomMade
  split
  · exact fun h => hno (List.mem_of_mem_tail h)
  · exact hno

/-- A step that is no `feed_end` on an open stream needs no room. -/
theorem roomForEnd_of_closed {s t : NodeStream} {l : StreamLabel} (h : s.closed = true) :
    RoomForEnd s l t := fun _ hs => absurd (h.symm.trans hs) (by simp)

theorem roomForEnd_of_not_end {s t : NodeStream} {l : StreamLabel}
    (h : l.1.isFeedEnd = false) : RoomForEnd s l t :=
  fun hs _ => absurd (h.symm.trans hs) (by simp)

theorem StreamCall.not_end_of_fed {c : StreamCall} {e : StreamEvent} (h : c.fed = some e) :
    c.isFeedEnd = false := by
  cases c <;> simp_all [fed, isFeedEnd]

/-- The run with one more step is not guarded if the run without it was not. -/
theorem not_roomy_snoc {id : RequestId} {ls : List StreamLabel} {l : StreamLabel}
    (h : ∀ t, ¬ Run (Guard StreamStep RoomForEnd) (.new id) ls t) (t : NodeStream) :
    ¬ Run (Guard StreamStep RoomForEnd) (.new id) (ls ++ [l]) t := by
  intro run
  obtain ⟨u, hu, -⟩ := run.snoc_inv
  exact h u hu

/-- A step that feeds nothing and is no `feed_end`. -/
theorem fedBeforeEnd_received (ls : List StreamLabel) (out : StreamOutcome) :
    fedBeforeEnd (ls ++ [(.receiveEvent, out)]) = fedBeforeEnd ls := by
  by_cases h : ∃ k ∈ ls, k.1.isFeedEnd = true
  · exact fedBeforeEnd_ended h
  · rw [fedBeforeEnd_open (by simpa using h)]
    simp [StreamCall.fed]

theorem StreamFate.received {id : RequestId} {ls : List StreamLabel} {s t : NodeStream}
    {item : StreamItem} (hf : StreamFate id ls s)
    (step : StreamStep s (.receiveEvent, .received item.received) t)
    (hq : s.queue.items = item :: t.queue.items) (hc : t.closed = s.closed) :
    StreamFate id (ls ++ [(.receiveEvent, .received item.received)]) t := by
  have snoc := receivedEvents_snoc ls (.receiveEvent, .received item.received)
  have fed := fedBeforeEnd_received ls (.received item.received)
  have room : RoomForEnd s (.receiveEvent, .received item.received) t :=
    roomForEnd_of_not_end rfl
  cases hf with
  | flowing waiting isOpen noEnd queue all roomy =>
    cases waiting with
    | nil => exact absurd (queue.symm.trans hq) (by simp)
    | cons w ws =>
      obtain ⟨rfl, ht⟩ := List.cons.inj (queue.symm.trans hq)
      refine .flowing ws (hc.trans isOpen) ?_ ht.symm ?_ (roomy.snoc ⟨step, room⟩)
      · intro k hk
        rcases List.mem_append.mp hk with hk | hk
        · exact noEnd k hk
        · rw [List.mem_singleton.mp hk]; rfl
      · rw [snoc, fed, ← all]; simp [receivedEvents, StreamItem.received]
  | complete waiting closed hadEnd queue all roomy =>
    cases waiting with
    | nil =>
      obtain ⟨-, ht⟩ := List.cons.inj (queue.symm.trans hq)
      exact .drained (hc.trans closed) (by simp [← ht])
    | cons w ws =>
      obtain ⟨rfl, ht⟩ := List.cons.inj (queue.symm.trans hq)
      refine .complete ws (hc.trans closed) ?_ ht.symm ?_ (roomy.snoc ⟨step, room⟩)
      · exact hadEnd.imp fun k hk => ⟨List.mem_append_left _ hk.1, hk.2⟩
      · rw [snoc, fed, ← all]; simp [receivedEvents, StreamItem.received]
  | short waiting closed hadEnd queue one forced =>
    cases waiting with
    | nil =>
      obtain ⟨-, ht⟩ := List.cons.inj (queue.symm.trans hq)
      exact .drained (hc.trans closed) (by simp [← ht])
    | cons w ws =>
      obtain ⟨rfl, ht⟩ := List.cons.inj (queue.symm.trans hq)
      refine .short ws (hc.trans closed) ?_ ht.symm ?_ (not_roomy_snoc forced)
      · exact hadEnd.imp fun k hk => ⟨List.mem_append_left _ hk.1, hk.2⟩
      · rw [snoc, fed, ← one]; simp [receivedEvents, StreamItem.received]
  | drained closed queue =>
    refine .drained (hc.trans closed) fun h => queue ?_
    rw [hq]
    exact List.mem_cons_of_mem _ h

/-- A call on a closed stream leaves everything as it was. -/
theorem StreamFate.ignored {id : RequestId} {ls : List StreamLabel} {s : NodeStream}
    {c : StreamCall} (hf : StreamFate id ls s) (step : StreamStep s (c, .returned) s)
    (hs : s.closed = true) : StreamFate id (ls ++ [(c, .returned)]) s := by
  have snoc : receivedEvents (ls ++ [(c, .returned)]) = receivedEvents ls := by
    rw [receivedEvents_snoc]; simp [receivedEvents]
  have more : (∃ l ∈ ls, l.1.isFeedEnd = true) →
      ∃ l ∈ ls ++ [(c, .returned)], l.1.isFeedEnd = true :=
    fun h => h.imp fun k hk => ⟨List.mem_append_left _ hk.1, hk.2⟩
  cases hf with
  | flowing _ isOpen => exact absurd (isOpen.symm.trans hs) (by simp)
  | complete waiting closed hadEnd queue all roomy =>
    refine .complete waiting closed (more hadEnd) queue ?_
      (roomy.snoc ⟨step, roomForEnd_of_closed hs⟩)
    rw [snoc, fedBeforeEnd_ended hadEnd, all]
  | short waiting closed hadEnd queue one forced =>
    refine .short waiting closed (more hadEnd) queue ?_ (not_roomy_snoc forced)
    rw [snoc, fedBeforeEnd_ended hadEnd, one]
  | drained closed queue => exact .drained closed queue

/-- **One step preserves the account.** -/
theorem StreamFate.step {id : RequestId} {ls : List StreamLabel} {l : StreamLabel}
    {s t : NodeStream} (step : StreamStep s l t) (hf : StreamFate id ls s) :
    StreamFate id (ls ++ [l]) t := by
  cases step.effect with
  | received item queue closed => exact hf.received step queue closed
  | ignored closed => exact hf.ignored step closed
  | accepted event fed wasOpen closed queue =>
    cases hf with
    | flowing waiting isOpen noEnd hq all roomy =>
      have hend := StreamCall.not_end_of_fed fed
      refine .flowing (waiting ++ [event]) closed ?_ (by simp [queue, hq]) ?_
        (roomy.snoc ⟨step, roomForEnd_of_not_end hend⟩)
      · intro k hk
        rcases List.mem_append.mp hk with hk | hk
        · exact noEnd k hk
        · rw [List.mem_singleton.mp hk]; exact hend
      · rw [receivedEvents_snoc, fedBeforeEnd_open noEnd, ← all]
        simp [receivedEvents, fed]
    | complete _ closed' | short _ closed' | drained closed' =>
      exact absurd (wasOpen.symm.trans closed') (by simp)
  | @ended c t call wasOpen closed queue =>
    cases hf with
    | flowing waiting isOpen noEnd hq all roomy =>
      have hadEnd : ∃ k ∈ ls ++ [(c, StreamOutcome.returned)], k.1.isFeedEnd = true :=
        ⟨_, List.mem_append_right _ (List.mem_singleton.mpr rfl), call⟩
      have hfed : fedBeforeEnd (ls ++ [(c, .returned)]) = fedBeforeEnd ls := by
        rw [fedBeforeEnd_open noEnd]
        cases c <;> simp_all [StreamCall.fed, StreamCall.isFeedEnd]
      have hrec : receivedEvents (ls ++ [(c, .returned)]) = receivedEvents ls := by
        rw [receivedEvents_snoc]; simp [receivedEvents]
      cases hfull : s.queue.full with
      | false =>
        refine .complete waiting closed hadEnd ?_ (by rw [hrec, hfed, all])
          (roomy.snoc ⟨step, fun _ _ => hfull⟩)
        rw [queue, NodeStream.roomMade, hfull, hq]; rfl
      | true =>
        -- the head of the full queue makes way for the end marker
        refine .short waiting.tail closed hadEnd ?_ ?_ ?_
        · rw [queue, NodeStream.roomMade, hfull, hq, ← List.map_tail]; rfl
        · have hlen := BoundedQueue.full_iff.mp hfull
          rw [hq, List.length_map, NODE_STREAM_QUEUE_DEPTH] at hlen
          rw [hrec, hfed, ← all, List.length_append, List.length_append, List.length_tail]
          omega
        · intro u run
          obtain ⟨v, hv, -, hroom⟩ := run.snoc_inv
          obtain rfl := Run.deterministic StreamStep.deterministic roomy.ofGuard hv.ofGuard
          exact absurd (hfull.symm.trans (hroom call wasOpen)) (by simp)
    | complete _ closed' | short _ closed' | drained closed' =>
      exact absurd (wasOpen.symm.trans closed') (by simp)
  | failed error quiet wasOpen closed queue =>
    cases hf with
    | flowing waiting isOpen noEnd hq all roomy =>
      refine .drained closed ?_
      rw [queue]
      simpa using NodeStream.streamEnd_notMem_roomMade hq
    | complete _ closed' | short _ closed' | drained closed' =>
      exact absurd (wasOpen.symm.trans closed') (by simp)

theorem StreamFate.initial (id : RequestId) : StreamFate id [] (.new id) :=
  .flowing [] rfl (by simp) rfl (by simp [receivedEvents, fedBeforeEnd]) .refl

theorem StreamFate.ofRun {id : RequestId} {ls : List StreamLabel} {s : NodeStream}
    (run : Run StreamStep (.new id) ls s) : StreamFate id ls s :=
  run.traceInvariant (fun _ _ _ _ step hf => hf.step step) (.initial id)

/-! ## 5. Delivery -/

/-- **A normal end is lossless exactly when `feed_end` found room.** After any run `ls`, if
    the consumer's next `receive_event` returns `None`, it received what was fed before
    `feed_end`, no event more, fewer or elsewhere, iff no `feed_end` of the run met an open
    stream with a full queue. -/
theorem normal_end_lossless_iff {id : RequestId} {ls : List StreamLabel} {s t : NodeStream}
    (run : Run StreamStep (.new id) ls s)
    (hend : StreamStep s (.receiveEvent, .received .streamEnd) t) :
    receivedEvents ls = fedBeforeEnd ls ↔
      Run (Guard StreamStep RoomForEnd) (.new id) ls s := by
  obtain ⟨item, hitem, hq⟩ : ∃ item : StreamItem, item.received = .streamEnd ∧
      s.queue.items = item :: t.queue.items := by
    generalize hl : ((.receiveEvent, .received .streamEnd) : StreamLabel) = l at hend
    cases hend.effect with
    | received item queue =>
      obtain ⟨-, h⟩ := Prod.mk.inj hl
      exact ⟨item, (StreamOutcome.received.inj h).symm, queue⟩
    | failed _ quiet => exact absurd (Prod.mk.inj hl).2.symm (quiet _)
    | ignored | accepted | ended => exact absurd (Prod.mk.inj hl).2 (by simp)
  obtain rfl : item = .streamEnd := by cases item <;> simp_all [StreamItem.received]
  cases StreamFate.ofRun run with
  | flowing waiting _ _ queue =>
    have hmem : StreamItem.streamEnd ∈ waiting.map StreamItem.event := by simp [← queue, hq]
    exact absurd hmem (by simp)
  | complete waiting _ _ queue all roomy =>
    obtain rfl : waiting = [] := by
      cases waiting with
      | nil => rfl
      | cons w ws => exact absurd (queue.symm.trans hq) (by simp)
    exact ⟨fun _ => roomy, fun _ => by simpa using all⟩
  | short waiting _ _ queue one forced =>
    obtain rfl : waiting = [] := by
      cases waiting with
      | nil => rfl
      | cons w ws => exact absurd (queue.symm.trans hq) (by simp)
    refine ⟨fun h => ?_, fun h => absurd h (forced s)⟩
    rw [h, List.append_nil] at one
    exact absurd one (by omega)
  | drained _ queue => exact absurd (by rw [hq]; simp) queue

/-- A run with the labels of a schedule that plays to the end and then reads the end. -/
theorem runTo_end (id : RequestId) (ls : List StreamLabel)
    (h : (exec NodeStream.next (.new id)
      (ls ++ [(.receiveEvent, .received .streamEnd)])).isSome = true) :
    ∃ s t, Run StreamStep (.new id) ls s ∧
      StreamStep s (.receiveEvent, .received .streamEnd) t := by
  obtain ⟨t, ht⟩ := Option.isSome_iff_exists.mp h
  obtain ⟨s, hs, last⟩ := (Run.ofExec ht).snoc_inv
  exact ⟨s, t, hs, last⟩

/-- Feed `n` chunks, end the stream, receive the chunks from the `k`-th on. -/
def feedThenDrain (n k : Nat) : List StreamLabel :=
  (List.range n).map (fun i => (.feedData [UInt8.ofNat i], .returned)) ++
  [(.feedEnd none, .returned)] ++
  (List.range (n - k)).map fun i =>
    (.receiveEvent, .received (.event (.data [UInt8.ofNat (k + i)])))

/-- Two chunks, the end, and both chunks received. -/
theorem normal_end_lossless_two : ∃ s,
    Run StreamStep (.new 0) (feedThenDrain 2 0) s ∧
    (receivedEvents (feedThenDrain 2 0) = fedBeforeEnd (feedThenDrain 2 0) ↔
      Run (Guard StreamStep RoomForEnd) (.new 0) (feedThenDrain 2 0) s) := by
  obtain ⟨s, t, run, hend⟩ := runTo_end 0 (feedThenDrain 2 0) (by decide)
  exact ⟨s, run, normal_end_lossless_iff run hend⟩

/-- **The oldest of 32 waiting chunks is lost silently.** The stream is ended with its queue
    full; the consumer receives the 31 later chunks and then a normal end. -/
theorem full_queue_end_loses_oldest : ∃ s t,
    Run StreamStep (.new 0) (feedThenDrain 32 1) s ∧
    StreamStep s (.receiveEvent, .received .streamEnd) t ∧
    receivedEvents (feedThenDrain 32 1) ≠ fedBeforeEnd (feedThenDrain 32 1) := by
  obtain ⟨s, t, run, hend⟩ :=
    runTo_end 0 (feedThenDrain 32 1) (by decide +kernel)
  exact ⟨s, t, run, hend, by decide⟩

end Termroom.Node
