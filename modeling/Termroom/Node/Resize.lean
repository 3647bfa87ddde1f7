import Mathlib
import Termroom.Conc.Run
import Termroom.Conc.Stateful
import Termroom.Data.Json

/-!
# `TerminalAgentStream.resize`: a resize is acknowledged once

The Core resizes a Node terminal with requests that carry a growing revision, and may send
one again when it has not seen the answer. The Node keeps the last revision it accepted, with
its fields and its result: the same request again is answered from there, any other of an old
revision is rejected. What it does in between is a series of steps that each may fail: the
role of the tmux client, the PTY's size, the wait for tmux, the bootstrap callback, the
freeze and the demotion. A failure before tmux shows the new size is undone and may be
retried; one after it closes the stream.

`resize_served` says what the requests on one stream come to, whatever fails.
`accept_retryable_iff` says what a failure that may be retried leaves behind, which is what
the Core has to reckon with (`Node/Geometry.lean`).
-/

set_option autoImplicit false

namespace Termroom.Node.Resize

open Conc Data

/-! ## 1. Requests and results -/

/-- An exception: `NodeAgentError`, `OSError`, or one that `resize` does not handle. -/
inductive ResizeError where
  | agent (message code : String)
  | os
  | other
  deriving DecidableEq

/-- `except (OSError, NodeAgentError)`. -/
def ResizeError.caught : ResizeError → Bool
  | .agent _ _ | .os => true
  | .other => false

def invalid : ResizeError := .agent "Terminal resize is invalid" "terminal_resize_invalid"

def stale : ResizeError := .agent "Terminal resize is stale" "terminal_resize_stale"

def bootstrapStale : ResizeError := .agent "Terminal bootstrap is stale" "terminal_resize_stale"

def notApplied : ResizeError :=
  .agent "Terminal grid resize was not applied" "terminal_resize_failed"

def freezeFailed : ResizeError := .agent "Terminal grid freeze failed" "terminal_resize_failed"

/-- The `values` of an accepted request: what `resize` checks is carried along. -/
structure ResizeRequest where
  streamId : String
  revision : Int
  rows : Int
  cols : Int
  affectsGrid : Bool
  bootstrap : Bool
  revision_range : 1 ≤ revision ∧ revision ≤ 2 ^ 31 - 1
  rows_range : 4 ≤ rows ∧ rows ≤ 500
  cols_range : 20 ≤ cols ∧ cols ≤ 1000
  bootstrap_grid : bootstrap = true → affectsGrid = true
  deriving DecidableEq

namespace ResizeRequest

def viewport (r : ResizeRequest) : Int × Int := (r.rows, r.cols)

/-- The first check of `resize`: the fields it reads, and the types and ranges they need. -/
def parse (streamId : String) (payload : JsonObject) : Except ResizeError ResizeRequest :=
  match Json.get payload "revision", Json.get payload "rows", Json.get payload "cols",
    Json.get payload "affects_grid", Json.get payload "bootstrap" with
  | .int revision, .int rows, .int cols, .bool affectsGrid, .bool bootstrap =>
    if Json.get payload "stream_id" = .str streamId then
      if h : (1 ≤ revision ∧ revision ≤ 2 ^ 31 - 1) ∧ (4 ≤ rows ∧ rows ≤ 500) ∧
          (20 ≤ cols ∧ cols ≤ 1000) ∧ (bootstrap = true → affectsGrid = true) then
        .ok ⟨streamId, revision, rows, cols, affectsGrid, bootstrap, h.1, h.2.1, h.2.2.1, h.2.2.2⟩
      else .error invalid
    else .error invalid
  | _, _, _, _, _ => .error invalid

/-- What a request that is let through looks like. -/
theorem parse_fields {streamId : String} {payload : JsonObject} {r : ResizeRequest}
    (h : parse streamId payload = .ok r) : r.streamId = streamId ∧
      Json.get payload "revision" = .int r.revision ∧ Json.get payload "rows" = .int r.rows ∧
      Json.get payload "cols" = .int r.cols ∧
      Json.get payload "affects_grid" = .bool r.affectsGrid ∧
      Json.get payload "bootstrap" = .bool r.bootstrap := by
  unfold parse at h
  split at h
  · rename_i hrevision hrows hcols haffects hbootstrap
    split at h
    · split at h
      · obtain rfl := Except.ok.inj h
        exact ⟨rfl, hrevision, hrows, hcols, haffects, hbootstrap⟩
      · exact absurd h (by simp)
    · exact absurd h (by simp)
  · exact absurd h (by simp)

/-- The request as the Core writes it. -/
def identity (r : ResizeRequest) : JsonObject :=
  [("stream_id", .str r.streamId), ("revision", .int r.revision), ("rows", .int r.rows),
   ("cols", .int r.cols), ("affects_grid", .bool r.affectsGrid),
   ("bootstrap", .bool r.bootstrap)]

end ResizeRequest

/-- `outcome`: the request, and how far it came. -/
structure ResizeOutcome where
  values : ResizeRequest
  ok : Bool
  sharedApplied : Bool
  viewportApplied : Bool
  passiveRestored : Bool
  bootstrapConsumed : Bool
  gridActive : Bool
  retryable : Bool
  cleanupConfirmed : Bool
  deriving DecidableEq

def ResizeOutcome.new (values : ResizeRequest) (gridActive : Bool) : ResizeOutcome :=
  ⟨values, false, false, false, false, false, gridActive, true, false⟩

/-- `outcome` as it is sent. -/
def ResizeOutcome.fields (o : ResizeOutcome) : JsonObject :=
  o.values.identity ++
    [("ok", .bool o.ok), ("shared_applied", .bool o.sharedApplied),
     ("viewport_applied", .bool o.viewportApplied), ("passive_restored", .bool o.passiveRestored),
     ("bootstrap_consumed", .bool o.bootstrapConsumed), ("grid_active", .bool o.gridActive),
     ("retryable", .bool o.retryable), ("cleanup_confirmed", .bool o.cleanupConfirmed)]

/-! ## 2. The stream and its callbacks -/

/-- What `resize` and `close` call outside the stream. -/
inductive TerminalCall where
  | setGridResize (enabled : Bool)
  | setWindowSize (rows cols : Int)
  | signal
  | waitGridResize (rows cols : Int)
  | gridResizeApplied
  | freezeGrid
  | terminate
  | cleanup
  deriving DecidableEq

/-- How a call ends: it returns (a callback, with `True`), it returns `False`, or raises. -/
inductive Answer where
  | done
  | refused
  | raised (error : ResizeError)
  deriving DecidableEq

/-- The answers to the calls of one `resize`, one for each place it calls from. -/
structure ResizeAnswers where
  role : Answer
  window : Answer
  signal : Answer
  wait : Answer
  applied : Answer
  freeze : Answer
  demotion : Answer
  restore : Answer
  closeFreeze : Answer
  terminate : Answer
  cleanup : Answer
  deriving DecidableEq

/-- Which of the optional callbacks there are. `grid_resize_applied`, which `resize` sets to
    `None`, is a field of the stream. -/
structure TerminalCallbacks where
  setGridResize : Bool
  waitGridResize : Bool
  freezeGrid : Bool
  cleanup : Bool
  deriving DecidableEq

/-- `TerminalAgentStream`, with the calls it has made. -/
structure TerminalStream where
  streamId : String
  callbacks : TerminalCallbacks
  gridResizeApplied : Bool
  gridActive : Bool
  lastViewport : Option (Int × Int)
  closed : Bool
  resizeRevision : Int
  resizePayload : Option ResizeRequest
  resizeResult : Option ResizeOutcome
  cleanupConfirmed : Bool
  calls : List (TerminalCall × Answer)
  deriving DecidableEq

/-- `__init__`. -/
def TerminalStream.opened (streamId : String) (callbacks : TerminalCallbacks)
    (gridResizeApplied : Bool) : TerminalStream :=
  ⟨streamId, callbacks, gridResizeApplied, false, none, false, 0, none, none, false, []⟩

abbrev TerminalM (α : Type) := Stateful TerminalStream ResizeError α

open Stateful

/-- One call: it is recorded with its answer. -/
def perform (call : TerminalCall) (answer : Answer) : TerminalM Bool := do
  modify fun s => { s with calls := s.calls ++ [(call, answer)] }
  match answer with
  | .done => pure true
  | .refused => pure false
  | .raised e => raise e

/-- A callback that may be `None`. -/
def callback (present : Bool) (call : TerminalCall) (answer : Answer) (absent : Bool) :
    TerminalM Bool := if present then perform call answer else pure absent

/-- `outcome.update(…)`, on the dict that `self.resize_result` is. -/
def update (f : ResizeOutcome → ResizeOutcome) : TerminalM Unit :=
  modify fun s => { s with resizeResult := s.resizeResult.map f }

/-- `dict(self.resize_result)`, after the `assert`. -/
def result : TerminalM ResizeOutcome := do
  match (← get).resizeResult with
  | some outcome => pure outcome
  | none => raise .other

/-! ## 3. `close` and `resize` -/

/-- The freeze in `close`, which swallows what it raises. -/
def closeFreeze (a : ResizeAnswers) : TerminalM Unit := do
  let s ← get
  when (s.gridActive ∧ s.callbacks.freezeGrid) do
    discard (perform .freezeGrid a.closeFreeze).attempt

/-- The cleanup in `close`: it is confirmed if it returns `True`. -/
def closeCleanup (a : ResizeAnswers) : TerminalM Unit := do
  let s ← get
  when s.callbacks.cleanup do
    let confirmed ← (perform .cleanup a.cleanup).attempt
    modify fun s => { s with cleanupConfirmed := onResult id (fun _ => false) confirmed }

/-- `close`. The signals, the waits for the process and the close of the descriptor are one
    call, which may raise what they do not suppress. -/
def close (a : ResizeAnswers) : TerminalM Unit := do
  let s ← get
  when (¬ s.closed) do
    modify fun s => { s with closed := true }
    closeFreeze a
    discard (perform .terminate a.terminate)
    closeCleanup a

/-- `resize` closes the stream, and says so in the outcome. -/
def failClosed (a : ResizeAnswers) : TerminalM Unit := do
  close a
  let s ← get
  update fun o => { o with retryable := false, cleanupConfirmed := s.cleanupConfirmed }

/-- The same where a role was refused: the outcome gets its activity here already. -/
def failClosedRole (a : ResizeAnswers) : TerminalM Unit := do
  close a
  let s ← get
  update fun o => { o with retryable := false, cleanupConfirmed := s.cleanupConfirmed,
                           gridActive := s.gridActive && !s.cleanupConfirmed }

/-- Take the grid role asked for. `false`: the request ends here. -/
def takeRole (r : ResizeRequest) (a : ResizeAnswers) : TerminalM Bool := do
  let s ← get
  if r.affectsGrid ≠ s.gridActive ∨ r.affectsGrid then do
    if ← callback s.callbacks.setGridResize (.setGridResize r.affectsGrid) a.role true then do
      modify fun s => { s with gridActive := r.affectsGrid }
      pure true
    else do
      when (s.gridActive ∧ ¬ r.affectsGrid) (failClosedRole a)
      pure false
  else pure true

/-- Give the PTY its size, and tell its processes. -/
def setWindowSize (r : ResizeRequest) (a : ResizeAnswers) : TerminalM Unit := do
  discard (perform (.setWindowSize r.rows r.cols) a.window)
  discard (perform .signal a.signal)
  modify fun s => { s with lastViewport := some r.viewport }

def showViewport (r : ResizeRequest) (a : ResizeAnswers) : TerminalM Unit := do
  let s ← get
  when (s.lastViewport ≠ some r.viewport) (setWindowSize r a)
  update fun o => { o with viewportApplied := true }

/-- Wait until tmux shows the size. -/
def awaitGrid (r : ResizeRequest) (a : ResizeAnswers) : TerminalM Unit := do
  let s ← get
  when r.affectsGrid do
    let applied ← callback s.callbacks.waitGridResize (.waitGridResize r.rows r.cols) a.wait true
    when (¬ applied) (raise notApplied)
  update fun o => { o with sharedApplied := r.affectsGrid }

/-- The bootstrap callback: once it has returned, it is gone. -/
def consumeBootstrap (r : ResizeRequest) (a : ResizeAnswers) : TerminalM Unit := do
  let s ← get
  when (r.affectsGrid ∧ s.gridResizeApplied) do
    discard (perform .gridResizeApplied a.applied)
    modify fun s => { s with gridResizeApplied := false }
    update fun o => { o with bootstrapConsumed := true }

/-- Back to the passive role. `false`: the request ends here. -/
def dropRole (a : ResizeAnswers) : TerminalM Bool := do
  let s ← get
  if ← callback s.callbacks.setGridResize (.setGridResize false) a.demotion true then do
    modify fun s => { s with gridActive := false }
    pure true
  else do
    failClosedRole a
    pure false

/-- A bootstrap is frozen and passive again. -/
def demote (r : ResizeRequest) (a : ResizeAnswers) : TerminalM Bool := do
  let s ← get
  if r.bootstrap then do
    let frozen ← callback s.callbacks.freezeGrid .freezeGrid a.freeze true
    when (¬ frozen) (raise freezeFailed)
    dropRole a
  else pure true

/-- What follows once the size has been applied. `some outcome` is a `return dict(outcome)`
    inside the `try`. -/
def finishResize (r : ResizeRequest) (a : ResizeAnswers) : TerminalM (Option ResizeOutcome) := do
  consumeBootstrap r a
  if ← demote r a then do
    let s ← get
    update fun o => { o with ok := true, passiveRestored := !s.gridActive, retryable := false }
    pure none
  else some <$> result

/-- The `try` of `resize`. -/
def tryResize (r : ResizeRequest) (a : ResizeAnswers) : TerminalM (Option ResizeOutcome) := do
  if ← takeRole r a then do
    showViewport r a
    awaitGrid r a
    finishResize r a
  else some <$> result

/-- The `except`: a failure is undone, or the stream is closed. -/
def recover (a : ResizeAnswers) : TerminalM Unit := do
  let s ← get
  if s.resizeResult.any (·.sharedApplied) then failClosed a
  else if s.gridActive then do
    if ← callback s.callbacks.setGridResize (.setGridResize false) a.restore false then
      modify fun s => { s with gridActive := false }
    else failClosed a
  else pure ()

/-- The `finally`. -/
def settle : TerminalM Unit := do
  let s ← get
  update fun o => { o with gridActive := s.gridActive && !s.cleanupConfirmed }

/-- The stream with the request accepted. -/
def TerminalStream.begun (s : TerminalStream) (r : ResizeRequest) : TerminalStream :=
  { s with resizeRevision := r.revision, resizePayload := some r,
           resizeResult := some (.new r s.gridActive) }

/-- `resize` from where the request is accepted. -/
def accept (r : ResizeRequest) (a : ResizeAnswers) : TerminalM ResizeOutcome := do
  modify fun s => s.begun r
  let returned ← ((tryResize r a).tryExcept ResizeError.caught
    (do recover a; pure none)).finally_ settle
  match returned with
  | some outcome => pure outcome
  | none => result

/-- What the checks of `resize` make of a request. -/
inductive Admission where
  | replay
  | accepted (r : ResizeRequest)
  deriving DecidableEq

def TerminalStream.admission (s : TerminalStream) (payload : JsonObject) :
    Except ResizeError Admission := do
  let r ← ResizeRequest.parse s.streamId payload
  if r.revision = s.resizeRevision ∧ s.resizePayload = some r then pure .replay
  else if r.revision ≤ s.resizeRevision ∨ s.closed then .error stale
  else if r.bootstrap ∧ ¬ s.gridResizeApplied then .error bootstrapStale
  else pure (.accepted r)

def resize (payload : JsonObject) (a : ResizeAnswers) : TerminalM ResizeOutcome := do
  let s ← get
  match ← ofExcept (s.admission payload) with
  | .replay => result
  | .accepted r => accept r a

/-! ## 4. Which step fails -/

def Answer.failed : Answer → Bool
  | .raised e => e.caught
  | .done | .refused => false

def Answer.returned : Answer → Bool
  | .raised _ => false
  | .done | .refused => true

section Failures

variable (s : TerminalStream) (r : ResizeRequest) (a : ResizeAnswers)

/-- The request needs its grid role set. -/
def RoleCalled : Prop :=
  (r.affectsGrid ≠ s.gridActive ∨ r.affectsGrid = true) ∧ s.callbacks.setGridResize = true

def RoleTaken : Prop := RoleCalled s r → a.role = .done

/-- The role raises, or it is refused to a stream that should give up its activity and the
    `close` for that raises. -/
def RoleFails : Prop :=
  RoleCalled s r ∧ (a.role.failed = true ∨
    a.role = .refused ∧ r.affectsGrid = false ∧ a.terminate.failed = true)

def ViewportNew : Prop := s.lastViewport ≠ some r.viewport

def ViewportShown : Prop :=
  ViewportNew s r → a.window.returned = true ∧ a.signal.returned = true

def ViewportFails : Prop :=
  ViewportNew s r ∧
    (a.window.failed = true ∨ a.window.returned = true ∧ a.signal.failed = true)

/-- tmux does not show the size in time. -/
def WaitFails : Prop :=
  r.affectsGrid = true ∧ s.callbacks.waitGridResize = true ∧
    (a.wait = .refused ∨ a.wait.failed = true)

/-- The `except` gets the role back. -/
def Restores : Prop := s.callbacks.setGridResize = true ∧ a.restore = .done

/-- **The stream ends up elsewhere, and the request may be retried.** A step fails before the
    size is applied; the role the step left active, if it is, is given back; and with that the
    activity or the last viewport is not what it was:

    * an active stream becomes passive, whichever step fails;
    * a passive one keeps the new viewport, where the wait is what fails. -/
def Strays : Prop :=
  s.gridActive = true ∧ RoleFails s r a ∧ Restores s a ∨
  RoleTaken s r a ∧ ViewportFails s r a ∧ s.gridActive = true ∧
    (r.affectsGrid = true → Restores s a) ∨
  RoleTaken s r a ∧ ViewportShown s r a ∧ WaitFails s r a ∧ Restores s a ∧
    (s.gridActive = true ∨ ViewportNew s r)

end Failures

/-! ## 5. How each step ends

Every lemma says what a step leaves of the stream up to the record of its calls. -/

/-- The stream after a call. -/
def TerminalStream.called (s : TerminalStream) (call : TerminalCall) (answer : Answer) :
    TerminalStream := { s with calls := s.calls ++ [(call, answer)] }

section Steps

variable {s : TerminalStream} {r : ResizeRequest} {a : ResizeAnswers}

theorem ends_perform {call : TerminalCall} {answer : Answer} {Q : Bool → TerminalStream → Prop}
    {E : ResizeError → TerminalStream → Prop} :
    (perform call answer).Ends s Q E ↔
      (answer = .done → Q true (s.called call answer)) ∧
      (answer = .refused → Q false (s.called call answer)) ∧
      ∀ e, answer = .raised e → E e (s.called call answer) := by
  unfold perform
  rw [ends_bind, ends_modify]
  cases answer with
  | done | refused => simp [TerminalStream.called]
  | raised e => simp [TerminalStream.called]

theorem ends_callback {present absent : Bool} {call : TerminalCall} {answer : Answer}
    {Q : Bool → TerminalStream → Prop} {E : ResizeError → TerminalStream → Prop} :
    (callback present call answer absent).Ends s Q E ↔
      (present = true → (perform call answer).Ends s Q E) ∧ (¬ present = true → Q absent s) :=
  ends_ite

@[simp] theorem ends_update {f : ResizeOutcome → ResizeOutcome}
    {Q : Unit → TerminalStream → Prop} {E : ResizeError → TerminalStream → Prop} :
    (update f).Ends s Q E ↔ Q () { s with resizeResult := s.resizeResult.map f } := Iff.rfl

@[simp] theorem ends_discard {α : Type} {p : TerminalM α} {Q : Unit → TerminalStream → Prop}
    {E : ResizeError → TerminalStream → Prop} :
    (discard p).Ends s Q E ↔ p.Ends s (fun _ t => Q () t) E := by
  show (p >>= fun _ => pure ()).Ends s Q E ↔ _
  simp

theorem ends_result {Q : ResizeOutcome → TerminalStream → Prop}
    {E : ResizeError → TerminalStream → Prop} {o : ResizeOutcome} (h : s.resizeResult = some o) :
    result.Ends s Q E ↔ Q o s := by
  unfold result
  simp [h]

theorem closeFreeze_ends :
    (closeFreeze a).Ends s (fun _ t => t = { s with calls := t.calls }) (fun _ _ => False) := by
  unfold closeFreeze
  rw [ends_bind, ends_get, ends_when]
  refine ⟨fun _ => ?_, fun _ => rfl⟩
  simp only [ends_discard, ends_attempt, ends_perform]
  exact ⟨fun _ => rfl, fun _ => rfl, fun _ _ => rfl⟩

theorem closeCleanup_ends :
    (closeCleanup a).Ends s
      (fun _ t => ∃ confirmed, t = { s with cleanupConfirmed := confirmed, calls := t.calls })
      (fun _ _ => False) := by
  unfold closeCleanup
  rw [ends_bind, ends_get, ends_when]
  refine ⟨fun _ => ?_, fun _ => ⟨_, rfl⟩⟩
  simp only [ends_bind, ends_attempt, ends_perform, ends_modify]
  exact ⟨fun _ => ⟨_, rfl⟩, fun _ => ⟨_, rfl⟩, fun _ _ => ⟨_, rfl⟩⟩

/-- `close` ends the stream, or raises what the signals raise. -/
theorem close_ends :
    (close a).Ends s
      (fun _ t => (s.closed = false → a.terminate.returned = true) ∧
        ∃ confirmed, t = { s with closed := true, cleanupConfirmed := confirmed,
                                  calls := t.calls })
      (fun e t => a.terminate = .raised e ∧ t = { s with closed := true, calls := t.calls }) := by
  unfold close
  rw [ends_bind, ends_get, ends_when]
  refine ⟨fun _ => ?_, fun hclosed => ⟨fun ho => absurd ho (by simpa using hclosed),
    s.cleanupConfirmed, ?_⟩⟩
  · simp only [ends_bind, ends_modify]
    apply closeFreeze_ends.mono
    · intro _ t ht
      rw [ends_discard, ends_perform]
      have cleanup (returned : a.terminate.returned = true) :
          (closeCleanup a).Ends (t.called .terminate a.terminate)
          (fun _ u => (s.closed = false → a.terminate.returned = true) ∧
            ∃ confirmed, u = { s with closed := true, cleanupConfirmed := confirmed,
                                      calls := u.calls })
          (fun e u => a.terminate = .raised e ∧
            u = { s with closed := true, calls := u.calls }) := by
        apply closeCleanup_ends.mono
        · rintro _ u ⟨confirmed, hu⟩
          exact ⟨fun _ => returned, confirmed, by rw [hu, ht]; rfl⟩
        · exact fun _ _ => False.elim
      refine ⟨fun h => cleanup (by rw [h]; rfl), fun h => cleanup (by rw [h]; rfl),
        fun e he => ⟨he, ?_⟩⟩
      rw [ht]
      rfl
    · exact fun _ _ => False.elim
  · rw [← not_not.mp hclosed]

theorem failClosed_ends :
    (failClosed a).Ends s
      (fun _ t => ∃ confirmed, t = { s with
        closed := true, cleanupConfirmed := confirmed, calls := t.calls,
        resizeResult := s.resizeResult.map fun o =>
          { o with retryable := false, cleanupConfirmed := confirmed } })
      (fun _ t => t = { s with closed := true, calls := t.calls }) := by
  unfold failClosed
  rw [ends_bind]
  apply close_ends.mono
  · intro _ t ⟨_, confirmed, ht⟩
    refine ⟨confirmed, ?_⟩
    rw [ht]
    rfl
  · exact fun _ _ h => h.2

theorem failClosedRole_ends :
    (failClosedRole a).Ends s
      (fun _ t => (s.closed = false → a.terminate.returned = true) ∧ ∃ confirmed, t = { s with
        closed := true, cleanupConfirmed := confirmed, calls := t.calls,
        resizeResult := s.resizeResult.map fun o =>
          { o with retryable := false, cleanupConfirmed := confirmed,
                   gridActive := s.gridActive && !confirmed } })
      (fun e t => a.terminate = .raised e ∧ t = { s with closed := true, calls := t.calls }) := by
  unfold failClosedRole
  rw [ends_bind]
  apply close_ends.mono
  · intro _ t ⟨hreturned, confirmed, ht⟩
    refine ⟨hreturned, confirmed, ?_⟩
    rw [ht]
    rfl
  · exact fun _ _ => id

theorem takeRole_ends :
    (takeRole r a).Ends s
      (fun taken t =>
        (taken = true ∧ RoleTaken s r a ∧
          t = { s with gridActive := r.affectsGrid, calls := t.calls }) ∨
        (taken = false ∧ RoleCalled s r ∧ a.role = .refused ∧
          (s.gridActive = true → r.affectsGrid = true) ∧ t = { s with calls := t.calls }) ∨
        (taken = false ∧ RoleCalled s r ∧ a.role = .refused ∧ s.gridActive = true ∧
          r.affectsGrid = false ∧ (s.closed = false → a.terminate.returned = true) ∧
          ∃ confirmed, t = { s with
            closed := true, cleanupConfirmed := confirmed, calls := t.calls,
            resizeResult := s.resizeResult.map fun o =>
              { o with retryable := false, cleanupConfirmed := confirmed,
                       gridActive := s.gridActive && !confirmed } }))
      (fun e t =>
        (RoleCalled s r ∧ a.role = .raised e ∧ t = { s with calls := t.calls }) ∨
        (RoleCalled s r ∧ a.role = .refused ∧ s.gridActive = true ∧ r.affectsGrid = false ∧
          a.terminate = .raised e ∧ t = { s with closed := true, calls := t.calls })) := by
  unfold takeRole
  rw [ends_bind, ends_get, ends_ite]
  refine ⟨fun hneeds => ?_, fun hneeds => ?_⟩
  · rw [ends_bind, ends_callback]
    refine ⟨fun hset => ?_, fun hset => ?_⟩
    · have hcalled : RoleCalled s r := ⟨hneeds, hset⟩
      rw [ends_perform]
      refine ⟨fun hdone => ?_, fun hrefused => ?_, fun e he => .inl ⟨hcalled, he, rfl⟩⟩
      · exact .inl ⟨rfl, fun _ => hdone, rfl⟩
      · rw [if_neg (by simp), ends_bind, ends_when]
        refine ⟨fun hgive => ?_, fun hkeep => ?_⟩
        · obtain ⟨hactive, haffects⟩ : s.gridActive = true ∧ r.affectsGrid = false := by
            simpa using hgive
          apply failClosedRole_ends.mono
          · intro _ t ⟨hreturned, confirmed, ht⟩
            refine .inr (.inr ⟨rfl, hcalled, hrefused, hactive, haffects, hreturned, confirmed,
              ?_⟩)
            rw [ht]
            rfl
          · intro e t ⟨hterminate, ht⟩
            exact .inr ⟨hcalled, hrefused, hactive, haffects, hterminate, ht⟩
        · refine .inr (.inl ⟨rfl, hcalled, hrefused, fun hactive => ?_, rfl⟩)
          simpa [hactive] using hkeep
    · exact .inl ⟨rfl, fun hcalled => absurd hcalled.2 hset, rfl⟩
  · refine .inl ⟨rfl, fun hcalled => absurd hcalled.1 hneeds, ?_⟩
    have hsame : r.affectsGrid = s.gridActive := by
      by_contra hne
      exact hneeds (.inl hne)
    rw [hsame]
    rfl

theorem setWindowSize_ends :
    (setWindowSize r a).Ends s
      (fun _ t => a.window.returned = true ∧ a.signal.returned = true ∧
        t = { s with lastViewport := some r.viewport, calls := t.calls })
      (fun e t => (a.window = .raised e ∨ a.window.returned = true ∧ a.signal = .raised e) ∧
        t = { s with calls := t.calls }) := by
  have signal (returned : a.window.returned = true) (t : TerminalStream)
      (ht : t = { s with calls := t.calls }) :
      (do
        discard (perform .signal a.signal)
        modify fun s => { s with lastViewport := some r.viewport } : TerminalM Unit).Ends t
        (fun _ u => a.window.returned = true ∧ a.signal.returned = true ∧
          u = { s with lastViewport := some r.viewport, calls := u.calls })
        (fun e u => (a.window = .raised e ∨ a.window.returned = true ∧ a.signal = .raised e) ∧
          u = { s with calls := u.calls }) := by
    rw [ends_bind, ends_discard, ends_perform]
    refine ⟨fun h => ⟨returned, by rw [h]; rfl, ?_⟩, fun h => ⟨returned, by rw [h]; rfl, ?_⟩,
      fun e he => ⟨.inr ⟨returned, he⟩, ?_⟩⟩ <;> (rw [ht]; rfl)
  unfold setWindowSize
  rw [ends_bind, ends_discard, ends_perform]
  exact ⟨fun h => signal (by rw [h]; rfl) _ rfl, fun h => signal (by rw [h]; rfl) _ rfl,
    fun e he => ⟨.inl he, rfl⟩⟩

theorem showViewport_ends :
    (showViewport r a).Ends s
      (fun _ t => ViewportShown s r a ∧ t = { s with
        lastViewport := some r.viewport, calls := t.calls,
        resizeResult := s.resizeResult.map fun o => { o with viewportApplied := true } })
      (fun e t => ViewportNew s r ∧
        (a.window = .raised e ∨ a.window.returned = true ∧ a.signal = .raised e) ∧
        t = { s with calls := t.calls }) := by
  unfold showViewport
  rw [ends_bind, ends_get, ends_bind, ends_when]
  refine ⟨fun hnew => ?_, fun hold => ?_⟩
  · apply setWindowSize_ends.mono
    · intro _ t ⟨hwindow, hsignal, ht⟩
      refine ⟨fun _ => ⟨hwindow, hsignal⟩, ?_⟩
      rw [ht]
      rfl
    · exact fun e t h => ⟨hnew, h⟩
  · refine ⟨fun hnew => absurd hnew hold, ?_⟩
    rw [← not_not.mp hold]
    rfl

theorem awaitGrid_ends :
    (awaitGrid r a).Ends s
      (fun _ t => ¬ WaitFails s r a ∧ t = { s with
        calls := t.calls,
        resizeResult := s.resizeResult.map fun o => { o with sharedApplied := r.affectsGrid } })
      (fun e t => r.affectsGrid = true ∧ s.callbacks.waitGridResize = true ∧
        (a.wait = .refused ∧ e = notApplied ∨ a.wait = .raised e) ∧
        t = { s with calls := t.calls }) := by
  unfold awaitGrid
  rw [ends_bind, ends_get, ends_bind, ends_when]
  refine ⟨fun haffects => ?_, fun hpassive => ⟨fun hfails => hpassive hfails.1, rfl⟩⟩
  rw [ends_bind, ends_callback]
  refine ⟨fun hset => ?_, fun hset => ⟨fun hfails => hset hfails.2.1, rfl⟩⟩
  rw [ends_perform]
  refine ⟨fun hdone => ⟨fun hfails => ?_, rfl⟩,
    fun hrefused => ⟨haffects, hset, .inl ⟨hrefused, rfl⟩, rfl⟩,
    fun e he => ⟨haffects, hset, .inr he, rfl⟩⟩
  rcases hfails.2.2 with hr | hf
  · exact absurd (hdone.symm.trans hr) (by simp)
  · simp [hdone, Answer.failed] at hf

theorem consumeBootstrap_ends :
    (consumeBootstrap r a).Ends s
      (fun _ t => t = { s with
        gridResizeApplied := s.gridResizeApplied && !r.affectsGrid, calls := t.calls,
        resizeResult := s.resizeResult.map fun o =>
          { o with bootstrapConsumed :=
              o.bootstrapConsumed || (r.affectsGrid && s.gridResizeApplied) } })
      (fun _ t => r.affectsGrid = true ∧ t = { s with calls := t.calls }) := by
  unfold consumeBootstrap
  rw [ends_bind, ends_get, ends_when]
  refine ⟨fun ⟨haffects, hpresent⟩ => ?_, fun hnot => ?_⟩
  · rw [ends_bind, ends_discard, ends_perform]
    refine ⟨fun _ => ?_, fun _ => ?_, fun e _ => ⟨haffects, rfl⟩⟩ <;>
      simp [TerminalStream.called, haffects, hpresent]
  · have hfalse : (r.affectsGrid && s.gridResizeApplied) = false := by
      by_contra h
      exact hnot (by simpa using h)
    have hkeep : (s.gridResizeApplied && !r.affectsGrid) = s.gridResizeApplied := by
      cases h : s.gridResizeApplied <;> simp_all
    simp only [hfalse, hkeep, Bool.or_false, Option.map_id']

theorem dropRole_ends :
    (dropRole a).Ends s
      (fun dropped t =>
        (dropped = true ∧ t = { s with gridActive := false, calls := t.calls }) ∨
        (dropped = false ∧ ∃ confirmed, t = { s with
          closed := true, cleanupConfirmed := confirmed, calls := t.calls,
          resizeResult := s.resizeResult.map fun o =>
            { o with retryable := false, cleanupConfirmed := confirmed,
                     gridActive := s.gridActive && !confirmed } }))
      (fun _ t => t = { s with closed := t.closed, calls := t.calls }) := by
  unfold dropRole
  rw [ends_bind, ends_get, ends_bind, ends_callback]
  refine ⟨fun _ => ?_, fun _ => .inl ⟨rfl, rfl⟩⟩
  rw [ends_perform]
  refine ⟨fun _ => .inl ⟨rfl, rfl⟩, fun _ => ?_, fun _ _ => rfl⟩
  rw [if_neg (by simp), ends_bind]
  apply failClosedRole_ends.mono
  · intro _ t ⟨_, confirmed, ht⟩
    refine .inr ⟨rfl, confirmed, ?_⟩
    rw [ht]
    rfl
  · intro _ t ⟨_, ht⟩
    rw [ht]
    rfl

theorem demote_ends :
    (demote r a).Ends s
      (fun demoted t =>
        (demoted = true ∧
          t = { s with gridActive := s.gridActive && !r.bootstrap, calls := t.calls }) ∨
        (demoted = false ∧ ∃ confirmed, t = { s with
          closed := true, cleanupConfirmed := confirmed, calls := t.calls,
          resizeResult := s.resizeResult.map fun o =>
            { o with retryable := false, cleanupConfirmed := confirmed,
                     gridActive := s.gridActive && !confirmed } }))
      (fun _ t => r.bootstrap = true ∧ t = { s with closed := t.closed, calls := t.calls }) := by
  unfold demote
  rw [ends_bind, ends_get, ends_ite]
  refine ⟨fun hboot => ?_, fun hboot => .inl ⟨rfl, ?_⟩⟩
  · have passive : (s.gridActive && !r.bootstrap) = false := by simp [hboot]
    have drop (t : TerminalStream) (ht : t = { s with calls := t.calls }) :
        (dropRole a).Ends t
          (fun demoted u =>
            (demoted = true ∧
              u = { s with gridActive := s.gridActive && !r.bootstrap, calls := u.calls }) ∨
            (demoted = false ∧ ∃ confirmed, u = { s with
              closed := true, cleanupConfirmed := confirmed, calls := u.calls,
              resizeResult := s.resizeResult.map fun o =>
                { o with retryable := false, cleanupConfirmed := confirmed,
                         gridActive := s.gridActive && !confirmed } }))
          (fun _ u => r.bootstrap = true ∧ u = { s with closed := u.closed, calls := u.calls }) := by
      apply dropRole_ends.mono
      · intro dropped u h
        rcases h with ⟨rfl, hu⟩ | ⟨rfl, confirmed, hu⟩
        · refine .inl ⟨rfl, ?_⟩
          rw [hu, ht, passive]
        · refine .inr ⟨rfl, confirmed, ?_⟩
          rw [hu, ht]
      · intro _ u hu
        refine ⟨hboot, ?_⟩
        rw [hu, ht]
    rw [ends_bind, ends_callback]
    refine ⟨fun _ => ?_, fun _ => drop _ rfl⟩
    rw [ends_perform]
    exact ⟨fun _ => drop _ rfl, fun _ => ⟨hboot, rfl⟩, fun _ _ => ⟨hboot, rfl⟩⟩
  · have active : (s.gridActive && !r.bootstrap) = s.gridActive := by simp [hboot]
    rw [active]
    rfl

theorem recover_ends {o : ResizeOutcome} (h : s.resizeResult = some o) :
    (recover a).Ends s
      (fun _ t =>
        (o.sharedApplied = false ∧ (s.gridActive = true → Restores s a) ∧
          t = { s with gridActive := false, calls := t.calls }) ∨
        ((o.sharedApplied = false → s.gridActive = true ∧ ¬ Restores s a) ∧ ∃ confirmed,
          t = { s with closed := true, cleanupConfirmed := confirmed, calls := t.calls,
                       resizeResult := some { o with
                         retryable := false, cleanupConfirmed := confirmed } }))
      (fun _ t => (o.sharedApplied = false → s.gridActive = true ∧ ¬ Restores s a) ∧
        t = { s with closed := t.closed, calls := t.calls }) := by
  -- the stream is closed, from wherever the calls are
  have closing (why : o.sharedApplied = false → s.gridActive = true ∧ ¬ Restores s a)
      (t : TerminalStream) (ht : t = { s with calls := t.calls }) :
      (failClosed a).Ends t
        (fun _ u => (o.sharedApplied = false → s.gridActive = true ∧ ¬ Restores s a) ∧
          ∃ confirmed, u = { s with
            closed := true, cleanupConfirmed := confirmed, calls := u.calls,
            resizeResult := some { o with retryable := false, cleanupConfirmed := confirmed } })
        (fun _ u => (o.sharedApplied = false → s.gridActive = true ∧ ¬ Restores s a) ∧
          u = { s with closed := u.closed, calls := u.calls }) := by
    apply failClosed_ends.mono
    · intro _ u ⟨confirmed, hu⟩
      refine ⟨why, confirmed, ?_⟩
      rw [hu, ht]
      simp [h]
    · intro _ u hu
      refine ⟨why, ?_⟩
      rw [hu, ht]
  unfold recover
  rw [ends_bind, ends_get, ends_ite]
  refine ⟨fun hshared => ?_, fun hshared => ?_⟩
  · have why : o.sharedApplied = false → s.gridActive = true ∧ ¬ Restores s a := by
      intro hf
      simp [h, hf] at hshared
    exact (closing why s rfl).mono (fun _ _ => .inr) fun _ _ => id
  · have hshared : o.sharedApplied = false := by simpa [h] using hshared
    rw [ends_ite]
    refine ⟨fun hactive => ?_, fun hpassive => ?_⟩
    · rw [ends_bind, ends_callback]
      refine ⟨fun hset => ?_, fun hset => ?_⟩
      · rw [ends_perform]
        refine ⟨fun hdone => .inl ⟨hshared, fun _ => ⟨hset, hdone⟩, rfl⟩, fun hrefused => ?_,
          fun e he => ⟨fun _ => ⟨hactive, fun hr => ?_⟩, rfl⟩⟩
        · have why : o.sharedApplied = false → s.gridActive = true ∧ ¬ Restores s a :=
            fun _ => ⟨hactive, fun hr => absurd (hrefused.symm.trans hr.2) (by simp)⟩
          exact (closing why _ rfl).mono (fun _ _ => .inr) fun _ _ => id
        · exact absurd (he.symm.trans hr.2) (by simp)
      · have why : o.sharedApplied = false → s.gridActive = true ∧ ¬ Restores s a :=
          fun _ => ⟨hactive, fun hr => hset hr.1⟩
        exact (closing why s rfl).mono (fun _ _ => .inr) fun _ _ => id
    · refine .inl ⟨hshared, fun hactive => absurd hactive hpassive, ?_⟩
      have hpassive : s.gridActive = false := by simpa using hpassive
      rw [← hpassive]
      rfl

/-! ## 6. How a request ends -/

variable (s r a)

/-- The outcome of a request that has been applied. -/
def applied : ResizeOutcome :=
  { ResizeOutcome.new r s.gridActive with
    ok := true, sharedApplied := r.affectsGrid, viewportApplied := true,
    passiveRestored := !(r.affectsGrid && !r.bootstrap),
    bootstrapConsumed := r.affectsGrid && s.gridResizeApplied, retryable := false }

/-- **How the `try` returns**: applied; with its role refused and nothing changed; or with the
    stream closed, which is final. -/
inductive Returns : Option ResizeOutcome → TerminalStream → Prop
  | applied {t : TerminalStream} (role : RoleTaken s r a) (viewport : ViewportShown s r a)
      (wait : ¬ WaitFails s r a)
      (ends : t = { s with
        gridActive := r.affectsGrid && !r.bootstrap, lastViewport := some r.viewport,
        gridResizeApplied := s.gridResizeApplied && !r.affectsGrid, calls := t.calls,
        resizeResult := some (applied s r) }) : Returns none t
  | refused {t : TerminalStream} (role : RoleCalled s r) (answer : a.role = .refused)
      (kept : s.gridActive = true → r.affectsGrid = true)
      (ends : t = { s with calls := t.calls }) :
      Returns (some (.new r s.gridActive)) t
  | closed {t : TerminalStream} {o : ResizeOutcome} (stays : ¬ Strays s r a)
      (values : o.values = r) (ok : o.ok = false) (final : o.retryable = false)
      (active : o.gridActive = (t.gridActive && !t.cleanupConfirmed))
      (result : t.resizeResult = some o) (closed : t.closed = true) : Returns (some o) t

/-- **Where the `try` raises**: at the role, or closing for it; at the viewport; at the wait;
    or when the size has been applied. -/
inductive Raises : ResizeError → TerminalStream → Prop
  | role {e : ResizeError} {t : TerminalStream} (role : RoleCalled s r)
      (answer : a.role = .raised e) (ends : t = { s with calls := t.calls }) : Raises e t
  | closing {e : ResizeError} {t : TerminalStream} (role : RoleCalled s r)
      (answer : a.role = .refused) (active : s.gridActive = true) (passive : r.affectsGrid = false)
      (terminate : a.terminate = .raised e)
      (ends : t = { s with closed := true, calls := t.calls }) : Raises e t
  | viewport {e : ResizeError} {t : TerminalStream} (role : RoleTaken s r a)
      (new : ViewportNew s r)
      (answer : a.window = .raised e ∨ a.window.returned = true ∧ a.signal = .raised e)
      (ends : t = { s with gridActive := r.affectsGrid, calls := t.calls }) : Raises e t
  | wait {e : ResizeError} {t : TerminalStream} (role : RoleTaken s r a)
      (viewport : ViewportShown s r a) (affects : r.affectsGrid = true)
      (set : s.callbacks.waitGridResize = true)
      (answer : a.wait = .refused ∧ e = notApplied ∨ a.wait = .raised e)
      (ends : t = { s with
        gridActive := r.affectsGrid, lastViewport := some r.viewport, calls := t.calls,
        resizeResult := some { ResizeOutcome.new r s.gridActive with viewportApplied := true } }) :
      Raises e t
  | late {e : ResizeError} {t : TerminalStream} {o : ResizeOutcome} (stays : ¬ Strays s r a)
      (values : o.values = r) (ok : o.ok = false) (shared : o.sharedApplied = true)
      (result : t.resizeResult = some o)
      (confirmed : t.cleanupConfirmed = s.cleanupConfirmed) : Raises e t

variable {s r a}

theorem Answer.failed_of_returned {answer : Answer} (h : answer.returned = true) :
    answer.failed = false := by
  cases answer with
  | done | refused => rfl
  | raised e => exact absurd h (by simp [returned])

/-- A request whose size has been applied does not stray, whatever fails after that. -/
theorem not_strays_of_shown (role : RoleTaken s r a) (viewport : ViewportShown s r a)
    (wait : ¬ WaitFails s r a) : ¬ Strays s r a := by
  intro h
  rcases h with ⟨-, ⟨hcalled, hfails⟩, -⟩ | ⟨-, ⟨hnew, hfails⟩, -⟩ | ⟨-, -, hfails, -⟩
  · rw [role hcalled] at hfails
    simp [Answer.failed] at hfails
  · obtain ⟨hwindow, hsignal⟩ := viewport hnew
    simp [Answer.failed_of_returned hwindow, Answer.failed_of_returned hsignal] at hfails
  · exact wait hfails

/-- Nor does one whose role is refused, unless the `close` for that raises. -/
theorem not_strays_of_refused (role : RoleCalled s r) (answer : a.role = .refused)
    (kept : s.gridActive = true → r.affectsGrid = false → a.terminate.failed = false) :
    ¬ Strays s r a := by
  intro h
  rcases h with ⟨hactive, ⟨-, hfails⟩, -⟩ | ⟨htaken, -⟩ | ⟨htaken, -⟩
  · rcases hfails with hfails | ⟨-, haffects, hfails⟩
    · simp [answer, Answer.failed] at hfails
    · exact absurd hfails (by simp [kept hactive haffects])
  · exact absurd ((htaken role).symm.trans answer) (by simp)
  · exact absurd ((htaken role).symm.trans answer) (by simp)

/-- The outcome once tmux shows the size. -/
def shown (s : TerminalStream) (r : ResizeRequest) : ResizeOutcome :=
  { ResizeOutcome.new r s.gridActive with
    viewportApplied := true, sharedApplied := r.affectsGrid }

@[simp] theorem ends_some_result {o : ResizeOutcome} (h : s.resizeResult = some o)
    {Q : Option ResizeOutcome → TerminalStream → Prop}
    {E : ResizeError → TerminalStream → Prop} :
    (some <$> result).Ends s Q E ↔ Q (some o) s := by
  show (result >>= fun o => pure (some o)).Ends s Q E ↔ _
  rw [ends_bind, ends_result h, ends_pure]

theorem finishResize_ends {t : TerminalStream} {calls : List (TerminalCall × Answer)}
    (role : RoleTaken s r a) (viewport : ViewportShown s r a) (wait : ¬ WaitFails s r a)
    (ht : t = { s with gridActive := r.affectsGrid, lastViewport := some r.viewport, calls,
                       resizeResult := some (shown s r) }) :
    (finishResize r a).Ends t (Returns s r a) (Raises s r a) := by
  have stays := not_strays_of_shown role viewport wait
  subst ht
  unfold finishResize
  rw [ends_bind]
  apply consumeBootstrap_ends.mono
  · intro _ u hu
    obtain ⟨calls, rfl⟩ : ∃ calls, u = { s with
        gridActive := r.affectsGrid, lastViewport := some r.viewport, calls,
        gridResizeApplied := s.gridResizeApplied && !r.affectsGrid,
        resizeResult := some { shown s r with
          bootstrapConsumed := r.affectsGrid && s.gridResizeApplied } } := ⟨_, hu⟩
    rw [ends_bind]
    apply demote_ends.mono
    · intro demoted v h
      rcases h with ⟨rfl, hv⟩ | ⟨rfl, confirmed, hv⟩
      · refine .applied role viewport wait ?_
        rw [hv]
        rfl
      · rw [if_neg (by simp), ends_some_result (by rw [hv]; rfl)]
        refine .closed stays rfl rfl rfl ?_ (by rw [hv]; rfl) (by rw [hv])
        rw [hv]
    · intro e v ⟨hboot, hv⟩
      exact .late stays rfl rfl (r.bootstrap_grid hboot) (by rw [hv]) (by rw [hv])
  · intro e u ⟨haffects, hu⟩
    exact .late stays rfl rfl haffects (by rw [hu]) (by rw [hu])

theorem tryResize_ends (hopen : s.closed = false)
    (fresh : s.resizeResult = some (.new r s.gridActive)) :
    (tryResize r a).Ends s (Returns s r a) (Raises s r a) := by
  unfold tryResize
  rw [ends_bind]
  apply takeRole_ends.mono
  · intro taken t h
    rcases h with ⟨rfl, role, ht⟩ | ⟨rfl, role, answer, kept, ht⟩ |
      ⟨rfl, role, answer, hactive, haffects, hreturned, confirmed, ht⟩
    · -- the role is taken: on to the viewport
      obtain ⟨calls, rfl⟩ : ∃ calls, t = { s with gridActive := r.affectsGrid, calls } := ⟨_, ht⟩
      rw [if_pos rfl, ends_bind]
      apply showViewport_ends.mono
      · intro _ u ⟨viewport, hu⟩
        obtain ⟨calls, rfl⟩ : ∃ calls, u = { s with
            gridActive := r.affectsGrid, lastViewport := some r.viewport, calls,
            resizeResult := some
              { ResizeOutcome.new r s.gridActive with viewportApplied := true } } := by
          refine ⟨u.calls, hu.trans ?_⟩
          simp [fresh]
        rw [ends_bind]
        apply awaitGrid_ends.mono
        · intro _ v ⟨wait, hv⟩
          exact finishResize_ends role viewport wait hv
        · intro e v ⟨haffects, set, answer, hv⟩
          exact .wait role viewport haffects set answer hv
      · intro e u ⟨new, answer, hu⟩
        exact .viewport role new answer hu
    · -- refused, and nothing changed
      rw [if_neg (by simp), ends_some_result (by rw [ht]; exact fresh)]
      exact .refused role answer kept ht
    · -- refused, and closed for it
      rw [if_neg (by simp), ends_some_result (by rw [ht, fresh]; rfl)]
      refine .closed ?_ rfl rfl rfl (by rw [ht]) (by rw [ht, fresh]; rfl) (by rw [ht])
      apply not_strays_of_refused role answer
      exact fun _ _ => Answer.failed_of_returned (hreturned hopen)
  · intro e t h
    rcases h with ⟨role, answer, ht⟩ | ⟨role, answer, hactive, haffects, terminate, ht⟩
    · exact .role role answer ht
    · exact .closing role answer hactive haffects terminate ht

/-- What the `except` finds: the outcome so far, and the callbacks as they were. -/
theorem Raises.found {e : ResizeError} {t : TerminalStream}
    (fresh : s.resizeResult = some (.new r s.gridActive)) (h : Raises s r a e t) :
    t.cleanupConfirmed = s.cleanupConfirmed ∧
    ∃ o, t.resizeResult = some o ∧ o.values = r ∧ o.ok = false ∧
      (o.sharedApplied = false → o.retryable = true ∧ t.callbacks = s.callbacks ∧
        (s.gridActive = false → t.closed = s.closed)) := by
  have early (result : t.resizeResult = some (.new r s.gridActive))
      (callbacks : t.callbacks = s.callbacks)
      (closed : s.gridActive = false → t.closed = s.closed) :
      ∃ o, t.resizeResult = some o ∧ o.values = r ∧ o.ok = false ∧
        (o.sharedApplied = false → o.retryable = true ∧ t.callbacks = s.callbacks ∧
          (s.gridActive = false → t.closed = s.closed)) :=
    ⟨_, result, rfl, rfl, fun _ => ⟨rfl, callbacks, closed⟩⟩
  cases h with
  | role _ _ ends =>
    rw [ends] at early ⊢
    exact ⟨rfl, early fresh rfl fun _ => rfl⟩
  | closing _ _ active _ _ ends =>
    rw [ends] at early ⊢
    exact ⟨rfl, early fresh rfl fun hf => absurd (active.symm.trans hf) (by simp)⟩
  | viewport _ _ _ ends =>
    rw [ends] at early ⊢
    exact ⟨rfl, early fresh rfl fun _ => rfl⟩
  | wait _ _ _ _ _ ends =>
    rw [ends]
    exact ⟨rfl, _, rfl, rfl, rfl, fun _ => ⟨rfl, rfl, fun _ => rfl⟩⟩
  | late _ values ok shared result confirmed =>
    exact ⟨confirmed, _, result, values, ok,
      fun hf => absurd (shared.symm.trans hf) (by simp)⟩

/-- **Whether a request that failed strays**: the failure is handled before the size has been
    applied, the role is given back, and something had changed. -/
theorem Raises.strays_iff {e : ResizeError} {t : TerminalStream} {o : ResizeOutcome}
    (fresh : s.resizeResult = some (.new r s.gridActive)) (h : Raises s r a e t)
    (result : t.resizeResult = some o) :
    Strays s r a ↔ e.caught = true ∧ o.sharedApplied = false ∧
      (t.gridActive = true → Restores s a) ∧
      (s.gridActive = true ∨ t.lastViewport ≠ s.lastViewport) := by
  cases h with
  | role role answer ends =>
    have hresult : o = .new r s.gridActive := by
      rw [ends, fresh] at result
      exact (Option.some.inj result).symm
    have htaken : ¬ RoleTaken s r a := by
      intro h
      exact absurd ((h role).symm.trans answer) (by simp)
    have hfails : RoleFails s r a ↔ e.caught = true := by
      simp [RoleFails, role, answer, Answer.failed]
    have hgrid : t.gridActive = s.gridActive := by rw [ends]
    have hlast : t.lastViewport = s.lastViewport := by rw [ends]
    simp only [Strays, hfails, htaken, hresult, ResizeOutcome.new, hgrid, hlast]
    tauto
  | closing role answer active passive terminate ends =>
    have hresult : o = .new r s.gridActive := by
      rw [ends, fresh] at result
      exact (Option.some.inj result).symm
    have htaken : ¬ RoleTaken s r a := by
      intro h
      exact absurd ((h role).symm.trans answer) (by simp)
    have hfails : RoleFails s r a ↔ e.caught = true := by
      simp [RoleFails, role, answer, passive, terminate, Answer.failed]
    have hgrid : t.gridActive = s.gridActive := by rw [ends]
    have hlast : t.lastViewport = s.lastViewport := by rw [ends]
    simp only [Strays, hfails, htaken, hresult, ResizeOutcome.new, hgrid, hlast]
    tauto
  | viewport role new answer ends =>
    have hresult : o = .new r s.gridActive := by
      rw [ends, fresh] at result
      exact (Option.some.inj result).symm
    have hrole : ¬ RoleFails s r a := by
      intro ⟨hcalled, hfails⟩
      rw [role hcalled] at hfails
      simp [Answer.failed] at hfails
    have hshown : ¬ ViewportShown s r a := by
      intro h
      obtain ⟨hwindow, hsignal⟩ := h new
      rcases answer with h | ⟨-, h⟩
      · simp [h, Answer.returned] at hwindow
      · simp [h, Answer.returned] at hsignal
    have hfails : ViewportFails s r a ↔ e.caught = true := by
      simp only [ViewportFails, new, true_and]
      rcases answer with h | ⟨hreturned, h⟩
      · simp [h, Answer.failed, Answer.returned]
      · rw [Answer.failed_of_returned hreturned]
        simp [h, hreturned, Answer.failed]
    have hgrid : t.gridActive = r.affectsGrid := by rw [ends]
    have hlast : t.lastViewport = s.lastViewport := by rw [ends]
    simp only [Strays, hrole, hfails, hshown, role, hresult, ResizeOutcome.new, hgrid, hlast]
    tauto
  | wait role viewport affects set answer ends =>
    have hresult : o.sharedApplied = false := by
      rw [ends] at result
      rw [← Option.some.inj result]
      rfl
    have hrole : ¬ RoleFails s r a := by
      intro ⟨hcalled, hfails⟩
      rw [role hcalled] at hfails
      simp [Answer.failed] at hfails
    have hviewport : ¬ ViewportFails s r a := by
      intro ⟨hnew, hfails⟩
      obtain ⟨hwindow, hsignal⟩ := viewport hnew
      simp [Answer.failed_of_returned hwindow, Answer.failed_of_returned hsignal] at hfails
    have hfails : WaitFails s r a ↔ e.caught = true := by
      simp only [WaitFails, affects, set, true_and]
      rcases answer with ⟨h, rfl⟩ | h
      · simp [h, notApplied, ResizeError.caught]
      · simp [h, Answer.failed]
    have hnew : ViewportNew s r ↔ some r.viewport ≠ s.lastViewport := ne_comm
    have hgrid : t.gridActive = true := by rw [ends]; exact affects
    have hlast : t.lastViewport = some r.viewport := by rw [ends]
    simp only [Strays, hrole, hviewport, hfails, viewport, role, hresult, hnew, hgrid, hlast]
    tauto
  | late stays values ok shared result' _ =>
    rw [result'] at result
    obtain rfl := Option.some.inj result
    simp [stays, shared]

variable (s r a)

/-- **How an accepted request ends.** -/
inductive Accepted : Except ResizeError ResizeOutcome → TerminalStream → Prop
  | applied {t : TerminalStream} {o : ResizeOutcome} (stays : ¬ Strays s r a)
      (outcome : o = { applied s r with gridActive := r.affectsGrid && !r.bootstrap })
      (result : t.resizeResult = some o) (grid : t.gridActive = o.gridActive)
      (viewport : t.lastViewport = some r.viewport)
      (opened : t.closed = false ∧ t.cleanupConfirmed = false) : Accepted (.ok o) t
  | unchanged {t : TerminalStream} {o : ResizeOutcome} (stays : ¬ Strays s r a)
      (values : o.values = r) (ok : o.ok = false) (again : o.retryable = true)
      (result : t.resizeResult = some o) (grid : t.gridActive = s.gridActive)
      (viewport : t.lastViewport = s.lastViewport)
      (opened : t.closed = false ∧ t.cleanupConfirmed = false) : Accepted (.ok o) t
  | strayed {t : TerminalStream} {o : ResizeOutcome} (strays : Strays s r a)
      (values : o.values = r) (ok : o.ok = false) (again : o.retryable = true)
      (result : t.resizeResult = some o)
      (elsewhere : t.gridActive ≠ s.gridActive ∨ t.lastViewport ≠ s.lastViewport)
      (rest : t.closed = false → t.cleanupConfirmed = false) : Accepted (.ok o) t
  | final {t : TerminalStream} {o : ResizeOutcome} (stays : ¬ Strays s r a)
      (values : o.values = r) (ok : o.ok = false) (never : o.retryable = false)
      (result : t.resizeResult = some o) (closed : t.closed = true) : Accepted (.ok o) t
  | raised {e : ResizeError} {t : TerminalStream} {o : ResizeOutcome} (stays : ¬ Strays s r a)
      (values : o.values = r) (ok : o.ok = false) (result : t.resizeResult = some o)
      (rest : t.closed = false → t.cleanupConfirmed = false) : Accepted (.error e) t

variable {s r a}

theorem ends_settle {Q : Unit → TerminalStream → Prop} {E : ResizeError → TerminalStream → Prop} :
    settle.Ends s Q E ↔ Q () { s with resizeResult := s.resizeResult.map fun o =>
      { o with gridActive := s.gridActive && !s.cleanupConfirmed } } := by
  unfold settle
  simp

theorem accept_ends (hopen : s.closed = false) (hconfirmed : s.cleanupConfirmed = false) :
    (accept r a).Ends s (fun o t => Accepted s r a (.ok o) t)
      (fun e t => Accepted s r a (.error e) t) := by
  have fresh : (s.begun r).resizeResult = some (.new r (s.begun r).gridActive) := rfl
  have hstrays : Strays (s.begun r) r a ↔ Strays s r a := Iff.rfl
  unfold accept
  rw [ends_bind, ends_modify, ends_bind, ends_finally, ends_tryExcept]
  apply (tryResize_ends (s := s.begun r) hopen fresh).mono
  · intro returned t h
    rw [ends_settle]
    cases h with
    | applied role viewport wait ends =>
      rw [ends_result (by rw [ends]; rfl)]
      refine .applied (not_strays_of_shown role viewport wait) ?_ (by rw [ends]; rfl) ?_ ?_ ?_
      · rw [ends]
        simp [applied, TerminalStream.begun, hconfirmed]
      · rw [ends]
        simp [TerminalStream.begun, hconfirmed]
      · rw [ends]
      · rw [ends]
        exact ⟨hopen, hconfirmed⟩
    | refused role answer kept ends =>
      rw [ends_pure]
      refine .unchanged ?_ rfl rfl rfl ?_ ?_ ?_ ?_
      · apply not_strays_of_refused role answer
        exact fun hactive hpassive => absurd ((kept hactive).symm.trans hpassive) (by simp)
      · rw [ends]
        simp [ResizeOutcome.new, TerminalStream.begun, hconfirmed]
      · rw [ends]
        rfl
      · rw [ends]
        rfl
      · rw [ends]
        exact ⟨hopen, hconfirmed⟩
    | closed stays values ok final active result closed =>
      rw [ends_pure]
      refine .final stays values ok final ?_ closed
      simp only [result, Option.map_some, ← active]
  · intro e t h
    obtain ⟨hcleanup, o, result, values, ok, early⟩ := h.found fresh
    have strays := h.strays_iff fresh result
    have restores (hshared : o.sharedApplied = false) : Restores t a ↔ Restores s a := by
      unfold Restores
      rw [(early hshared).2.1]
      exact Iff.rfl
    -- a failure that is not undone does not stray
    have stays (why : o.sharedApplied = false → t.gridActive = true ∧ ¬ Restores t a) :
        ¬ Strays s r a := by
      intro hs
      obtain ⟨-, hshared, hrestores, -⟩ := strays.mp hs
      obtain ⟨hactive, hnot⟩ := why hshared
      exact hnot ((restores hshared).mpr (hrestores hactive))
    rw [ends_settle]
    split
    · -- the `except` handles it
      rename_i caught
      rw [ends_bind]
      apply (recover_ends result).mono
      · intro _ u hu
        rw [ends_pure, ends_settle]
        rcases hu with ⟨hshared, hrestores, hu⟩ | ⟨why, confirmed, hu⟩
        · obtain ⟨again, -, hclosed⟩ := early hshared
          have found : u.resizeResult = some o := by rw [hu, result]
          simp only [found, Option.map_some]
          rw [ends_result rfl]
          by_cases hs : Strays s r a
          · refine .strayed hs values ok again rfl ?_
              (by rw [hu]; exact fun _ => hcleanup.trans hconfirmed)
            obtain ⟨-, -, -, hmoved⟩ := strays.mp hs
            rw [hu]
            apply hmoved.imp
            · intro hactive hf
              exact absurd (hf.trans hactive) (by simp)
            · exact id
          · have hsame : ¬ (s.gridActive = true ∨ t.lastViewport ≠ s.lastViewport) := by
              intro hmoved
              refine hs (strays.mpr ⟨caught, hshared, fun hactive => ?_, hmoved⟩)
              exact (restores hshared).mp (hrestores hactive)
            obtain ⟨hpassive, hviewport⟩ := not_or.mp hsame
            have hpassive : s.gridActive = false := by simpa using hpassive
            refine .unchanged hs values ok again rfl ?_ ?_ ?_
            · rw [hu, hpassive]
            · rw [hu]
              exact not_not.mp hviewport
            · rw [hu]
              exact ⟨(hclosed hpassive).trans hopen, hcleanup.trans hconfirmed⟩
        · have found : u.resizeResult = some
              { o with retryable := false, cleanupConfirmed := confirmed } := by rw [hu]
          simp only [found, Option.map_some]
          rw [ends_result rfl]
          exact .final (stays why) values ok rfl rfl (by rw [hu])
      · intro e u ⟨why, hu⟩
        rw [ends_settle]
        have found : u.resizeResult = some o := by rw [hu, result]
        simp only [found, Option.map_some]
        refine .raised (stays why) ?_ ?_ rfl ?_
        · exact values
        · exact ok
        · rw [hu]
          exact fun _ => hcleanup.trans hconfirmed
    · rename_i uncaught
      have hs : ¬ Strays s r a := fun hs => uncaught (strays.mp hs).1
      simp only [result, Option.map_some]
      refine .raised hs ?_ ?_ rfl fun _ => hcleanup.trans hconfirmed
      · exact values
      · exact ok

end Steps

/-! ## 7. What no step touches -/

/-- How often the bootstrap callback has returned. -/
def TerminalStream.consumed (s : TerminalStream) : Nat :=
  s.calls.countP fun c => decide (c.1 = .gridResizeApplied) && c.2.returned

/-- The stream is the same, its request is the one that was accepted, and if the bootstrap
    callback has returned then it is gone. -/
structure Kept (s t : TerminalStream) : Prop where
  streamId : t.streamId = s.streamId
  revision : t.resizeRevision = s.resizeRevision
  payload : t.resizePayload = s.resizePayload
  consumed : t.gridResizeApplied = s.gridResizeApplied ∧ t.consumed = s.consumed ∨
    s.gridResizeApplied = true ∧ t.gridResizeApplied = false ∧ t.consumed = s.consumed + 1

namespace Kept

theorem refl (s : TerminalStream) : Kept s s := ⟨rfl, rfl, rfl, .inl ⟨rfl, rfl⟩⟩

theorem trans (s t u : TerminalStream) (h : Kept s t) (h' : Kept t u) : Kept s u := by
  refine ⟨h'.streamId.trans h.streamId, h'.revision.trans h.revision,
    h'.payload.trans h.payload, ?_⟩
  rcases h.consumed with ⟨hg, hc⟩ | ⟨hs, ht, hc⟩
  · rcases h'.consumed with ⟨hg', hc'⟩ | ⟨hs', ht', hc'⟩
    · exact .inl ⟨hg'.trans hg, hc'.trans hc⟩
    · exact .inr ⟨hg ▸ hs', ht', hc ▸ hc'⟩
  · rcases h'.consumed with ⟨hg', hc'⟩ | ⟨hs', -, -⟩
    · exact .inr ⟨hs, hg'.trans ht, hc'.trans hc⟩
    · exact absurd (ht.symm.trans hs') (by simp)

theorem called {call : TerminalCall} (h : call ≠ .gridResizeApplied) (s : TerminalStream)
    (answer : Answer) : Kept s (s.called call answer) := by
  refine ⟨rfl, rfl, rfl, .inl ⟨rfl, ?_⟩⟩
  simp [TerminalStream.consumed, TerminalStream.called, h]

theorem perform {call : TerminalCall} (h : call ≠ .gridResizeApplied) (answer : Answer) :
    Keeps Kept (perform call answer) := by
  intro s
  rw [ends_perform]
  exact ⟨fun _ => called h s answer, fun _ => called h s answer, fun _ _ => called h s answer⟩

theorem callback {call : TerminalCall} (h : call ≠ .gridResizeApplied) (present absent : Bool)
    (answer : Answer) : Keeps Kept (callback present call answer absent) :=
  .ite (perform h answer) (.pure refl absent)

theorem update (f : ResizeOutcome → ResizeOutcome) : Keeps Kept (update f) :=
  .modify fun _ => ⟨rfl, rfl, rfl, .inl ⟨rfl, rfl⟩⟩

theorem discard {α : Type} {p : TerminalM α} (h : Keeps Kept p) : Keeps Kept (discard p) :=
  .bind trans h fun _ => .pure refl ()

theorem result : Keeps Kept result := by
  apply Keeps.bind trans (.get refl)
  intro s
  cases s.resizeResult with
  | some o => exact .pure refl o
  | none => exact .raise refl _

theorem close (a : ResizeAnswers) : Keeps Kept (close a) := by
  have freeze : Keeps Kept (closeFreeze a) := by
    apply Keeps.bind trans (.get refl)
    intro s
    exact .when refl (discard (perform (by simp) _).attempt)
  have cleanup : Keeps Kept (closeCleanup a) := by
    apply Keeps.bind trans (.get refl)
    intro s
    apply Keeps.when refl
    apply Keeps.bind trans (perform (by simp) _).attempt
    intro confirmed
    exact .modify fun _ => ⟨rfl, rfl, rfl, .inl ⟨rfl, rfl⟩⟩
  apply Keeps.bind trans (.get refl)
  intro s
  apply Keeps.when refl
  refine Keeps.bind trans (.modify ?_) fun _ => ?_
  · exact fun _ => ⟨rfl, rfl, rfl, .inl ⟨rfl, rfl⟩⟩
  · apply Keeps.bind trans freeze
    intro _
    exact .bind trans (discard (perform (by simp) _)) fun _ => cleanup

theorem failClosed (a : ResizeAnswers) : Keeps Kept (failClosed a) :=
  .bind trans (close a) fun _ => .bind trans (.get refl) fun _ => update _

theorem failClosedRole (a : ResizeAnswers) : Keeps Kept (failClosedRole a) :=
  .bind trans (close a) fun _ => .bind trans (.get refl) fun _ => update _

theorem takeRole (r : ResizeRequest) (a : ResizeAnswers) : Keeps Kept (takeRole r a) := by
  apply Keeps.bind trans (.get refl)
  intro s
  apply Keeps.ite
  · apply Keeps.bind trans (callback (by simp) _ _ _)
    intro taken
    apply Keeps.ite
    · exact .bind trans (.modify fun _ => ⟨rfl, rfl, rfl, .inl ⟨rfl, rfl⟩⟩) fun _ => .pure refl _
    · exact .bind trans (.when refl (failClosedRole a)) fun _ => .pure refl _
  · exact .pure refl _

theorem showViewport (r : ResizeRequest) (a : ResizeAnswers) : Keeps Kept (showViewport r a) := by
  have window : Keeps Kept (setWindowSize r a) := by
    apply Keeps.bind trans (discard (perform (by simp) _))
    intro _
    apply Keeps.bind trans (discard (perform (by simp) _))
    intro _
    exact .modify fun _ => ⟨rfl, rfl, rfl, .inl ⟨rfl, rfl⟩⟩
  apply Keeps.bind trans (.get refl)
  intro s
  exact .bind trans (.when refl window) fun _ => update _

theorem awaitGrid (r : ResizeRequest) (a : ResizeAnswers) : Keeps Kept (awaitGrid r a) := by
  apply Keeps.bind trans (.get refl)
  intro s
  have wait : Keeps Kept (do
      let applied ← Resize.callback s.callbacks.waitGridResize (.waitGridResize r.rows r.cols)
        a.wait true
      when (¬ applied) (Stateful.raise notApplied) : TerminalM Unit) :=
    .bind trans (callback (by simp) _ _ _) fun _ => .when refl (.raise refl _)
  exact .bind trans (.when refl wait) fun _ => update _

/-- The callback and its loss are one step: between the two nothing can fail. -/
theorem consumeBootstrap (r : ResizeRequest) (a : ResizeAnswers) :
    Keeps Kept (consumeBootstrap r a) := by
  intro s
  unfold Resize.consumeBootstrap
  rw [ends_bind, ends_get, ends_when]
  refine ⟨fun hpresent => ?_, fun _ => refl s⟩
  have once (answer : a.applied.returned = true) :
      Kept s { s.called .gridResizeApplied a.applied with
        gridResizeApplied := false,
        resizeResult := s.resizeResult.map fun o => { o with bootstrapConsumed := true } } := by
    refine ⟨rfl, rfl, rfl, .inr ⟨hpresent.2, rfl, ?_⟩⟩
    simp [TerminalStream.consumed, TerminalStream.called, answer]
  rw [ends_bind, ends_discard, ends_perform]
  refine ⟨fun h => once (by rw [h]; rfl), fun h => once (by rw [h]; rfl), fun e he => ?_⟩
  refine ⟨rfl, rfl, rfl, .inl ⟨rfl, ?_⟩⟩
  simp [TerminalStream.consumed, TerminalStream.called, he, Answer.returned]

theorem demote (r : ResizeRequest) (a : ResizeAnswers) : Keeps Kept (demote r a) := by
  have drop : Keeps Kept (dropRole a) := by
    apply Keeps.bind trans (.get refl)
    intro s
    apply Keeps.bind trans (callback (by simp) _ _ _)
    intro dropped
    apply Keeps.ite
    · exact .bind trans (.modify fun _ => ⟨rfl, rfl, rfl, .inl ⟨rfl, rfl⟩⟩) fun _ => .pure refl _
    · exact .bind trans (failClosedRole a) fun _ => .pure refl _
  apply Keeps.bind trans (.get refl)
  intro s
  apply Keeps.ite
  · apply Keeps.bind trans (callback (by simp) _ _ _)
    intro frozen
    exact .bind trans (.when refl (.raise refl _)) fun _ => drop
  · exact .pure refl _

theorem tryResize (r : ResizeRequest) (a : ResizeAnswers) : Keeps Kept (tryResize r a) := by
  have early : Keeps Kept (some <$> Resize.result) :=
    .bind trans result fun o => .pure refl (some o)
  have finish : Keeps Kept (finishResize r a) := by
    apply Keeps.bind trans (consumeBootstrap r a)
    intro _
    apply Keeps.bind trans (demote r a)
    intro demoted
    apply Keeps.ite
    · exact .bind trans (.get refl) fun _ => .bind trans (update _) fun _ => .pure refl _
    · exact early
  apply Keeps.bind trans (takeRole r a)
  intro taken
  apply Keeps.ite
  · apply Keeps.bind trans (showViewport r a)
    intro _
    exact .bind trans (awaitGrid r a) fun _ => finish
  · exact early

theorem recover (a : ResizeAnswers) : Keeps Kept (recover a) := by
  apply Keeps.bind trans (.get refl)
  intro s
  apply Keeps.ite (failClosed a)
  apply Keeps.ite
  · apply Keeps.bind trans (callback (by simp) _ _ _)
    intro restored
    exact .ite (.modify fun _ => ⟨rfl, rfl, rfl, .inl ⟨rfl, rfl⟩⟩) (failClosed a)
  · exact .pure refl _

/-- **All that `resize` does to an accepted request keeps it.** -/
theorem accept (r : ResizeRequest) (a : ResizeAnswers) (s : TerminalStream) :
    (accept r a).Ends s (fun _ t => Kept (s.begun r) t) (fun _ t => Kept (s.begun r) t) := by
  have settle : Keeps Kept settle := .bind trans (.get refl) fun _ => update _
  unfold Resize.accept
  rw [ends_bind, ends_modify]
  apply Keeps.bind trans (.finally_ refl trans
    (.tryExcept refl trans (tryResize r a) (.bind trans (recover a) fun _ => .pure refl _)) settle)
  intro returned
  cases returned with
  | some o => exact .pure refl o
  | none => exact result

end Kept

/-! ## 8. The Core's check of a result -/

/-- `result[name]`, where it is known to be a `bool`. -/
def flag (result : JsonObject) (name : String) : Bool := Json.get result name = .bool true

/-- The check of `request_resize`: the result repeats the request, its flags are flags, and
    if it is `ok` they are those of a resize that has been applied. -/
def validResult (identity result : JsonObject) (affectsGrid bootstrap : Bool) : Bool :=
  identity.all (fun (name, value) => Json.get result name = value) &&
  ["ok", "shared_applied", "viewport_applied", "passive_restored", "bootstrap_consumed",
    "grid_active", "retryable", "cleanup_confirmed"].all (fun name =>
      Json.get result name = .bool true || Json.get result name = .bool false) &&
  (!flag result "ok" ||
    flag result "viewport_applied" && flag result "shared_applied" == affectsGrid &&
      flag result "grid_active" == (affectsGrid && !bootstrap) &&
      (!bootstrap || flag result "passive_restored" && flag result "bootstrap_consumed"))

/-- What an `ok` outcome has to say. -/
def ResizeOutcome.Valid (o : ResizeOutcome) : Prop :=
  o.ok = true → o.viewportApplied = true ∧ o.sharedApplied = o.values.affectsGrid ∧
    o.gridActive = (o.values.affectsGrid && !o.values.bootstrap) ∧
    (o.values.bootstrap = true → o.passiveRestored = true ∧ o.bootstrapConsumed = true)

theorem ResizeOutcome.Valid.passes {o : ResizeOutcome} (h : o.Valid) :
    validResult o.values.identity o.fields o.values.affectsGrid o.values.bootstrap = true := by
  -- the fields as they are looked up
  have fields : Json.get o.fields "stream_id" = .str o.values.streamId ∧
      Json.get o.fields "revision" = .int o.values.revision ∧
      Json.get o.fields "rows" = .int o.values.rows ∧ Json.get o.fields "cols" = .int o.values.cols ∧
      Json.get o.fields "affects_grid" = .bool o.values.affectsGrid ∧
      Json.get o.fields "bootstrap" = .bool o.values.bootstrap ∧
      Json.get o.fields "ok" = .bool o.ok ∧
      Json.get o.fields "shared_applied" = .bool o.sharedApplied ∧
      Json.get o.fields "viewport_applied" = .bool o.viewportApplied ∧
      Json.get o.fields "passive_restored" = .bool o.passiveRestored ∧
      Json.get o.fields "bootstrap_consumed" = .bool o.bootstrapConsumed ∧
      Json.get o.fields "grid_active" = .bool o.gridActive ∧
      Json.get o.fields "retryable" = .bool o.retryable ∧
      Json.get o.fields "cleanup_confirmed" = .bool o.cleanupConfirmed := by
    refine ⟨?_, ?_, ?_, ?_, ?_, ?_, ?_, ?_, ?_, ?_, ?_, ?_, ?_, ?_⟩ <;>
      simp [Json.get, ResizeOutcome.fields, ResizeRequest.identity, List.lookup]
  obtain ⟨hid, hrevision, hrows, hcols, haffects, hbootstrap, hok, hshared, hviewport, hpassive,
    hconsumed, hgrid, hretryable, hcleanup⟩ := fields
  simp only [validResult, flag, ResizeRequest.identity, List.all_cons, List.all_nil, hid,
    hrevision, hrows, hcols, haffects, hbootstrap, hok, hshared, hviewport, hpassive, hconsumed,
    hgrid, hretryable, hcleanup]
  cases ho : o.ok with
  | false => simp
  | true =>
    obtain ⟨hv, hs, hg, hboot⟩ := h ho
    cases hb : o.values.bootstrap with
    | false => simp [hv, hs, hg, hb]
    | true =>
      obtain ⟨hp, hc⟩ := hboot hb
      simp [hv, hs, hg, hp, hc, hb]

/-! ## 9. The requests on one stream -/

/-- A request as it was served: whether it was accepted, and its reply. -/
structure Served where
  payload : JsonObject
  answers : ResizeAnswers
  accepted : Option ResizeRequest
  reply : Except ResizeError ResizeOutcome

def TerminalStream.accepts (s : TerminalStream) (payload : JsonObject) : Option ResizeRequest :=
  match s.admission payload with
  | .ok (.accepted r) => some r
  | _ => none

/-- `resize_lock`: one request at a time. -/
def Serves (s : TerminalStream) (l : Served) (t : TerminalStream) : Prop :=
  l.accepted = s.accepts l.payload ∧ resize l.payload l.answers s = (l.reply, t)

/-- The requests accepted in a history, in order. -/
def acceptedOf (ls : List Served) : List ResizeRequest := ls.filterMap (·.accepted)

/-- How the last accepted request was served. -/
def lastAccepted (ls : List Served) : Option Served :=
  (ls.filter fun l => l.accepted.isSome).getLast?

/-- **What the checks of `resize` let through.** -/
theorem admission_ok {s : TerminalStream} {payload : JsonObject} {d : Admission} :
    s.admission payload = .ok d ↔ ∃ r, ResizeRequest.parse s.streamId payload = .ok r ∧
      ((d = .replay ∧ r.revision = s.resizeRevision ∧ s.resizePayload = some r) ∨
        (d = .accepted r ∧ s.resizeRevision < r.revision ∧ s.closed = false ∧
          (r.bootstrap = true → s.gridResizeApplied = true))) := by
  unfold TerminalStream.admission
  rw [bind_eq_ok]
  apply exists_congr
  intro r
  apply and_congr_right
  intro _
  split
  · rename_i hreplay
    have hnot : ¬ s.resizeRevision < r.revision := by omega
    constructor
    · intro h
      exact .inl ⟨(Except.ok.inj h).symm, hreplay⟩
    · rintro (⟨rfl, -⟩ | ⟨-, hlt, -⟩)
      · rfl
      · exact absurd hlt hnot
  · rename_i hfresh
    split
    · rename_i hstale
      refine ⟨fun h => absurd h (by simp), ?_⟩
      rintro (⟨-, h⟩ | ⟨-, hlt, hopen, -⟩)
      · exact absurd h hfresh
      · rcases hstale with hle | hclosed
        · omega
        · exact absurd (hopen.symm.trans hclosed) (by simp)
    · rename_i hnew
      obtain ⟨hlt, hopen⟩ := not_or.mp hnew
      split
      · rename_i hboot
        refine ⟨fun h => absurd h (by simp), ?_⟩
        rintro (⟨-, h⟩ | ⟨-, -, -, hpresent⟩)
        · exact absurd h hfresh
        · exact absurd (hpresent hboot.1) hboot.2
      · rename_i hboot
        constructor
        · intro h
          refine .inr ⟨(Except.ok.inj h).symm, by omega, by simpa using hopen, fun hb => ?_⟩
          by_contra hg
          exact hboot ⟨hb, hg⟩
        · rintro (⟨-, h⟩ | ⟨rfl, -⟩)
          · exact absurd h hfresh
          · rfl

/-- A stream between two requests. -/
structure Resting (s : TerminalStream) : Prop where
  /-- What a replay is answered with. -/
  recorded : ∀ r, s.resizePayload = some r → r.revision = s.resizeRevision ∧
    ∃ o, s.resizeResult = some o ∧ o.values = r ∧ o.Valid
  unconfirmed : s.closed = false → s.cleanupConfirmed = false
  consumed : s.consumed ≤ 1 ∧ (s.gridResizeApplied = true → s.consumed = 0)

theorem Resting.opened (streamId : String) (callbacks : TerminalCallbacks)
    (gridResizeApplied : Bool) : Resting (.opened streamId callbacks gridResizeApplied) :=
  ⟨fun _ h => absurd h (by simp [TerminalStream.opened]), fun _ => rfl, Nat.zero_le _, fun _ => rfl⟩

/-- What an accepted request leaves to be replayed. -/
theorem Accepted.recorded {s t : TerminalStream} {r : ResizeRequest} {a : ResizeAnswers}
    {reply : Except ResizeError ResizeOutcome} (present : r.bootstrap = true → s.gridResizeApplied)
    (h : Accepted s r a reply t) : ∃ o, t.resizeResult = some o ∧ o.values = r ∧ o.Valid ∧
      (reply = .ok o ∨ (∃ e, reply = .error e) ∧ o.ok = false) ∧
      (t.closed = false → t.cleanupConfirmed = false) := by
  -- an outcome that is not `ok` has nothing to say
  have failed {o : ResizeOutcome} (ok : o.ok = false) : o.Valid :=
    fun h => absurd (ok.symm.trans h) (by simp)
  cases h with
  | applied _ outcome result _ _ opened =>
    refine ⟨_, result, by rw [outcome]; rfl, ?_, .inl rfl, fun _ => opened.2⟩
    intro _
    rw [outcome]
    refine ⟨rfl, rfl, rfl, fun hboot => ?_⟩
    have hboot : r.bootstrap = true := hboot
    simp [Resize.applied, r.bootstrap_grid hboot, hboot, present hboot]
  | unchanged _ values ok _ result _ _ opened =>
    exact ⟨_, result, values, failed ok, .inl rfl, fun _ => opened.2⟩
  | strayed _ values ok _ result _ rest =>
    exact ⟨_, result, values, failed ok, .inl rfl, rest⟩
  | final _ values ok _ result closed =>
    exact ⟨_, result, values, failed ok, .inl rfl,
      fun h => absurd (closed.symm.trans h) (by simp)⟩
  | raised _ values ok result rest =>
    exact ⟨_, result, values, failed ok, .inr ⟨⟨_, rfl⟩, ok⟩, rest⟩

/-- What one request does. -/
inductive Serving (s : TerminalStream) (l : Served) (t : TerminalStream) : Prop
  | rejected (e : ResizeError) (accepted : l.accepted = none) (reply : l.reply = .error e)
      (same : t = s)
  | replayed (r : ResizeRequest) (o : ResizeOutcome) (accepted : l.accepted = none)
      (parse : ResizeRequest.parse s.streamId l.payload = .ok r)
      (revision : r.revision = s.resizeRevision) (result : s.resizeResult = some o)
      (values : o.values = r) (valid : o.Valid) (reply : l.reply = .ok o) (same : t = s)
  | accepted (r : ResizeRequest) (accepted : l.accepted = some r)
      (parse : ResizeRequest.parse s.streamId l.payload = .ok r)
      (newer : s.resizeRevision < r.revision)
      (present : r.bootstrap = true → s.gridResizeApplied = true)
      (ends : Accepted s r l.answers l.reply t) (kept : Kept (s.begun r) t)

theorem Serves.cases {s t : TerminalStream} {l : Served} (rest : Resting s) (h : Serves s l t) :
    Serving s l t := by
  obtain ⟨haccepted, hrun⟩ := h
  unfold TerminalStream.accepts at haccepted
  have hresize : resize l.payload l.answers s =
      (do match ← ofExcept (s.admission l.payload) with
          | .replay => result
          | .accepted r => accept r l.answers : TerminalM ResizeOutcome) s := rfl
  rw [hresize] at hrun
  cases hadmission : s.admission l.payload with
  | error e =>
    rw [hadmission] at haccepted hrun
    obtain ⟨hreply, rfl⟩ := Prod.mk.inj hrun
    exact .rejected e haccepted hreply.symm rfl
  | ok d =>
    rw [hadmission] at haccepted hrun
    obtain ⟨r, hparse, h⟩ := admission_ok.mp hadmission
    rcases h with ⟨rfl, hrevision, hpayload⟩ | ⟨rfl, hlt, hopen, hpresent⟩
    · obtain ⟨-, o, hresult, hvalues, hvalid⟩ := rest.recorded r hpayload
      have hends : result.Ends s (fun o' t => o' = o ∧ t = s) (fun _ _ => False) := by
        rw [ends_result hresult]
        exact ⟨rfl, rfl⟩
      have hrun : result s = (l.reply, t) := hrun
      cases hreply : l.reply with
      | error e =>
        rw [hreply] at hrun
        exact absurd (hends.raised hrun) id
      | ok o' =>
        rw [hreply] at hrun
        obtain ⟨rfl, rfl⟩ := hends.returned hrun
        exact .replayed r _ haccepted hparse hrevision hresult hvalues hvalid hreply rfl
    · have hrun : accept r l.answers s = (l.reply, t) := hrun
      have hends := (accept_ends hopen (rest.unconfirmed hopen)).and (Kept.accept r l.answers s)
      refine .accepted r haccepted hparse hlt hpresent ?_ ?_
      · cases hreply : l.reply with
        | error e =>
          rw [hreply] at hrun
          exact (hends.raised hrun).1
        | ok o =>
          rw [hreply] at hrun
          exact (hends.returned hrun).1
      · cases hreply : l.reply with
        | error e =>
          rw [hreply] at hrun
          exact (hends.raised hrun).2
        | ok o =>
          rw [hreply] at hrun
          exact (hends.returned hrun).2

theorem Resting.step {s t : TerminalStream} {l : Served} (rest : Resting s) (h : Serving s l t) :
    Resting t := by
  cases h with
  | rejected e _ _ same => rw [same]; exact rest
  | replayed r o _ _ _ _ _ _ _ same => rw [same]; exact rest
  | accepted r _ _ _ present ends kept =>
    obtain ⟨o, hresult, hvalues, hvalid, -, hrest⟩ := ends.recorded present
    refine ⟨fun q hq => ?_, hrest, ?_⟩
    · obtain rfl : r = q := Option.some.inj (kept.payload.symm.trans hq)
      exact ⟨kept.revision.symm, o, hresult, hvalues, hvalid⟩
    · have hbefore := rest.consumed
      have hsame : (s.begun r).consumed = s.consumed ∧
          (s.begun r).gridResizeApplied = s.gridResizeApplied := ⟨rfl, rfl⟩
      rcases kept.consumed with ⟨hg, hc⟩ | ⟨hs, ht, hc⟩
      · rw [hsame.1] at hc
        rw [hsame.2] at hg
        rw [hc, hg]
        exact hbefore
      · have hzero := hbefore.2 hs
        refine ⟨by omega, fun h => absurd (ht.symm.trans h) (by simp)⟩

theorem resize_replay {s : TerminalStream} {payload : JsonObject} {a : ResizeAnswers}
    {r : ResizeRequest} {o : ResizeOutcome} (parse : ResizeRequest.parse s.streamId payload = .ok r)
    (revision : r.revision = s.resizeRevision) (same : s.resizePayload = some r)
    (recorded : s.resizeResult = some o) : resize payload a s = (.ok o, s) := by
  have hadmission : s.admission payload = .ok .replay :=
    admission_ok.mpr ⟨r, parse, .inl ⟨rfl, revision, same⟩⟩
  have hends : (resize payload a).Ends s (fun o' t => o' = o ∧ t = s) (fun _ _ => False) := by
    unfold resize
    rw [ends_bind, ends_get, hadmission, ends_bind, ends_ofExcept, onResult_ok, ends_result recorded]
    exact ⟨rfl, rfl⟩
  cases hrun : resize payload a s with
  | mk reply t =>
    cases reply with
    | ok o' =>
      obtain ⟨rfl, rfl⟩ := hends.returned hrun
      rfl
    | error e => exact absurd (hends.raised hrun) id

theorem resize_stale {s : TerminalStream} {payload : JsonObject} {a : ResizeAnswers}
    {r : ResizeRequest} (parse : ResizeRequest.parse s.streamId payload = .ok r)
    (old : r.revision ≤ s.resizeRevision) (other : s.resizePayload ≠ some r) :
    resize payload a s = (.error stale, s) := by
  have hadmission : s.admission payload = .error stale := by
    unfold TerminalStream.admission
    rw [parse, ok_bind, if_neg (fun h => other h.2), if_pos (.inl old)]
  have hends : (resize payload a).Ends s (fun _ _ => False) (fun e t => e = stale ∧ t = s) := by
    unfold resize
    rw [ends_bind, ends_get, hadmission, ends_bind, ends_ofExcept]
    exact ⟨rfl, rfl⟩
  cases hrun : resize payload a s with
  | mk reply t =>
    cases reply with
    | ok o' => exact absurd (hends.returned hrun) id
    | error e =>
      obtain ⟨rfl, rfl⟩ := hends.raised hrun
      rfl

/-- What the requests served so far have to do with the stream. -/
structure History (id : String) (ls : List Served) (s : TerminalStream) : Prop where
  rest : Resting s
  streamId : s.streamId = id
  increasing : ((acceptedOf ls).map (·.revision)).Pairwise (· < ·)
  bound : ∀ q ∈ acceptedOf ls, q.revision ≤ s.resizeRevision
  last : s.resizePayload = (lastAccepted ls).bind (·.accepted)
  recorded : ∀ l, lastAccepted ls = some l → ∃ o, s.resizeResult = some o ∧
    (l.reply = .ok o ∨ (∃ e, l.reply = .error e) ∧ o.ok = false)
  valid : ∀ l ∈ ls, ∀ o, l.reply = .ok o → ∃ r, ResizeRequest.parse id l.payload = .ok r ∧
    validResult r.identity o.fields r.affectsGrid r.bootstrap = true

theorem History.opened (id : String) (callbacks : TerminalCallbacks) (gridResizeApplied : Bool) :
    History id [] (.opened id callbacks gridResizeApplied) :=
  ⟨.opened _ _ _, rfl, .nil, fun _ h => absurd h List.not_mem_nil, rfl,
    fun _ h => absurd h (by simp [lastAccepted]), fun _ h => absurd h List.not_mem_nil⟩

theorem acceptedOf_concat (ls : List Served) (l : Served) :
    acceptedOf (ls ++ [l]) = acceptedOf ls ++ l.accepted.toList := by
  cases h : l.accepted <;> simp [acceptedOf, h]

theorem lastAccepted_concat (ls : List Served) (l : Served) :
    lastAccepted (ls ++ [l]) = if l.accepted.isSome then some l else lastAccepted ls := by
  unfold lastAccepted
  rw [List.filter_append]
  cases h : l.accepted <;> simp [h]

theorem History.step {id : String} {ls : List Served} {s t : TerminalStream} {l : Served}
    (h : History id ls s) (step : Serves s l t) : History id (ls ++ [l]) t := by
  have serving := step.cases h.rest
  have rest := h.rest.step serving
  -- a reply that was valid stays so
  have valid (reply : ∀ o, l.reply = .ok o → ∃ r, ResizeRequest.parse id l.payload = .ok r ∧
      validResult r.identity o.fields r.affectsGrid r.bootstrap = true) :
      ∀ m ∈ ls ++ [l], ∀ o, m.reply = .ok o → ∃ r, ResizeRequest.parse id m.payload = .ok r ∧
        validResult r.identity o.fields r.affectsGrid r.bootstrap = true := by
    intro m hm
    rcases List.mem_append.mp hm with hm | hm
    · exact h.valid m hm
    · rw [List.mem_singleton.mp hm]
      exact reply
  -- a request that is not accepted leaves the stream, and the history of those that are
  have aside (accepted : l.accepted = none) (same : t = s)
      (reply : ∀ o, l.reply = .ok o → ∃ r, ResizeRequest.parse id l.payload = .ok r ∧
        validResult r.identity o.fields r.affectsGrid r.bootstrap = true) :
      History id (ls ++ [l]) t := by
    have hof : acceptedOf (ls ++ [l]) = acceptedOf ls := by
      simp [acceptedOf_concat, accepted]
    have hlast : lastAccepted (ls ++ [l]) = lastAccepted ls := by
      simp [lastAccepted_concat, accepted]
    subst same
    exact ⟨rest, h.streamId, hof ▸ h.increasing, hof ▸ h.bound, hlast ▸ h.last,
      hlast ▸ h.recorded, valid reply⟩
  cases serving with
  | rejected e accepted reply same =>
    exact aside accepted same fun o ho => absurd (reply.symm.trans ho) (by simp)
  | replayed r o accepted parse _ result values hvalid reply same =>
    refine aside accepted same fun o' ho => ⟨r, h.streamId ▸ parse, ?_⟩
    obtain rfl : o = o' := Except.ok.inj (reply.symm.trans ho)
    rw [← values]
    exact hvalid.passes
  | accepted r accepted parse newer present ends kept =>
    obtain ⟨o, hresult, hvalues, hvalid, hreply, -⟩ := ends.recorded present
    have hof : acceptedOf (ls ++ [l]) = acceptedOf ls ++ [r] := by
      simp [acceptedOf_concat, accepted]
    have hlast : lastAccepted (ls ++ [l]) = some l := by
      simp [lastAccepted_concat, accepted]
    have hrevision : t.resizeRevision = r.revision := kept.revision
    refine ⟨rest, kept.streamId.trans h.streamId, ?_, ?_, ?_, ?_, valid ?_⟩
    · rw [hof, List.map_append, List.pairwise_append]
      refine ⟨h.increasing, by simp, ?_⟩
      intro v hv w hw
      obtain ⟨q, hq, rfl⟩ := List.mem_map.mp hv
      obtain rfl : w = r.revision := by simpa using hw
      exact Int.lt_of_le_of_lt (h.bound q hq) newer
    · intro q hq
      rw [hof] at hq
      rw [hrevision]
      rcases List.mem_append.mp hq with hq | hq
      · exact Int.le_of_lt (Int.lt_of_le_of_lt (h.bound q hq) newer)
      · exact Int.le_of_eq (by rw [List.mem_singleton.mp hq])
    · rw [hlast]
      exact kept.payload.trans accepted.symm
    · intro m hm
      obtain rfl : l = m := Option.some.inj (hlast.symm.trans hm)
      exact ⟨o, hresult, hreply⟩
    · intro o' ho
      refine ⟨r, h.streamId ▸ parse, ?_⟩
      rcases hreply with hok | ⟨⟨e, he⟩, -⟩
      · obtain rfl : o = o' := Except.ok.inj (hok.symm.trans ho)
        rw [← hvalues]
        exact hvalid.passes
      · exact absurd (he.symm.trans ho) (by simp)

/-- **Resize requests are applied in order and once.** After any requests on one stream, with
    any failures:

    1. the accepted revisions strictly increase;
    2. the last accepted request, sent again, is answered with its recorded result, which is
       what it was answered with (or, if an exception got through, not `ok`), and does nothing;
    3. any other request of an old revision is rejected, and does nothing;
    4. the bootstrap callback has returned at most once;
    5. every result sent passes the Core's check. -/
theorem resize_served {id : String} {callbacks : TerminalCallbacks} {gridResizeApplied : Bool}
    {ls : List Served} {s : TerminalStream}
    (run : Run Serves (.opened id callbacks gridResizeApplied) ls s) :
    ((acceptedOf ls).map (·.revision)).Pairwise (· < ·) ∧
    (∀ l r payload a, lastAccepted ls = some l → l.accepted = some r →
      ResizeRequest.parse id payload = .ok r → ∃ o, resize payload a s = (.ok o, s) ∧
        (l.reply = .ok o ∨ (∃ e, l.reply = .error e) ∧ o.ok = false)) ∧
    (∀ q ∈ acceptedOf ls, ∀ r payload a, ResizeRequest.parse id payload = .ok r →
      r.revision ≤ q.revision → (lastAccepted ls).bind (·.accepted) ≠ some r →
        resize payload a s = (.error stale, s)) ∧
    s.consumed ≤ 1 ∧
    ∀ l ∈ ls, ∀ o, l.reply = .ok o → ∃ r, ResizeRequest.parse id l.payload = .ok r ∧
      validResult r.identity o.fields r.affectsGrid r.bootstrap = true := by
  have h : History id ls s := by
    induction run with
    | refl => exact .opened id callbacks gridResizeApplied
    | snoc before last ih => exact ih.step last
  refine ⟨h.increasing, ?_, ?_, h.rest.consumed.1, h.valid⟩
  · intro l r payload a hlast haccepted hparse
    obtain ⟨o, hresult, hreply⟩ := h.recorded l hlast
    have hpayload : s.resizePayload = some r := by
      rw [h.last, hlast]
      exact haccepted
    exact ⟨o, resize_replay (h.streamId ▸ hparse) (h.rest.recorded r hpayload).1 hpayload hresult,
      hreply⟩
  · intro q hq r payload a hparse hle hother
    apply resize_stale (h.streamId ▸ hparse) (Int.le_trans hle (h.bound q hq))
    rw [h.last]
    exact hother

/-- The callbacks of an attached terminal. -/
def attached : TerminalCallbacks := ⟨true, true, true, true⟩

/-- Nothing fails. -/
def allDone : ResizeAnswers :=
  ⟨.done, .done, .done, .done, .done, .done, .done, .done, .done, .done, .done⟩

/-- The first resize of a fresh grid. -/
def firstResize : JsonObject :=
  [("stream_id", .str "t"), ("revision", .int 1), ("rows", .int 24), ("cols", .int 80),
   ("affects_grid", .bool true), ("bootstrap", .bool true)]

/-- A request as `resize` serves it. -/
def served (s : TerminalStream) (payload : JsonObject) (a : ResizeAnswers) : Served :=
  ⟨payload, a, s.accepts payload, (resize payload a s).1⟩

theorem serves_served (s : TerminalStream) (payload : JsonObject) (a : ResizeAnswers) :
    Serves s (served s payload a) (resize payload a s).2 := ⟨rfl, rfl⟩

/-- A bootstrap, sent twice: accepted once, answered twice, its callback called once. -/
theorem resize_served_twice : ∃ ls s, Run Serves (.opened "t" attached true) ls s ∧
    ls.length = 2 ∧ (acceptedOf ls).length = 1 ∧ s.consumed = 1 ∧
    ∀ l ∈ ls, ∀ o, l.reply = .ok o → ∃ r, ResizeRequest.parse "t" l.payload = .ok r ∧
      validResult r.identity o.fields r.affectsGrid r.bootstrap = true := by
  have run := Run.cons (serves_served (.opened "t" attached true) firstResize allDone)
    (.single (serves_served _ firstResize allDone))
  refine ⟨_, _, run, rfl, ?_, ?_, (resize_served run).2.2.2.2⟩
  · decide +kernel
  · decide +kernel

end Termroom.Node.Resize
