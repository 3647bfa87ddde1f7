import Termroom.Conc.Run
import Mathlib.Data.List.Basic
import Mathlib.Logic.Function.Basic

/-!
# The Core's registry of Node connections

`NodeCore` (`node_core.py`) keeps the control connection of each Node. A Node that connects is
authenticated, looked up again and registered, which replaces the connection it had; a connection
that ends takes itself out of the registry. Revoking a Node (`revoke_node` in `app.py`) marks it in
the store and then takes its connection out; **deleting its computer (`delete_computer`) takes it
out without a mark**, and its row only after that.

The tasks interleave at their waits only, and everything that touches the registry does so under
one `asyncio.Lock`. The lock is modelled with its queue, and what it protects never waits
(`Free`): a task never finds it taken, so from the end of the authentication to the registration it
does not give way.

`registry_safe` is what this comes to. A revoked Node has no connection if it was marked, or if it
does not connect again before its row is taken; the one that is registered is the last that was
authenticated; and a connection that ends takes out no other.
-/

set_option autoImplicit false

namespace Termroom.Node.Registry

open Conc

/-! ## 1. The source -/

/-- What the registry reads of a row of `computers`: whether `connection_method` is `node`, and
    whether `node_revoked_at` is set. -/
structure Computer where
  node : Bool
  revoked : Bool
  deriving DecidableEq, Repr

/-- The check that `_authenticate`, `update_node_connection` and `handle_socket` make. -/
def admissible : Option Computer → Bool
  | some computer => computer.node && !computer.revoked
  | none => false

/-- Where `handle_socket` is. -/
inductive Phase where
  /-- waits for `auth.response` -/
  | challenged
  /-- waits for the lock, to register -/
  | admitting
  /-- waits for the connection it replaces to close -/
  | replacing
  /-- closes, because the Node was revoked -/
  | refused
  | serving
  /-- waits for the lock, to take itself out -/
  | cleaning
  | closing
  | over
  deriving DecidableEq, Repr

structure Socket where
  nodeId : String
  phase : Phase
  deriving DecidableEq, Repr

/-- Where a call of `NodeCore.revoke` is. -/
inductive RevokePhase where
  | popping
  | closing
  | completed
  deriving DecidableEq, Repr

structure Revoke where
  nodeId : String
  /-- The store has marked the Node before, as `revoke_node` has it do. -/
  marked : Bool
  phase : RevokePhase
  deriving DecidableEq, Repr

/-- The four bodies of `async with self._lock`. -/
inductive Locked where
  | enter (socket : Nat) (nodeId : String)
  | cleanup (socket : Nat) (nodeId : String)
  | pop (call : Nat) (nodeId : String) (marked : Bool)
  | shutdown
  deriving DecidableEq, Repr

structure NodeCore where
  computers : String → Option Computer
  connections : String → Option Nat
  /-- The lock, and who waits for it. -/
  locked : Bool
  waiters : List Locked
  sockets : Nat → Option Socket
  revokes : Nat → Option Revoke
  /-- The connections that were authenticated, with their Nodes, newest first. -/
  authenticated : List (String × Nat)

/-- The connection is taken out if it is the one that is registered. -/
def popOwn (connections : String → Option Nat) (nodeId : String) (socket : Nat) :
    String → Option Nat :=
  if connections nodeId = some socket then Function.update connections nodeId none
  else connections

namespace NodeCore

def new (computers : String → Option Computer) : NodeCore :=
  ⟨computers, fun _ => none, false, [], fun _ => none, fun _ => none, []⟩

def setSocket (w : NodeCore) (socket : Nat) (nodeId : String) (phase : Phase) : NodeCore :=
  { w with sockets := Function.update w.sockets socket (some ⟨nodeId, phase⟩) }

def setRevoke (w : NodeCore) (call : Nat) (nodeId : String) (marked : Bool)
    (phase : RevokePhase) : NodeCore :=
  { w with revokes := Function.update w.revokes call (some ⟨nodeId, marked, phase⟩) }

def body (w : NodeCore) : Locked → NodeCore
  | .enter socket nodeId =>
      if admissible (w.computers nodeId) then
        let previous := w.connections nodeId
        { w with connections := Function.update w.connections nodeId (some socket) }.setSocket
          socket nodeId (if previous.isSome then .replacing else .serving)
      else w.setSocket socket nodeId .refused
  | .cleanup socket nodeId =>
      { w with connections := popOwn w.connections nodeId socket }.setSocket socket nodeId .closing
  | .pop call nodeId marked =>
      let connection := w.connections nodeId
      { w with connections := Function.update w.connections nodeId none }.setRevoke call nodeId
        marked (if connection.isSome then .closing else .completed)
  | .shutdown => { w with connections := fun _ => none }

/-- A body from `acquire` to `release`. -/
def run (w : NodeCore) (task : Locked) : NodeCore :=
  { { w with locked := true }.body task with locked := false }

/-- `async with self._lock`: `acquire` returns at once while the lock is free and nobody waits for
    it, and suspends the task otherwise. -/
def withLock (w : NodeCore) (task : Locked) : NodeCore :=
  if w.locked = false ∧ w.waiters = [] then w.run task
  else { w with waiters := w.waiters ++ [task] }

/-- `handle_socket` up to the challenge. -/
def connect (w : NodeCore) (socket : Nat) (nodeId : String) : NodeCore :=
  w.setSocket socket nodeId (if admissible (w.computers nodeId) then .challenged else .over)

/-- The answer to the challenge: `_authenticate` from there on, and the registration. `valid` says
    that the answer came in time and that its fields and its signature are right. -/
def authenticate (w : NodeCore) (socket : Nat) (nodeId : String) (valid : Bool) : NodeCore :=
  if valid && admissible (w.computers nodeId) then
    { w.setSocket socket nodeId .admitting with
      authenticated := (nodeId, socket) :: w.authenticated }.withLock (.enter socket nodeId)
  else w.setSocket socket nodeId .over

/-- The `finally` of `handle_socket`. -/
def finish (w : NodeCore) (socket : Nat) (nodeId : String) : NodeCore :=
  (w.setSocket socket nodeId .cleaning).withLock (.cleanup socket nodeId)

/-- `NodeCore.revoke`, for a Node that the store has marked or not. -/
def unregister (w : NodeCore) (call : Nat) (nodeId : String) (marked : Bool) : NodeCore :=
  (w.setRevoke call nodeId marked .popping).withLock (.pop call nodeId marked)

/-- `revoke_node`: the store marks the Node, and `NodeCore.revoke` goes on. A Node that is unknown
    or revoked already is answered with an error. -/
def revoke (w : NodeCore) (call : Nat) (nodeId : String) : NodeCore :=
  match w.computers nodeId with
  | some ⟨true, false⟩ =>
      { w with computers := Function.update w.computers nodeId (some ⟨true, true⟩) }.unregister
        call nodeId true
  | _ => w

/-- `delete_computer` of a Node, up to the removal of its row. -/
def deleteComputer (w : NodeCore) (call : Nat) (nodeId : String) : NodeCore :=
  match w.computers nodeId with
  | some ⟨true, _⟩ => w.unregister call nodeId false
  | _ => w

end NodeCore

/-! ## 2. Runs -/

inductive Act where
  | connect (socket : Nat) (nodeId : String)
  | authenticate (socket : Nat) (valid : Bool)
  /-- `previous.close` is over. -/
  | replaced (socket : Nat)
  /-- It does not return: the task is cancelled there, outside the `try`. -/
  | dropped (socket : Nat)
  | finish (socket : Nat)
  /-- The last `close` of `handle_socket` is over. -/
  | closed (socket : Nat)
  | revoke (call : Nat) (nodeId : String)
  | deleteComputer (call : Nat) (nodeId : String)
  /-- `NodeCore.revoke` returns. -/
  | revoked (call : Nat)
  | shutdown
  /-- The lock is handed to the task that waits longest. -/
  | wake
  /-- Another part of the program writes a row of `computers`. -/
  | write (nodeId : String) (row : Option Computer)
  deriving DecidableEq

/-- A task runs from one of its waits to the next. Pairing writes rows under new ids and deleting
    a computer takes its row; nothing makes a Node that was marked admissible again. -/
inductive Step (w : NodeCore) : Act → NodeCore → Prop
  | connect (socket : Nat) (nodeId : String) (fresh : w.sockets socket = none) :
      Step w (.connect socket nodeId) (w.connect socket nodeId)
  | authenticate {socket : Nat} {nodeId : String} (valid : Bool)
      (phase : w.sockets socket = some ⟨nodeId, .challenged⟩) :
      Step w (.authenticate socket valid) (w.authenticate socket nodeId valid)
  | replaced {socket : Nat} {nodeId : String}
      (phase : w.sockets socket = some ⟨nodeId, .replacing⟩) :
      Step w (.replaced socket) (w.setSocket socket nodeId .serving)
  | dropped {socket : Nat} {nodeId : String}
      (phase : w.sockets socket = some ⟨nodeId, .replacing⟩) :
      Step w (.dropped socket) (w.setSocket socket nodeId .over)
  | finish {socket : Nat} {nodeId : String}
      (phase : w.sockets socket = some ⟨nodeId, .serving⟩) :
      Step w (.finish socket) (w.finish socket nodeId)
  | closed {socket : Nat} {nodeId : String} {phase : Phase}
      (found : w.sockets socket = some ⟨nodeId, phase⟩)
      (last : phase = .closing ∨ phase = .refused) :
      Step w (.closed socket) (w.setSocket socket nodeId .over)
  | revoke (call : Nat) (nodeId : String) (fresh : w.revokes call = none) :
      Step w (.revoke call nodeId) (w.revoke call nodeId)
  | deleteComputer (call : Nat) (nodeId : String) (fresh : w.revokes call = none) :
      Step w (.deleteComputer call nodeId) (w.deleteComputer call nodeId)
  | revoked {call : Nat} {nodeId : String} {marked : Bool}
      (phase : w.revokes call = some ⟨nodeId, marked, .closing⟩) :
      Step w (.revoked call) (w.setRevoke call nodeId marked .completed)
  | shutdown : Step w .shutdown (w.withLock .shutdown)
  | wake {task : Locked} {rest : List Locked} (free : w.locked = false)
      (next : w.waiters = task :: rest) : Step w .wake ({ w with waiters := rest }.run task)
  | write (nodeId : String) (row : Option Computer)
      (kept : ∀ call revoke, w.revokes call = some revoke → revoke.marked = true →
        revoke.nodeId = nodeId → admissible row = false) :
      Step w (.write nodeId row) { w with computers := Function.update w.computers nodeId row }

/-- A Node that the store admits does not answer the challenge where such a revocation of it was
    begun. -/
def Apart (such : Bool → Prop) (w : NodeCore) (act : Act) : Prop :=
  ∀ socket nodeId, act = .authenticate socket true →
    w.sockets socket = some ⟨nodeId, .challenged⟩ → admissible (w.computers nodeId) = true →
    ∀ call revoke, w.revokes call = some revoke → such revoke.marked → revoke.nodeId ≠ nodeId

/-- **No Node connects again while it is being deleted**: it is not authenticated once
    `NodeCore.revoke` was called for it. -/
def Quiet (w : NodeCore) (act : Act) (_ : NodeCore) : Prop := Apart (fun _ => True) w act

/-! ## 3. The lock is free -/

namespace NodeCore

variable {w w' : NodeCore} {act : Act}

/-- Nobody holds the lock or waits for it. -/
def Free (w : NodeCore) : Prop := w.locked = false ∧ w.waiters = []

theorem withLock_free {task : Locked} (h : w.Free) : w.withLock task = w.run task := by
  simp [NodeCore.withLock, h.1, h.2]

@[simp] theorem body_waiters (task : Locked) : (w.body task).waiters = w.waiters := by
  cases task with
  | enter socket nodeId =>
    simp only [body]
    split <;> rfl
  | cleanup _ _ | pop _ _ | shutdown => rfl

theorem Free.withLock (h : w.Free) (task : Locked) : (w.withLock task).Free := by
  rw [withLock_free h]
  exact ⟨rfl, (body_waiters task).trans h.2⟩

theorem Free.unregister (h : w.Free) (call : Nat) (nodeId : String) (marked : Bool) :
    (w.unregister call nodeId marked).Free := by
  unfold NodeCore.unregister
  apply Free.withLock
  exact h

/-- A body releases the lock before its task waits again, so no task finds it taken. -/
theorem Free.step (h : w.Free) (step : Step w act w') : w'.Free := by
  cases step with
  | connect socket nodeId _ => exact h
  | @authenticate socket nodeId valid _ =>
    unfold NodeCore.authenticate
    split
    · apply Free.withLock
      exact h
    · exact h
  | replaced _ | dropped _ | closed _ _ | revoked _ | write _ _ _ => exact h
  | finish _ =>
    unfold NodeCore.finish
    apply Free.withLock
    exact h
  | revoke call nodeId _ =>
    unfold NodeCore.revoke
    split
    · apply Free.unregister
      exact h
    · exact h
  | deleteComputer call nodeId _ =>
    unfold NodeCore.deleteComputer
    split
    · exact h.unregister _ _ _
    · exact h
  | shutdown => exact h.withLock _
  | wake _ next =>
    rw [h.2] at next
    simp at next

/-! ## 4. Who is registered -/

/-- A Node that was marked is not admissible any more, and the connection that is registered is
    the last one of its Node that was authenticated. -/
structure Ok (w : NodeCore) : Prop where
  free : w.Free
  marked : ∀ call revoke, w.revokes call = some revoke → revoke.marked = true →
    admissible (w.computers revoke.nodeId) = false
  latest : ∀ nodeId socket, w.connections nodeId = some socket →
    w.authenticated.lookup nodeId = some socket

/-- A Node with such a revocation is not registered. -/
def Gone (such : Bool → Prop) (w : NodeCore) : Prop :=
  ∀ call revoke, w.revokes call = some revoke → such revoke.marked →
    w.connections revoke.nodeId = none

theorem Ok.new (computers : String → Option Computer) : (NodeCore.new computers).Ok :=
  ⟨⟨rfl, rfl⟩, by simp [NodeCore.new], by simp [NodeCore.new]⟩

variable {such : Bool → Prop}

theorem dropped_update (connections : String → Option Nat) (nodeId other : String) :
    Function.update connections nodeId none other = none ∨
      Function.update connections nodeId none other = connections other := by
  by_cases heq : other = nodeId
  · left; simp [heq]
  · right; simp [heq]

theorem dropped_popOwn (connections : String → Option Nat) (nodeId : String) (socket : Nat)
    (other : String) : popOwn connections nodeId socket other = none ∨
      popOwn connections nodeId socket other = connections other := by
  unfold popOwn
  split
  · exact dropped_update _ _ _
  · exact .inr rfl

/-- Connections that are taken out. -/
def Drops (w w' : NodeCore) : Prop :=
  ∀ nodeId, w'.connections nodeId = none ∨ w'.connections nodeId = w.connections nodeId

theorem Ok.drop (h : w.Ok) (hdrop : Drops w w') (free : w'.Free)
    (computers : w'.computers = w.computers) (revokes : w'.revokes = w.revokes)
    (authenticated : w'.authenticated = w.authenticated) : w'.Ok := by
  refine ⟨free, ?_, fun nodeId socket hsocket => ?_⟩
  · rw [computers, revokes]
    exact h.marked
  · rw [authenticated]
    rcases hdrop nodeId with hdropped | hsame
    · simp [hdropped] at hsocket
    · exact h.latest nodeId socket (hsame ▸ hsocket)

theorem Gone.drop (h : w.Gone such) (hdrop : Drops w w') (revokes : w'.revokes = w.revokes) :
    w'.Gone such := by
  intro call revoke hrevoke hsuch
  rcases hdrop revoke.nodeId with hdropped | hsame
  · exact hdropped
  · exact hsame.trans (h call revoke (revokes ▸ hrevoke) hsuch)

theorem Ok.authenticate (h : w.Ok) (socket : Nat) (nodeId : String) (valid : Bool) :
    (w.authenticate socket nodeId valid).Ok := by
  have free := h.free
  unfold NodeCore.authenticate
  split
  · rename_i hvalid
    have hadmissible : admissible (w.computers nodeId) = true := (Bool.and_eq_true_iff.mp hvalid).2
    rw [withLock_free (by exact free)]
    simp only [NodeCore.run, NodeCore.body, NodeCore.setSocket, hadmissible, if_true]
    refine ⟨⟨rfl, h.free.2⟩, h.marked, fun other registered hother => ?_⟩
    by_cases heq : other = nodeId
    · subst heq
      simpa using hother
    · have hbefore := h.latest other registered (by simpa [heq] using hother)
      have hkey : (other == nodeId) = false := by simpa using heq
      simpa [List.lookup_cons, hkey] using hbefore
  · exact ⟨h.free, h.marked, h.latest⟩

theorem Gone.authenticate (h : w.Gone such) (free : w.Free) {socket : Nat} {nodeId : String}
    {valid : Bool} (apart : Apart such w (.authenticate socket valid))
    (phase : w.sockets socket = some ⟨nodeId, .challenged⟩) :
    (w.authenticate socket nodeId valid).Gone such := by
  unfold NodeCore.authenticate
  split
  · rename_i hvalid
    obtain ⟨rfl, hadmissible⟩ := Bool.and_eq_true_iff.mp hvalid
    rw [withLock_free (by exact free)]
    simp only [NodeCore.run, NodeCore.body, NodeCore.setSocket, hadmissible, if_true]
    intro call revoke hrevoke hsuch
    -- the connection that is registered is no Node's that is being revoked
    have hne := apart socket nodeId rfl phase hadmissible call revoke hrevoke hsuch
    simpa [hne] using h call revoke hrevoke hsuch
  · exact h

theorem Ok.unregister (h : w.Ok) {call : Nat} {nodeId : String} {marked : Bool}
    (hmarked : marked = true → admissible (w.computers nodeId) = false) :
    (w.unregister call nodeId marked).Ok := by
  have free := h.free
  unfold NodeCore.unregister
  rw [withLock_free (by exact free)]
  simp only [NodeCore.run, NodeCore.body, NodeCore.setRevoke]
  refine ⟨⟨rfl, h.free.2⟩, fun other revoke hrevoke hother => ?_, fun node socket hsocket => ?_⟩
  · by_cases hcall : other = call
    · subst hcall
      obtain rfl := by simpa using hrevoke
      exact hmarked hother
    · exact h.marked other revoke (by simpa [hcall] using hrevoke) hother
  · rcases dropped_update w.connections nodeId node with hdropped | hsame
    · cases hdropped.symm.trans hsocket
    · exact h.latest node socket (hsame.symm.trans hsocket)

theorem Gone.unregister (h : w.Gone such) (free : w.Free) (call : Nat) (nodeId : String)
    (marked : Bool) : (w.unregister call nodeId marked).Gone such := by
  unfold NodeCore.unregister
  rw [withLock_free (by exact free)]
  simp only [NodeCore.run, NodeCore.body, NodeCore.setRevoke]
  intro other revoke hrevoke hsuch
  by_cases hnode : revoke.nodeId = nodeId
  · simp [hnode]
  · have hother : w.revokes other = some revoke := by
      by_cases hcall : other = call
      · subst hcall
        obtain rfl := by simpa using hrevoke
        exact absurd rfl hnode
      · simpa [hcall] using hrevoke
    simpa [hnode] using h other revoke hother hsuch

/-- The call that returns is one that there was. -/
theorem revoked_cases {call other : Nat} {nodeId : String} {marked : Bool} {revoke : Revoke}
    (phase : w.revokes call = some ⟨nodeId, marked, .closing⟩)
    (hrevoke : (w.setRevoke call nodeId marked .completed).revokes other = some revoke) :
    ∃ before, w.revokes other = some before ∧ before.nodeId = revoke.nodeId ∧
      before.marked = revoke.marked := by
  by_cases hcall : other = call
  · subst hcall
    obtain rfl := by simpa [NodeCore.setRevoke] using hrevoke
    exact ⟨_, phase, rfl, rfl⟩
  · exact ⟨revoke, by simpa [NodeCore.setRevoke, hcall] using hrevoke, rfl, rfl⟩

theorem finish_drops (free : w.Free) (socket : Nat) (nodeId : String) :
    Drops w (w.finish socket nodeId) := by
  unfold NodeCore.finish
  rw [withLock_free (by exact free)]
  intro other
  exact dropped_popOwn _ _ _ _

theorem finish_frame (free : w.Free) (socket : Nat) (nodeId : String) :
    (w.finish socket nodeId).computers = w.computers ∧
      (w.finish socket nodeId).revokes = w.revokes ∧
      (w.finish socket nodeId).authenticated = w.authenticated := by
  unfold NodeCore.finish
  rw [withLock_free (by exact free)]
  exact ⟨rfl, rfl, rfl⟩

theorem Ok.step (h : w.Ok) (step : Step w act w') : w'.Ok := by
  have free := h.free.step step
  cases step with
  | connect socket nodeId _ => exact ⟨h.free, h.marked, h.latest⟩
  | authenticate valid _ => exact h.authenticate _ _ valid
  | replaced _ | dropped _ | closed _ _ => exact ⟨h.free, h.marked, h.latest⟩
  | @finish socket nodeId _ =>
    obtain ⟨computers, revokes, authenticated⟩ := finish_frame h.free socket nodeId
    exact h.drop (finish_drops h.free _ _) free computers revokes authenticated
  | revoke call nodeId _ =>
    unfold NodeCore.revoke
    split
    · have ok : Ok { w with
          computers := Function.update w.computers nodeId (some ⟨true, true⟩) } := by
        refine ⟨h.free, fun call revoke hrevoke hmarked => ?_, h.latest⟩
        by_cases hnode : revoke.nodeId = nodeId
        · simp [hnode, admissible]
        · simpa [hnode] using h.marked call revoke hrevoke hmarked
      apply ok.unregister
      simp [admissible]
    · exact h
  | deleteComputer call nodeId _ =>
    unfold NodeCore.deleteComputer
    split
    · apply h.unregister
      simp
    · exact h
  | revoked phase =>
    refine ⟨h.free, fun other revoke hrevoke hmarked => ?_, h.latest⟩
    obtain ⟨before, hbefore, hnode, hmark⟩ := revoked_cases phase hrevoke
    rw [← hnode]
    exact h.marked other before hbefore (hmark.trans hmarked)
  | shutdown =>
    rw [withLock_free h.free] at free ⊢
    exact h.drop (fun _ => .inl rfl) free rfl rfl rfl
  | wake _ next =>
    rw [h.free.2] at next
    simp at next
  | write nodeId row kept =>
    refine ⟨h.free, fun call revoke hrevoke hmarked => ?_, h.latest⟩
    by_cases hnode : revoke.nodeId = nodeId
    · simpa [hnode] using kept call revoke hrevoke hmarked hnode
    · simpa [hnode] using h.marked call revoke hrevoke hmarked

theorem Gone.step (h : w.Gone such) (free : w.Free) (step : Step w act w')
    (apart : Apart such w act) : w'.Gone such := by
  cases step with
  | connect _ _ _ | replaced _ | dropped _ | closed _ _ | write _ _ _ => exact h
  | authenticate valid phase => exact h.authenticate free apart phase
  | @finish socket nodeId _ => exact h.drop (finish_drops free _ _) (finish_frame free _ _).2.1
  | revoke call nodeId _ =>
    unfold NodeCore.revoke
    split
    · apply Gone.unregister _ _
      · exact h
      · exact free
    · exact h
  | deleteComputer call nodeId _ =>
    unfold NodeCore.deleteComputer
    split
    · exact h.unregister free _ _ _
    · exact h
  | revoked phase =>
    intro other revoke hrevoke hsuch
    obtain ⟨before, hbefore, hnode, hmark⟩ := revoked_cases phase hrevoke
    have := h other before hbefore (hmark ▸ hsuch)
    rwa [hnode] at this
  | shutdown =>
    rw [withLock_free free]
    exact h.drop (fun _ => .inl rfl) rfl
  | wake _ next =>
    rw [free.2] at next
    simp at next

/-- A Node that was marked is not authenticated. -/
theorem Ok.apart (h : w.Ok) (act : Act) : Apart (· = true) w act := by
  intro socket nodeId _ _ hadmissible call revoke hrevoke hmarked heq
  have := h.marked call revoke hrevoke hmarked
  rw [heq, hadmissible] at this
  cases this

theorem popOwn_keeps {connections : String → Option Nat} {socket other : Nat}
    {nodeId node : String} (hne : other ≠ socket) (registered : connections node = some other) :
    popOwn connections nodeId socket node = some other := by
  unfold popOwn
  split
  · rename_i hown
    have hnode : node ≠ nodeId := by
      intro heq
      rw [heq, hown] at registered
      exact hne (Option.some.inj registered).symm
    simpa [hnode] using registered
  · exact registered

/-- The cleanup of a connection takes out no other. -/
theorem finish_keeps (h : w.Free) {socket other : Nat} {nodeId node : String} (hne : other ≠ socket)
    (registered : w.connections node = some other) :
    (w.finish socket nodeId).connections node = some other := by
  have hfree : (w.setSocket socket nodeId .cleaning).Free := h
  unfold NodeCore.finish
  rw [withLock_free hfree]
  exact popOwn_keeps hne registered

end NodeCore

/-- **The registry.** In every interleaving of connections, revocations, deletions and shutdowns:
    once a Node's revocation has completed no connection of it is registered, where the Node was
    marked before or where no Node connects again while it is being deleted; the connection that is
    registered is the last one of its Node that was authenticated; and a connection that cleans up
    after itself leaves every other one registered. -/
theorem registry_safe {computers : String → Option Computer} {acts : List Act} {w : NodeCore}
    (run : Run Step (.new computers) acts w) :
    (∀ call nodeId, w.revokes call = some ⟨nodeId, true, .completed⟩ →
      w.connections nodeId = none) ∧
    (Run (Guard Step Quiet) (.new computers) acts w → ∀ call nodeId marked,
      w.revokes call = some ⟨nodeId, marked, .completed⟩ → w.connections nodeId = none) ∧
    (∀ nodeId socket, w.connections nodeId = some socket →
      w.authenticated.lookup nodeId = some socket) ∧
    (∀ socket w', Step w (.finish socket) w' → ∀ nodeId other, other ≠ socket →
      w.connections nodeId = some other → w'.connections nodeId = some other) := by
  have start : ∀ such, (NodeCore.new computers).Gone such := by
    intro such call revoke hrevoke
    cases hrevoke
  obtain ⟨ok, marked⟩ : w.Ok ∧ w.Gone (· = true) := by
    apply run.invariant ?_ ⟨.new computers, start _⟩
    intro _ act _ step h
    exact ⟨h.1.step step, h.2.step h.1.free step (h.1.apart act)⟩
  refine ⟨fun call nodeId hcall => marked call _ hcall rfl, fun quiet => ?_, ok.latest,
    fun socket w' step nodeId other hne registered => ?_⟩
  · obtain ⟨-, gone⟩ : w.Ok ∧ w.Gone fun _ => True := by
      apply quiet.invariant ?_ ⟨.new computers, start _⟩
      intro _ act _ step h
      exact ⟨h.1.step step.1, h.2.step h.1.free step.1 step.2⟩
    exact fun call nodeId marked hcall => gone call _ hcall trivial
  · cases step with
    | finish phase => exact NodeCore.finish_keeps ok.free hne registered

def connected : NodeCore :=
  ((NodeCore.new fun _ => some ⟨true, false⟩).connect 0 "node").authenticate 0 "node" true

theorem connected_run : Run Step (.new fun _ => some ⟨true, false⟩)
    [.connect 0 "node", .authenticate 0 true] connected :=
  .snoc (.snoc .refl (.connect 0 "node" rfl)) (.authenticate true (by decide +kernel))

/-- Its computer is deleted, and the Node connects again before the old connection has closed. -/
def returned : NodeCore :=
  ((connected.deleteComputer 0 "node").connect 1 "node").authenticate 1 "node" true

/-- **A Node connects again while its computer is deleted.** The store still admits it, and when
    `NodeCore.revoke` has returned its new connection is registered. -/
theorem deleted_node_registered :
    ∃ acts w, Run Step (.new fun _ => some ⟨true, false⟩) acts w ∧
      w.revokes 0 = some ⟨"node", false, .completed⟩ ∧ w.connections "node" = some 1 := by
  have closing : returned.revokes 0 = some ⟨"node", false, .closing⟩ := by decide +kernel
  have run : Run Step (.new fun _ => some ⟨true, false⟩) _ returned :=
    ((connected_run.snoc (.deleteComputer 0 "node" (by decide +kernel))).snoc
      (.connect 1 "node" (by decide +kernel))).snoc (.authenticate true (by decide +kernel))
  exact ⟨_, _, run.snoc (.revoked closing), by decide +kernel, by decide +kernel⟩

/-- A Node reconnects, its second connection replaces the first, and then it is revoked. -/
def reconnected : NodeCore :=
  ((connected.connect 1 "node").authenticate 1 "node" true).setSocket 1 "node" .serving

theorem registry_safe_reconnected :
    reconnected.connections "node" = some 1 ∧ reconnected.authenticated.lookup "node" = some 1 ∧
      ((reconnected.revoke 0 "node").setRevoke 0 "node" true .completed).connections "node" =
        none ∧
      ((connected.deleteComputer 0 "node").setRevoke 0 "node" false .completed).connections
        "node" = none := by
  have run : Run Step (.new fun _ => some ⟨true, false⟩) _ reconnected :=
    ((connected_run.snoc (.connect 1 "node" (by decide +kernel))).snoc
      (.authenticate true (by decide +kernel))).snoc (.replaced (by decide +kernel))
  have closing : (reconnected.revoke 0 "node").revokes 0 = some ⟨"node", true, .closing⟩ := by
    decide +kernel
  have revoked := (run.snoc (.revoke 0 "node" (by decide +kernel))).snoc (.revoked closing)
  have hregistered : reconnected.connections "node" = some 1 := by decide +kernel
  have closing : (connected.deleteComputer 0 "node").revokes 0 =
      some ⟨"node", false, .closing⟩ := by decide +kernel
  have quiet : ∀ (w : NodeCore) act w', (∀ socket, act ≠ .authenticate socket true) →
      Quiet w act w' := fun _ _ _ h socket _ heq => absurd heq (h socket)
  have first : Quiet ((NodeCore.new fun _ => some ⟨true, false⟩).connect 0 "node")
      (.authenticate 0 true) connected := by
    intro _ _ _ _ _ call revoke hrevoke
    cases hrevoke
  -- the Node does not connect again while its computer is deleted
  have deleted : Run (Guard Step Quiet) (.new fun _ => some ⟨true, false⟩)
      [.connect 0 "node", .authenticate 0 true, .deleteComputer 0 "node", .revoked 0]
      ((connected.deleteComputer 0 "node").setRevoke 0 "node" false .completed) :=
    .snoc (.snoc (.snoc (.snoc .refl ⟨.connect 0 "node" rfl, quiet _ _ _ (by simp)⟩)
      ⟨.authenticate true (by decide +kernel), first⟩)
      ⟨.deleteComputer 0 "node" (by decide +kernel), quiet _ _ _ (by simp)⟩)
      ⟨.revoked closing, quiet _ _ _ (by simp)⟩
  exact ⟨hregistered, (registry_safe run).2.2.1 "node" 1 hregistered,
    (registry_safe revoked).1 0 "node" (by decide +kernel),
    (registry_safe deleted.ofGuard).2.1 deleted 0 "node" false (by decide +kernel)⟩

end Termroom.Node.Registry
