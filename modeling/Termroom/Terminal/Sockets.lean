import Mathlib
import Termroom.Conc.Run

/-!
# The sockets of the terminals

A handshake of `terminal_socket` looks whether there is room, waits until the socket is accepted,
and registers it then. Every socket between its registration and its cleanup is in the list of
its device once, and no list outlives its sockets (`Exact`), whatever a Workspace removal takes
away in between. **The limits do not hold**: several handshakes find the same room. They do
where a handshake is turned away that only the sockets still to be accepted leave no room for
(`sockets_counted`).
-/

set_option autoImplicit false

namespace Termroom.Terminal

open Conc

/-! ## 1. The registries -/

/-- A dictionary of lists of sockets. -/
abbrev SocketLists := AList fun _ : String => List Nat

/-- `lists.get(key, [])`. -/
def socketsOf (lists : SocketLists) (key : String) : List Nat := (lists.lookup key).getD []

/-- `lists.setdefault(key, []).append(socket)`. -/
def addSocket (lists : SocketLists) (key : String) (socket : Nat) : SocketLists :=
  lists.insert key (socketsOf lists key ++ [socket])

/-- The socket is removed from its list, and a list that is empty is taken away. -/
def dropSocket (lists : SocketLists) (key : String) (socket : Nat) : SocketLists :=
  let sockets := (socketsOf lists key).erase socket
  if sockets = [] then lists.erase key else lists.insert key sockets

/-- `sum(map(len, lists.values()))`. -/
def countSockets (lists : SocketLists) : Nat := (lists.entries.map fun e => e.2.length).sum

section registries

variable {lists : SocketLists} {key other : String} {socket : Nat} {sockets : List Nat}

theorem countSockets_erase :
    countSockets lists = (socketsOf lists key).length + countSockets (lists.erase key) := by
  show (lists.entries.map fun e => e.2.length).sum = ((lists.entries.dlookup key).getD []).length +
    ((lists.entries.kerase key).map fun e => e.2.length).sum
  induction lists.entries with
  | nil => rfl
  | cons e rest ih =>
    by_cases h : key = e.1
    · obtain ⟨k, l⟩ := e
      obtain rfl : key = k := h
      have rest' : List.kerase key (⟨key, l⟩ :: rest) = rest := List.kerase_cons_eq rfl
      rw [List.dlookup_cons_eq, rest']
      rfl
    · rw [List.dlookup_cons_ne _ _ h, List.kerase_cons_ne h, List.map_cons, List.sum_cons, ih,
        List.map_cons, List.sum_cons]
      omega

theorem countSockets_insert :
    countSockets (lists.insert key sockets) = sockets.length + countSockets (lists.erase key) := by
  unfold countSockets
  rw [AList.entries_insert]
  rfl

theorem socketsOf_insert : socketsOf (lists.insert key sockets) key = sockets := by
  unfold socketsOf
  rw [AList.lookup_insert]
  rfl

theorem socketsOf_insert_ne (h : other ≠ key) :
    socketsOf (lists.insert key sockets) other = socketsOf lists other := by
  unfold socketsOf
  rw [AList.lookup_insert_ne h]

theorem socketsOf_erase : socketsOf (lists.erase key) key = [] := by
  unfold socketsOf
  rw [AList.lookup_erase]
  rfl

theorem socketsOf_erase_ne (h : other ≠ key) :
    socketsOf (lists.erase key) other = socketsOf lists other := by
  unfold socketsOf
  rw [AList.lookup_erase_ne h]

/-- No list in the dictionary is empty. -/
def NoEmpty (lists : SocketLists) : Prop := ∀ key, lists.lookup key ≠ some []

theorem socketsOf_add : socketsOf (addSocket lists key socket) key =
    socketsOf lists key ++ [socket] := socketsOf_insert

theorem socketsOf_add_ne (h : other ≠ key) :
    socketsOf (addSocket lists key socket) other = socketsOf lists other := socketsOf_insert_ne h

theorem countSockets_add :
    countSockets (addSocket lists key socket) = countSockets lists + 1 := by
  unfold addSocket
  rw [countSockets_insert, @countSockets_erase lists key, List.length_append,
    List.length_singleton]
  omega

theorem NoEmpty.add (h : NoEmpty lists) : NoEmpty (addSocket lists key socket) := by
  intro other
  unfold addSocket
  by_cases hkey : other = key
  · subst hkey
    rw [AList.lookup_insert]
    simp
  · rw [AList.lookup_insert_ne hkey]
    exact h other

theorem socketsOf_drop :
    socketsOf (dropSocket lists key socket) key = (socketsOf lists key).erase socket := by
  unfold dropSocket
  dsimp only
  split
  · rename_i hnil
    rw [hnil, socketsOf_erase]
  · exact socketsOf_insert

theorem socketsOf_drop_ne (h : other ≠ key) :
    socketsOf (dropSocket lists key socket) other = socketsOf lists other := by
  unfold dropSocket
  dsimp only
  split
  · exact socketsOf_erase_ne h
  · exact socketsOf_insert_ne h

theorem countSockets_drop : countSockets (dropSocket lists key socket) ≤ countSockets lists := by
  have shorter := (@List.erase_sublist _ _ socket (socketsOf lists key)).length_le
  rw [@countSockets_erase lists key]
  unfold dropSocket
  dsimp only
  split
  · exact Nat.le_add_left _ _
  · rw [countSockets_insert]
    omega

theorem NoEmpty.erase (h : NoEmpty lists) : NoEmpty (lists.erase key) := by
  intro other
  by_cases hkey : other = key
  · rw [hkey, AList.lookup_erase]
    simp
  · rw [AList.lookup_erase_ne hkey]
    exact h other

theorem NoEmpty.drop (h : NoEmpty lists) : NoEmpty (dropSocket lists key socket) := by
  unfold dropSocket
  dsimp only
  split
  · exact h.erase
  · rename_i hne
    intro other
    by_cases hkey : other = key
    · rw [hkey, AList.lookup_insert]
      exact fun h => hne (Option.some.inj h)
    · rw [AList.lookup_insert_ne hkey]
      exact h other

theorem mem_add {k : Nat} : k ∈ socketsOf (addSocket lists key socket) other ↔
    k ∈ socketsOf lists other ∨ k = socket ∧ other = key := by
  by_cases h : other = key
  · rw [h, socketsOf_add]
    simp
  · rw [socketsOf_add_ne h]
    simp [h]

theorem nodup_add (h : ∀ key, (socketsOf lists key).Nodup) (fresh : socket ∉ socketsOf lists key) :
    (socketsOf (addSocket lists key socket) other).Nodup := by
  by_cases hkey : other = key
  · rw [hkey, socketsOf_add, ← List.concat_eq_append]
    exact (h key).concat fresh
  · rw [socketsOf_add_ne hkey]
    exact h other

/-- A socket that is in no other list is in none. -/
theorem mem_drop {k : Nat} (h : ∀ key, (socketsOf lists key).Nodup)
    (elsewhere : ∀ other, other ≠ key → socket ∉ socketsOf lists other) :
    k ∈ socketsOf (dropSocket lists key socket) other ↔
      k ≠ socket ∧ k ∈ socketsOf lists other := by
  by_cases hkey : other = key
  · rw [hkey, socketsOf_drop, (h key).mem_erase_iff]
  · rw [socketsOf_drop_ne hkey]
    constructor
    · intro hk
      refine ⟨?_, hk⟩
      rintro rfl
      exact elsewhere other hkey hk
    · exact And.right

theorem nodup_drop (h : ∀ key, (socketsOf lists key).Nodup) :
    (socketsOf (dropSocket lists key socket) other).Nodup := by
  by_cases hkey : other = key
  · rw [hkey, socketsOf_drop]
    exact (h key).erase _
  · rw [socketsOf_drop_ne hkey]
    exact h other

end registries

/-! ## 2. Handlers -/

inductive SocketPhase where
  /-- It waits for `accept`. -/
  | accepting
  /-- It is registered, and waits for the bridge or the session to end. -/
  | bridged
  /-- One of them has ended, and it waits for the rest. -/
  | closing
  | cleaned
  /-- `accept` raised. -/
  | lost
  deriving DecidableEq, Repr

/-- A handler of `terminal_socket` that passed its checks; its number stands for its socket. -/
structure SocketHandler where
  deviceId : String
  terminalId : String
  phase : SocketPhase
  deriving DecidableEq, Repr

structure Sockets where
  activeWebsockets : SocketLists
  activeTerminalWebsockets : SocketLists
  handlers : List SocketHandler

/-- What happens between two awaits. -/
inductive SocketEvent where
  /-- The checks; whether the terminal and its Workspace are found is left open. -/
  | handshake (deviceId terminalId : String) (found : Bool)
  | accepted (socket : Nat)
  | notAccepted (socket : Nat)
  | bridgeEnded (socket : Nat)
  | sessionExpired (socket : Nat)
  | cleanup (socket : Nat)
  /-- One turn of the loop of `remove_workspace_registration`. -/
  | terminalRemoved (terminalId : String)
  deriving DecidableEq, Repr

namespace Sockets

def init : Sockets := ⟨∅, ∅, []⟩

/-- `len(device_sockets) >= 8 or sum(map(len, active_websockets.values())) >= 64`. -/
def Full (s : Sockets) (deviceId : String) : Prop :=
  8 ≤ (socketsOf s.activeWebsockets deviceId).length ∨ 64 ≤ countSockets s.activeWebsockets

instance (s : Sockets) (deviceId : String) : Decidable (s.Full deviceId) :=
  inferInstanceAs (Decidable (_ ∨ _))

/-- The handler of this socket, if it is in this phase. -/
def handlerIn (s : Sockets) (socket : Nat) (phase : SocketPhase) : Option SocketHandler :=
  s.handlers[socket]?.filter fun handler => handler.phase = phase

def setPhase (s : Sockets) (socket : Nat) (handler : SocketHandler) (phase : SocketPhase) :
    Sockets :=
  { s with handlers := s.handlers.set socket { handler with phase } }

/-- Both registries get the socket. -/
def register (s : Sockets) (socket : Nat) (handler : SocketHandler) : Sockets :=
  { s with
    activeWebsockets := addSocket s.activeWebsockets handler.deviceId socket
    activeTerminalWebsockets := addSocket s.activeTerminalWebsockets handler.terminalId socket }

/-- The end of the `finally`. -/
def unregister (s : Sockets) (socket : Nat) (handler : SocketHandler) : Sockets :=
  { s with
    activeWebsockets := dropSocket s.activeWebsockets handler.deviceId socket
    activeTerminalWebsockets := dropSocket s.activeTerminalWebsockets handler.terminalId socket }

def step (s : Sockets) : SocketEvent → Option Sockets
  | .handshake deviceId terminalId found =>
    if s.Full deviceId ∨ found = false then some s
    else some { s with handlers := s.handlers ++ [⟨deviceId, terminalId, .accepting⟩] }
  | .accepted socket => (s.handlerIn socket .accepting).map fun handler =>
    (s.register socket handler).setPhase socket handler .bridged
  | .notAccepted socket => (s.handlerIn socket .accepting).map fun handler =>
    s.setPhase socket handler .lost
  | .bridgeEnded socket => (s.handlerIn socket .bridged).map fun handler =>
    s.setPhase socket handler .closing
  | .sessionExpired socket => (s.handlerIn socket .bridged).map fun handler =>
    s.setPhase socket handler .closing
  | .cleanup socket => (s.handlerIn socket .closing).map fun handler =>
    (s.unregister socket handler).setPhase socket handler .cleaned
  | .terminalRemoved terminalId =>
    some { s with activeTerminalWebsockets := s.activeTerminalWebsockets.erase terminalId }

abbrev Step (s : Sockets) (e : SocketEvent) (t : Sockets) : Prop := s.step e = some t

end Sockets

/-! ## 3. Where a socket is filed -/

/-- Between its registration and its cleanup. -/
def SocketPhase.Registered : SocketPhase → Prop
  | .bridged | .closing => True
  | _ => False

section filed

variable {s t : Sockets} {e : SocketEvent} {k j : Nat} {handler : SocketHandler}
variable {phase : SocketPhase} {deviceId terminalId key : String}

theorem handlerIn_eq_some : s.handlerIn k phase = some handler ↔
    s.handlers[k]? = some handler ∧ handler.phase = phase := by
  unfold Sockets.handlerIn
  rw [Option.filter_eq_some_iff, decide_eq_true_eq]

theorem setPhase_handlers (hh : s.handlers[k]? = some handler) :
    (s.setPhase k handler phase).handlers[j]? =
      if j = k then some { handler with phase } else s.handlers[j]? := by
  obtain ⟨hk, -⟩ := List.getElem?_eq_some_iff.mp hh
  unfold Sockets.setPhase
  dsimp only
  rw [List.getElem?_set]
  by_cases h : j = k
  · rw [if_pos h.symm, if_pos h, if_pos hk]
  · rw [if_neg (Ne.symm h), if_neg h]

/-- The registries hold the sockets that are registered: the one of the devices each of them
    once, under its device, the one of the terminals none elsewhere. -/
structure Filed (s : Sockets) : Prop where
  unique : ∀ key, (socketsOf s.activeWebsockets key).Nodup
  mem : ∀ key k, k ∈ socketsOf s.activeWebsockets key ↔
    ∃ handler, s.handlers[k]? = some handler ∧ handler.phase.Registered ∧ handler.deviceId = key
  uniqueTerminal : ∀ key, (socketsOf s.activeTerminalWebsockets key).Nodup
  memTerminal : ∀ key k, k ∈ socketsOf s.activeTerminalWebsockets key →
    ∃ handler, s.handlers[k]? = some handler ∧ handler.phase.Registered ∧
      handler.terminalId = key
  noEmpty : NoEmpty s.activeWebsockets
  noEmptyTerminal : NoEmpty s.activeTerminalWebsockets

theorem filed_init : Filed Sockets.init := by
  have nothing : ∀ key, socketsOf (∅ : SocketLists) key = [] := fun key => rfl
  refine ⟨fun key => .nil, fun key k => ?_, fun key => .nil, fun key k hk => ?_, ?_, ?_⟩
  · simp [Sockets.init, nothing]
  · rw [Sockets.init, nothing] at hk
    cases hk
  · intro key h
    cases h
  · intro key h
    cases h

/-- A new handler is not registered yet. -/
theorem Filed.append (h : Filed s) :
    Filed { s with handlers := s.handlers ++ [⟨deviceId, terminalId, .accepting⟩] } where
  unique := h.unique
  uniqueTerminal := h.uniqueTerminal
  noEmpty := h.noEmpty
  noEmptyTerminal := h.noEmptyTerminal
  mem := by
    intro key k
    rw [h.mem]
    constructor
    · rintro ⟨handler, hh, rest⟩
      refine ⟨handler, ?_, rest⟩
      exact List.getElem?_append_left (List.getElem?_eq_some_iff.mp hh).1 ▸ hh
    · rintro ⟨handler, hh, registered, hkey⟩
      rw [List.getElem?_append] at hh
      split at hh
      · exact ⟨handler, hh, registered, hkey⟩
      · rw [List.mem_singleton.mp (List.mem_of_getElem? hh)] at registered
        exact registered.elim
  memTerminal := by
    intro key k hk
    obtain ⟨handler, hh, rest⟩ := h.memTerminal key k hk
    refine ⟨handler, ?_, rest⟩
    exact List.getElem?_append_left (List.getElem?_eq_some_iff.mp hh).1 ▸ hh

/-- A step within the registration, or without. -/
theorem Filed.setPhase (h : Filed s) (hh : s.handlers[k]? = some handler)
    (same : phase.Registered ↔ handler.phase.Registered) :
    Filed (s.setPhase k handler phase) where
  unique := h.unique
  uniqueTerminal := h.uniqueTerminal
  noEmpty := h.noEmpty
  noEmptyTerminal := h.noEmptyTerminal
  mem := by
    intro key j
    rw [setPhase_handlers hh]
    show j ∈ socketsOf s.activeWebsockets key ↔ _
    rw [h.mem]
    by_cases hj : j = k
    · subst hj
      simp [hh, same]
    · simp [hj]
  memTerminal := by
    intro key j hj
    obtain ⟨other, hother, registered, hkey⟩ := h.memTerminal key j hj
    rw [setPhase_handlers hh]
    by_cases hj : j = k
    · subst hj
      rw [hh] at hother
      obtain rfl := Option.some.inj hother
      exact ⟨_, if_pos rfl, same.mpr registered, hkey⟩
    · exact ⟨other, (if_neg hj).trans hother, registered, hkey⟩

/-- A socket that is not registered is in no list. -/
theorem Filed.absent (h : Filed s) (hh : s.handlers[k]? = some handler)
    (hp : ¬handler.phase.Registered) (key : String) :
    k ∉ socketsOf s.activeWebsockets key ∧ k ∉ socketsOf s.activeTerminalWebsockets key := by
  constructor
  · intro hk
    obtain ⟨other, hother, registered, -⟩ := (h.mem key k).mp hk
    rw [hh] at hother
    obtain rfl := Option.some.inj hother
    exact hp registered
  · intro hk
    obtain ⟨other, hother, registered, -⟩ := h.memTerminal key k hk
    rw [hh] at hother
    obtain rfl := Option.some.inj hother
    exact hp registered

theorem Filed.register (h : Filed s) (hh : s.handlers[k]? = some handler)
    (hp : handler.phase = .accepting) :
    Filed ((s.register k handler).setPhase k handler .bridged) := by
  have absent := h.absent hh (by rw [hp]; exact id)
  have phases : ∀ j, ((s.register k handler).setPhase k handler .bridged).handlers[j]? =
      if j = k then some { handler with phase := .bridged } else s.handlers[j]? :=
    fun j => setPhase_handlers hh
  refine ⟨?_, ?_, ?_, ?_, h.noEmpty.add, h.noEmptyTerminal.add⟩
  · intro key
    exact nodup_add h.unique (absent _).1
  · intro key j
    rw [phases]
    apply mem_add.trans
    by_cases hj : j = k
    · subst hj
      simp [(absent key).1, SocketPhase.Registered, eq_comm]
    · rw [if_neg hj, ← h.mem]
      simp [hj]
  · intro key
    exact nodup_add h.uniqueTerminal (absent _).2
  · intro key j hj
    rw [phases]
    rcases mem_add.mp hj with hold | ⟨rfl, rfl⟩
    · have hne : j ≠ k := by
        rintro rfl
        exact (absent key).2 hold
      rw [if_neg hne]
      exact h.memTerminal key j hold
    · exact ⟨_, if_pos rfl, trivial, rfl⟩

theorem Filed.unregister (h : Filed s) (hh : s.handlers[k]? = some handler) :
    Filed ((s.unregister k handler).setPhase k handler .cleaned) := by
  have phases : ∀ j, ((s.unregister k handler).setPhase k handler .cleaned).handlers[j]? =
      if j = k then some { handler with phase := .cleaned } else s.handlers[j]? :=
    fun j => setPhase_handlers hh
  -- the socket is in no other list
  have elsewhere : ∀ key, key ≠ handler.deviceId → k ∉ socketsOf s.activeWebsockets key := by
    intro key hkey hk
    obtain ⟨other, hother, -, rfl⟩ := (h.mem key k).mp hk
    rw [hh] at hother
    exact hkey (congrArg _ (Option.some.inj hother)).symm
  have elsewhereTerminal : ∀ key, key ≠ handler.terminalId →
      k ∉ socketsOf s.activeTerminalWebsockets key := by
    intro key hkey hk
    obtain ⟨other, hother, -, rfl⟩ := h.memTerminal key k hk
    rw [hh] at hother
    exact hkey (congrArg _ (Option.some.inj hother)).symm
  refine ⟨fun _ => nodup_drop h.unique, ?_, fun _ => nodup_drop h.uniqueTerminal, ?_,
    h.noEmpty.drop, h.noEmptyTerminal.drop⟩
  · intro key j
    rw [phases]
    apply (mem_drop h.unique elsewhere).trans
    by_cases hj : j = k
    · simp [hj, SocketPhase.Registered]
    · rw [if_neg hj, ← h.mem]
      simp [hj]
  · intro key j hj
    obtain ⟨hne, hold⟩ := (mem_drop h.uniqueTerminal elsewhereTerminal).mp hj
    rw [phases, if_neg hne]
    exact h.memTerminal key j hold

theorem Filed.removed (h : Filed s) : Filed { s with
    activeTerminalWebsockets := s.activeTerminalWebsockets.erase terminalId } where
  unique := h.unique
  mem := h.mem
  noEmpty := h.noEmpty
  noEmptyTerminal := h.noEmptyTerminal.erase
  uniqueTerminal := by
    intro key
    by_cases hkey : key = terminalId
    · rw [hkey, socketsOf_erase]
      exact .nil
    · rw [socketsOf_erase_ne hkey]
      exact h.uniqueTerminal key
  memTerminal := by
    intro key k hk
    by_cases hkey : key = terminalId
    · rw [hkey, socketsOf_erase] at hk
      cases hk
    · rw [socketsOf_erase_ne hkey] at hk
      exact h.memTerminal key k hk

/-- **A step keeps the registries in order**, whichever handler takes it. -/
theorem Filed.step (h : Filed s) (step : s.step e = some t) : Filed t := by
  cases e with
  | handshake deviceId terminalId found =>
    dsimp only [Sockets.step] at step
    split at step
    · obtain rfl := Option.some.inj step
      exact h
    · obtain rfl := Option.some.inj step
      exact h.append
  | accepted k =>
    obtain ⟨handler, hin, rfl⟩ := Option.map_eq_some_iff.mp step
    obtain ⟨hh, hp⟩ := handlerIn_eq_some.mp hin
    exact h.register hh hp
  | notAccepted k =>
    obtain ⟨handler, hin, rfl⟩ := Option.map_eq_some_iff.mp step
    obtain ⟨hh, hp⟩ := handlerIn_eq_some.mp hin
    exact h.setPhase hh (by rw [hp]; exact Iff.rfl)
  | bridgeEnded k | sessionExpired k =>
    obtain ⟨handler, hin, rfl⟩ := Option.map_eq_some_iff.mp step
    obtain ⟨hh, hp⟩ := handlerIn_eq_some.mp hin
    exact h.setPhase hh (by rw [hp]; exact Iff.rfl)
  | cleanup k =>
    obtain ⟨handler, hin, rfl⟩ := Option.map_eq_some_iff.mp step
    exact h.unregister (handlerIn_eq_some.mp hin).1
  | terminalRemoved terminalId =>
    obtain rfl := Option.some.inj step
    exact h.removed

end filed

/-! ## 4. The limits -/

section limits

variable {s t : Sockets} {e : SocketEvent} {k : Nat} {handler : SocketHandler}
variable {phase : SocketPhase} {deviceId terminalId : String}

namespace Sockets

/-- The handlers of the device that passed their checks and wait to be accepted. -/
def coming (s : Sockets) (deviceId : String) : Nat :=
  s.handlers.countP fun h => h.phase = .accepting && h.deviceId = deviceId

def comingAll (s : Sockets) : Nat := s.handlers.countP fun h => h.phase = .accepting

/-- A handshake that passes its checks would pass them with the sockets that wait to be
    accepted counted as well. -/
def Reserved (s : Sockets) (e : SocketEvent) (_ : Sockets) : Prop :=
  match e with
  | .handshake deviceId _ true => ¬s.Full deviceId →
    s.coming deviceId + (socketsOf s.activeWebsockets deviceId).length < 8 ∧
      s.comingAll + countSockets s.activeWebsockets < 64
  | _ => True

end Sockets

/-- One element of a list replaced, and what is counted of it. -/
theorem countP_set {α : Type} {l : List α} {a b : α} {p : α → Bool} (h : l[k]? = some a) :
    (l.set k b).countP p + (if p a then 1 else 0) = l.countP p + if p b then 1 else 0 := by
  induction l generalizing k with
  | nil => cases h
  | cons c rest ih =>
    cases k with
    | zero =>
      obtain rfl := Option.some.inj h
      rw [List.set_cons_zero, List.countP_cons, List.countP_cons]
      omega
    | succ k =>
      rw [List.set_cons_succ, List.countP_cons, List.countP_cons]
      have := @ih k h
      omega

/-- The room that the sockets take up, those to come included. -/
structure Held (s : Sockets) : Prop where
  device : ∀ deviceId,
    s.coming deviceId + (socketsOf s.activeWebsockets deviceId).length ≤ 8
  all : s.comingAll + countSockets s.activeWebsockets ≤ 64

/-- A handler that leaves `accept` or never was there. -/
theorem coming_setPhase (hh : s.handlers[k]? = some handler) (hp : phase ≠ .accepting) :
    (s.setPhase k handler phase).coming deviceId +
        (if handler.phase = .accepting ∧ handler.deviceId = deviceId then 1 else 0) =
      s.coming deviceId ∧
    (s.setPhase k handler phase).comingAll + (if handler.phase = .accepting then 1 else 0) =
      s.comingAll := by
  unfold Sockets.coming Sockets.comingAll Sockets.setPhase
  constructor
  · have := @countP_set k _ s.handlers handler { handler with phase }
      (fun h => h.phase = .accepting && h.deviceId = deviceId) hh
    simpa [hp] using this
  · have := @countP_set k _ s.handlers handler { handler with phase }
      (fun h => h.phase = .accepting) hh
    simpa [hp] using this

/-- Where no list grows, the room is kept. -/
theorem Held.leave (h : Held s) (hh : s.handlers[k]? = some handler) (hp : phase ≠ .accepting) :
    Held (s.setPhase k handler phase) := by
  refine ⟨fun deviceId => ?_, ?_⟩
  · have fewer := (@coming_setPhase s k handler phase deviceId hh hp).1
    have := h.device deviceId
    show _ + (socketsOf s.activeWebsockets deviceId).length ≤ 8
    omega
  · have fewer := (@coming_setPhase s k handler phase "" hh hp).2
    have := h.all
    show _ + countSockets s.activeWebsockets ≤ 64
    omega

theorem Held.register (h : Held s) (hh : s.handlers[k]? = some handler)
    (hp : handler.phase = .accepting) :
    Held ((s.register k handler).setPhase k handler .bridged) := by
  refine ⟨fun deviceId => ?_, ?_⟩
  · have fewer := (@coming_setPhase (s.register k handler) k handler .bridged deviceId hh nofun).1
    have before := h.device deviceId
    change _ = s.coming deviceId at fewer
    show _ + (socketsOf (addSocket s.activeWebsockets handler.deviceId k) deviceId).length ≤ 8
    by_cases hkey : deviceId = handler.deviceId
    · subst hkey
      rw [if_pos ⟨hp, rfl⟩] at fewer
      rw [socketsOf_add, List.length_append, List.length_singleton]
      omega
    · rw [socketsOf_add_ne hkey]
      omega
  · have fewer := (@coming_setPhase (s.register k handler) k handler .bridged "" hh nofun).2
    have before := h.all
    change _ = s.comingAll at fewer
    rw [if_pos hp] at fewer
    show _ + countSockets (addSocket s.activeWebsockets handler.deviceId k) ≤ 64
    rw [countSockets_add]
    omega

theorem Held.unregister (h : Held s) (hh : s.handlers[k]? = some handler) :
    Held ((s.unregister k handler).setPhase k handler .cleaned) := by
  refine ⟨fun deviceId => ?_, ?_⟩
  · have fewer := (@coming_setPhase (s.unregister k handler) k handler .cleaned deviceId hh nofun).1
    have before := h.device deviceId
    change _ = s.coming deviceId at fewer
    show _ + (socketsOf (dropSocket s.activeWebsockets handler.deviceId k) deviceId).length ≤ 8
    by_cases hkey : deviceId = handler.deviceId
    · subst hkey
      have shorter :=
        (@List.erase_sublist _ _ k (socketsOf s.activeWebsockets handler.deviceId)).length_le
      rw [socketsOf_drop]
      omega
    · rw [socketsOf_drop_ne hkey]
      omega
  · have fewer := (@coming_setPhase (s.unregister k handler) k handler .cleaned "" hh nofun).2
    have before := h.all
    change _ = s.comingAll at fewer
    have shorter := @countSockets_drop s.activeWebsockets handler.deviceId k
    show _ + countSockets (dropSocket s.activeWebsockets handler.deviceId k) ≤ 64
    omega

theorem Held.append (h : Held s)
    (room : s.coming deviceId + (socketsOf s.activeWebsockets deviceId).length < 8 ∧
      s.comingAll + countSockets s.activeWebsockets < 64) :
    Held { s with handlers := s.handlers ++ [⟨deviceId, terminalId, .accepting⟩] } := by
  refine ⟨fun other => ?_, ?_⟩
  · have before := h.device other
    unfold Sockets.coming at before room ⊢
    dsimp only
    rw [List.countP_append, List.countP_singleton]
    by_cases hkey : deviceId = other
    · subst hkey
      simp only [decide_true, Bool.and_self, if_true]
      omega
    · simp only [hkey, decide_false, Bool.and_false, Bool.false_eq_true, if_false]
      omega
  · unfold Sockets.comingAll at room ⊢
    dsimp only
    rw [List.countP_append, List.countP_singleton]
    simp only [decide_true, if_true]
    omega

theorem Held.step (h : Held s) (step : s.step e = some t) (reserved : s.Reserved e t) :
    Held t := by
  cases e with
  | handshake deviceId terminalId found =>
    dsimp only [Sockets.step] at step
    split at step
    · obtain rfl := Option.some.inj step
      exact h
    · rename_i passes
      obtain rfl := Option.some.inj step
      obtain ⟨room, hfound⟩ := not_or.mp passes
      rw [Bool.not_eq_false] at hfound
      subst hfound
      exact h.append (reserved room)
  | accepted k =>
    obtain ⟨handler, hin, rfl⟩ := Option.map_eq_some_iff.mp step
    obtain ⟨hh, hp⟩ := handlerIn_eq_some.mp hin
    exact h.register hh hp
  | notAccepted k | bridgeEnded k | sessionExpired k =>
    obtain ⟨handler, hin, rfl⟩ := Option.map_eq_some_iff.mp step
    exact h.leave (handlerIn_eq_some.mp hin).1 nofun
  | cleanup k =>
    obtain ⟨handler, hin, rfl⟩ := Option.map_eq_some_iff.mp step
    exact h.unregister (handlerIn_eq_some.mp hin).1
  | terminalRemoved terminalId =>
    obtain rfl := Option.some.inj step
    exact ⟨h.device, h.all⟩

theorem held_init : Held Sockets.init := by
  have nothing : ∀ key, socketsOf (∅ : SocketLists) key = [] := fun key => rfl
  refine ⟨fun deviceId => ?_, ?_⟩
  · simp [Sockets.init, Sockets.coming, nothing]
  · simp [Sockets.init, Sockets.comingAll, countSockets]

/-! ## 5. The sockets are counted -/

/-- **Where the sockets are**: each between its registration and its cleanup is in the list of
    its device once and in no other device's, every other one is nowhere, and no list is
    empty. -/
structure Exact (s : Sockets) : Prop where
  once : ∀ k handler, s.handlers[k]? = some handler → handler.phase.Registered →
    (socketsOf s.activeWebsockets handler.deviceId).count k = 1 ∧
      ∀ deviceId, deviceId ≠ handler.deviceId → k ∉ socketsOf s.activeWebsockets deviceId
  nowhere : ∀ k handler, s.handlers[k]? = some handler → ¬handler.phase.Registered →
    ∀ key, k ∉ socketsOf s.activeWebsockets key ∧ k ∉ socketsOf s.activeTerminalWebsockets key
  noEmpty : NoEmpty s.activeWebsockets ∧ NoEmpty s.activeTerminalWebsockets

/-- At most 8 sockets of one device, and 64 in all. -/
def Limited (s : Sockets) : Prop :=
  (∀ deviceId, (socketsOf s.activeWebsockets deviceId).length ≤ 8) ∧
    countSockets s.activeWebsockets ≤ 64

theorem Filed.exact (h : Filed s) : Exact s where
  once := by
    intro k handler hh registered
    constructor
    · apply List.count_eq_one_of_mem (h.unique _)
      exact (h.mem _ k).mpr ⟨handler, hh, registered, rfl⟩
    · intro deviceId hne hk
      obtain ⟨other, hother, -, rfl⟩ := (h.mem deviceId k).mp hk
      rw [hh] at hother
      exact hne (congrArg _ (Option.some.inj hother)).symm
  nowhere := fun k handler hh hp key => h.absent hh hp key
  noEmpty := ⟨h.noEmpty, h.noEmptyTerminal⟩

theorem Held.limited (h : Held s) : Limited s :=
  ⟨fun deviceId => Nat.le_trans (Nat.le_add_left _ _) (h.device deviceId),
    Nat.le_trans (Nat.le_add_left _ _) h.all⟩

/-- **The sockets are counted exactly** in every run, and they keep to the limits in every run
    in which no handshake passes its checks that would not pass them with the sockets still to
    be accepted counted as well. -/
theorem sockets_counted (es : List SocketEvent) (s : Sockets) :
    (Run Sockets.Step .init es s → Exact s) ∧
      (Run (Guard Sockets.Step Sockets.Reserved) .init es s → Limited s) := by
  constructor
  · intro run
    exact (run.invariant (fun _ _ _ step h => Filed.step h step) filed_init).exact
  · intro run
    have keep : ∀ s e t, Guard Sockets.Step Sockets.Reserved s e t → Held s → Held t :=
      fun s e t step h => h.step step.1 step.2
    exact (run.invariant keep held_init).limited

/-- Nine handshakes of one device find room before the first of them is accepted. -/
theorem sockets_exceed :
    ∃ es s, Run Sockets.Step .init es s ∧
      (socketsOf s.activeWebsockets "phone").length = 9 := by
  let es := List.replicate 9 (SocketEvent.handshake "phone" "main" true) ++
    (List.range 9).map SocketEvent.accepted
  have ran : (exec Sockets.step .init es).map
      (fun s => (socketsOf s.activeWebsockets "phone").length) = some 9 := by
    decide +kernel
  obtain ⟨s, hs, hlength⟩ := Option.map_eq_some_iff.mp ran
  exact ⟨es, s, Run.ofExec hs, hlength⟩

end limits

end Termroom.Terminal
