import Termroom.Conc.Run
import Mathlib.Algebra.Order.Ring.Rat
import Mathlib.Data.List.Nodup
import Mathlib.Logic.Function.Basic

/-!
# The pool of SSH connections

`SSHBackend` (`ssh_backend.py`) keeps the clients that nobody uses, at most two for each key, and
`_connect` hands one of them out again. A client that is in use is borrowed: `_SSHClientLease`
gives it back when it is closed. The pool is guarded by a lock; a client is opened, recorded and
closed outside it.

What a caller borrowed cannot be taken from it, so `close_connections` reaches such a client by the
generation in its key: the generation of the computer goes up, and a lease whose key has an older
one closes its client instead of giving it back. The generation of a computer that was never closed
by itself is not written down (`get(computer_id, 0)`), and to close all computers raises those that
are.

`pool_safe` is the pool in every order of these calls as long as that makes no difference, and
`unlisted_generation` is the order in which it does.
-/

set_option autoImplicit false

namespace Termroom.Ssh

open Conc

/-! ## 1. The source -/

def sshReuseIdleSeconds : Rat := 30

def sshReuseMaxIdlePerTarget : Nat := 2

/-- `_connection_cache_key`. `target` stands for what it reads of the computer besides its id: the
    login, the identities with their times and sizes, the host key and the proxy command. -/
structure Key (ρ : Type) where
  computerId : String
  generation : Nat
  target : ρ
  deriving DecidableEq, Repr

/-- Where a call of `_connect` is, and then the lease that it returned. -/
inductive Phase where
  /-- has its key and waits for the lock -/
  | keyed
  /-- found no idle client: `_connect_fresh` -/
  | opening
  /-- has a client: the connection is recorded -/
  | holding (client : Nat)
  /-- the lease is open -/
  | leased (client : Nat) (reusable : Bool)
  /-- the lease is closed, and `_release_connection` waits for the lock -/
  | releasing (client : Nat)
  | over
  deriving DecidableEq, Repr

/-- The client that the call, or its lease, has. -/
def Phase.client : Phase → Option Nat
  | .holding client | .leased client _ | .releasing client => some client
  | .keyed | .opening | .over => none

structure Call (ρ : Type) where
  key : Key ρ
  phase : Phase
  /-- A closing that covers the computer came since the call began. -/
  revoked : Bool
  /-- The clients that such a closing had revoked when the call began. -/
  before : Nat → Bool

structure Pool (ρ : Type) where
  /-- The idle clients with the times since when they are, the last one first. -/
  idle : Key ρ → List (Nat × Rat)
  generation : String → Option Nat
  closed : Bool
  calls : Nat → Option (Call ρ)
  /-- The computer to which each client was opened. -/
  opened : Nat → Option String
  /-- The clients whose connect began before a closing that covers their computer. -/
  revoked : Nat → Bool

/-- Whether `close_connections(computer_id)` is about the computer. -/
def covers : Option String → String → Bool
  | none, _ => true
  | some computerId, other => other == computerId

/-- `while entries: candidate, _ = entries.pop()`, with what is left of the entries. -/
def popActive (active : Nat → Bool) : List (Nat × Rat) → Option Nat × List (Nat × Rat)
  | [] => (none, [])
  | (candidate, _) :: entries =>
      if active candidate then (some candidate, entries) else popActive active entries

variable {ρ : Type}

/-- `_prune_idle_connections_locked(now, computer_id=…, keep_key=…)` -/
def prune [DecidableEq ρ] (idle : Key ρ → List (Nat × Rat)) (now : Rat) (active : Nat → Bool)
    (computerId : String) (keepKey : Key ρ) (key : Key ρ) : List (Nat × Rat) :=
  if key.computerId ≠ computerId then idle key
  else (idle key).filter fun (client, idleSince) =>
    !(key ≠ keepKey || now - idleSince > sshReuseIdleSeconds || !active client)

namespace Pool

def new : Pool ρ :=
  ⟨fun _ => [], fun _ => none, false, fun _ => none, fun _ => none, fun _ => false⟩

/-- `self._ssh_pool_generation.get(computer_id, 0)` -/
def currentGeneration (w : Pool ρ) (computerId : String) : Nat :=
  (w.generation computerId).getD 0

def setPhase (w : Pool ρ) (j : Nat) (call : Call ρ) (phase : Phase) : Pool ρ :=
  { w with calls := Function.update w.calls j (some { call with phase }) }

/-- `_connect` up to its key, which is the first that it reads of the pool. -/
def connect (w : Pool ρ) (j : Nat) (computerId : String) (target : ρ) : Pool ρ :=
  w.setPhase j ⟨⟨computerId, w.currentGeneration computerId, target⟩, .keyed, false, w.revoked⟩
    .keyed

/-- The locked section of `_connect`. A client is asked twice whether it is active. -/
def take [DecidableEq ρ] (w : Pool ρ) (j : Nat) (call : Call ρ) (now : Rat)
    (pruning popping : Nat → Bool) : Pool ρ :=
  if w.closed then w.setPhase j call .over
  else
    let idle := prune w.idle now pruning call.key.computerId call.key
    let (reused, entries) := popActive popping (idle call.key)
    { w with idle := Function.update idle call.key entries }.setPhase j call
      (match reused with
        | some client => .holding client
        | none => .opening)

/-- `_connect_fresh` returns a client. -/
def fresh (w : Pool ρ) (j : Nat) (call : Call ρ) (client : Nat) : Pool ρ :=
  { w with
    opened := Function.update w.opened client (some call.key.computerId)
    revoked := Function.update w.revoked client call.revoked }.setPhase j call (.holding client)

/-- `_SSHClientLease.invalidate`; a lease that is closed does not read the flag again. -/
def invalidate (w : Pool ρ) (j : Nat) (call : Call ρ) : Pool ρ :=
  match call.phase with
  | .leased client _ => w.setPhase j call (.leased client false)
  | _ => w

/-- `_SSHClientLease.close` and `_release_connection` up to the lock. -/
def closeLease (w : Pool ρ) (j : Nat) (call : Call ρ) (active : Nat → Bool) : Pool ρ :=
  match call.phase with
  | .leased client reusable =>
      w.setPhase j call (if !reusable || !active client then .over else .releasing client)
  | _ => w

/-- The locked section of `_release_connection`. -/
def release [DecidableEq ρ] (w : Pool ρ) (j : Nat) (call : Call ρ) (client : Nat) (now : Rat) :
    Pool ρ :=
  let entries := w.idle call.key
  if w.closed ∨ call.key.generation ≠ w.currentGeneration call.key.computerId ∨
      entries.length ≥ sshReuseMaxIdlePerTarget then
    w.setPhase j call .over
  else
    { w with idle := Function.update w.idle call.key ((client, now) :: entries) }.setPhase j call
      .over

/-- What a closing leaves behind for the record of it. -/
def revoke (w : Pool ρ) (computer : Option String) : Pool ρ :=
  { w with
    calls := fun j => (w.calls j).map fun call =>
      { call with revoked := call.revoked || covers computer call.key.computerId }
    revoked := fun client => w.revoked client || (w.opened client).any (covers computer) }

/-- The locked section of `close_connections`. -/
def closeConnections (w : Pool ρ) : Option String → Pool ρ
  | none =>
      { w with
        idle := fun _ => []
        generation := fun computerId => (w.generation computerId).map (· + 1) }.revoke none
  | some computerId =>
      { w with
        idle := fun key => if key.computerId = computerId then [] else w.idle key
        generation := Function.update w.generation computerId
          (some (w.currentGeneration computerId + 1)) }.revoke (some computerId)

/-- The locked section of `close`. -/
def close (w : Pool ρ) : Pool ρ := { w with idle := fun _ => [], closed := true }.revoke none

end Pool

/-! ## 2. Runs -/

inductive Act (ρ : Type) where
  | connect (j : Nat) (computerId : String) (target : ρ)
  | take (j : Nat) (now : Rat) (pruning popping : Nat → Bool)
  | fresh (j client : Nat)
  /-- `_connect` returns its lease. -/
  | hand (j : Nat)
  /-- `_connect` raises. -/
  | raise (j : Nat)
  | invalidate (j : Nat)
  | closeLease (j : Nat) (active : Nat → Bool)
  | release (j : Nat) (now : Rat)
  | closeConnections (computer : Option String)
  | close

/-- The steps of any number of threads. Each locked section is one step, and everything between
    two of them may come in any order. -/
inductive Step [DecidableEq ρ] (w : Pool ρ) : Act ρ → Pool ρ → Prop
  | connect (j : Nat) (computerId : String) (target : ρ) (unused : w.calls j = none) :
      Step w (.connect j computerId target) (w.connect j computerId target)
  | take {j : Nat} {call : Call ρ} (now : Rat) (pruning popping : Nat → Bool)
      (found : w.calls j = some call) (phase : call.phase = .keyed) :
      Step w (.take j now pruning popping) (w.take j call now pruning popping)
  | fresh {j : Nat} {call : Call ρ} (client : Nat) (found : w.calls j = some call)
      (phase : call.phase = .opening) (unused : w.opened client = none) :
      Step w (.fresh j client) (w.fresh j call client)
  | hand {j client : Nat} {call : Call ρ} (found : w.calls j = some call)
      (phase : call.phase = .holding client) :
      Step w (.hand j) (w.setPhase j call (.leased client true))
  | raise {j : Nat} {call : Call ρ} (found : w.calls j = some call)
      (phase : call.phase = .opening ∨ ∃ client, call.phase = .holding client) :
      Step w (.raise j) (w.setPhase j call .over)
  | invalidate {j : Nat} {call : Call ρ} (found : w.calls j = some call) :
      Step w (.invalidate j) (w.invalidate j call)
  | closeLease {j : Nat} {call : Call ρ} (active : Nat → Bool) (found : w.calls j = some call) :
      Step w (.closeLease j active) (w.closeLease j call active)
  | release {j client : Nat} {call : Call ρ} (now : Rat) (found : w.calls j = some call)
      (phase : call.phase = .releasing client) :
      Step w (.release j now) (w.release j call client now)
  | closeConnections (computer : Option String) :
      Step w (.closeConnections computer) (w.closeConnections computer)
  | close : Step w .close w.close

/-- The computer of everything that is being opened, leased or given back has its generation
    written down. -/
def Counted (w : Pool ρ) : Prop :=
  ∀ j call, w.calls j = some call → call.phase ≠ .over →
    (w.generation call.key.computerId).isSome

/-- All computers are closed only while their generations are written down. -/
def ClosedCounted (w : Pool ρ) (act : Act ρ) (_ : Pool ρ) : Prop :=
  match act with
  | .closeConnections none => Counted w
  | _ => True

/-- The call, or its lease, has the client. -/
def Has (w : Pool ρ) (j client : Nat) : Prop :=
  ∃ call, w.calls j = some call ∧ call.phase.client = some client

/-- What the pool promises. -/
structure Safe (w : Pool ρ) : Prop where
  lease : ∀ i j client, Has w i client → Has w j client → i = j
  apart : ∀ j client key entry, Has w j client → entry ∈ w.idle key → entry.1 ≠ client
  idle : ∀ key key' entry entry', entry ∈ w.idle key → entry' ∈ w.idle key' →
    entry.1 = entry'.1 → key = key'
  nodup : ∀ key, ((w.idle key).map Prod.fst).Nodup
  bounded : ∀ key, (w.idle key).length ≤ sshReuseMaxIdlePerTarget
  /-- No call has a client that was revoked when the call began. -/
  handed : ∀ j call client, w.calls j = some call → call.phase.client = some client →
    call.before client = false

/-! ## 3. Idle clients -/

theorem popActive_sublist (active : Nat → Bool) (entries : List (Nat × Rat)) :
    (popActive active entries).2.Sublist entries := by
  induction entries with
  | nil => exact .refl _
  | cons entry entries ih =>
    unfold popActive
    split
    · exact List.sublist_cons_self _ _
    · exact ih.cons _

/-- The client that is handed out was an entry, and no entry that is left is before it. -/
theorem popActive_some {active : Nat → Bool} {entries rest : List (Nat × Rat)} {client : Nat}
    (h : popActive active entries = (some client, rest)) :
    ∃ idleSince, ((client, idleSince) :: rest).Sublist entries := by
  induction entries with
  | nil => simp [popActive] at h
  | cons entry entries ih =>
    unfold popActive at h
    split at h
    · simp only [Prod.mk.injEq, Option.some.injEq] at h
      obtain ⟨rfl, rfl⟩ := h
      exact ⟨entry.2, .refl _⟩
    · obtain ⟨idleSince, hsub⟩ := ih h
      exact ⟨idleSince, hsub.cons _⟩

theorem prune_sublist [DecidableEq ρ] (idle : Key ρ → List (Nat × Rat)) (now : Rat)
    (active : Nat → Bool) (computerId : String) (keepKey key : Key ρ) :
    (prune idle now active computerId keepKey key).Sublist (idle key) := by
  unfold prune
  split
  · exact .refl _
  · exact List.filter_sublist

/-! ## 4. The invariant -/

inductive Place (ρ : Type) where
  | nowhere
  | idle (key : Key ρ)
  | call (j : Nat)

/-- Every client is in one place. -/
structure Placed (w : Pool ρ) (place : Nat → Place ρ) : Prop where
  idle : ∀ key entry, entry ∈ w.idle key → place entry.1 = .idle key
  call : ∀ j call client, w.calls j = some call → call.phase.client = some client →
    place client = .call j
  nodup : ∀ key, ((w.idle key).map Prod.fst).Nodup

/-- A closing that covers the computer of a call has left the key of the call behind. -/
structure CallOk (w : Pool ρ) (call : Call ρ) : Prop where
  reached : call.key.generation ≤ w.currentGeneration call.key.computerId
  stale : call.phase ≠ .over → call.revoked = true →
    w.closed = true ∨ call.key.generation < w.currentGeneration call.key.computerId
  before : ∀ client, call.before client = true → w.revoked client = true
  client : ∀ client, call.phase.client = some client →
    w.opened client = some call.key.computerId ∧
      (w.revoked client = true → call.revoked = true) ∧ call.before client = false

structure Ok (w : Pool ρ) : Prop where
  placed : ∃ place, Placed w place
  bounded : ∀ key, (w.idle key).length ≤ sshReuseMaxIdlePerTarget
  idle : ∀ key entry, entry ∈ w.idle key →
    w.opened entry.1 = some key.computerId ∧ w.revoked entry.1 = false
  calls : ∀ j call, w.calls j = some call → CallOk w call
  known : ∀ client, w.revoked client = true → (w.opened client).isSome

namespace Ok

variable {w w' : Pool ρ} {j : Nat} {call : Call ρ} {act : Act ρ}

theorem new : Ok (.new : Pool ρ) where
  placed := ⟨fun _ => .nowhere, by simp [Pool.new], by simp [Pool.new], by simp [Pool.new]⟩
  bounded := by simp [Pool.new]
  idle := by simp [Pool.new]
  calls := by simp [Pool.new]
  known := by simp [Pool.new]

theorem safe (h : Ok w) : Safe w := by
  obtain ⟨place, placed⟩ := h.placed
  refine ⟨?_, ?_, ?_, placed.nodup, h.bounded, fun j call client found has =>
    ((h.calls j call found).client client has).2.2⟩
  · rintro i j client ⟨_, foundᵢ, hasᵢ⟩ ⟨_, foundⱼ, hasⱼ⟩
    have same := (placed.call _ _ _ foundᵢ hasᵢ).symm.trans (placed.call _ _ _ foundⱼ hasⱼ)
    exact Place.call.inj same
  · rintro j client key entry ⟨_, found, has⟩ mem rfl
    have same := (placed.call _ _ _ found has).symm.trans (placed.idle _ _ mem)
    cases same
  · intro key key' entry entry' mem mem' heq
    have same := (placed.idle _ _ mem).symm.trans (heq ▸ placed.idle _ _ mem')
    exact Place.idle.inj same

/-- A call goes on with the client that it has, if it keeps one. -/
theorem setCall (h : Ok w) {next : Call ρ} (hnext : CallOk w next)
    (kept : ∀ client, next.phase.client = some client → Has w j client) :
    Ok { w with calls := Function.update w.calls j (some next) } := by
  obtain ⟨place, placed⟩ := h.placed
  refine ⟨⟨place, placed.idle, ?_, placed.nodup⟩, h.bounded, h.idle, ?_, h.known⟩
  · intro i other client found has
    by_cases heq : i = j
    · subst heq
      obtain rfl : next = other := by simpa using found
      obtain ⟨_, before, had⟩ := kept client has
      exact placed.call _ _ _ before had
    · exact placed.call i other client (by simpa [heq] using found) has
  · intro i other found
    by_cases heq : i = j
    · subst heq
      obtain rfl : next = other := by simpa using found
      exact ⟨hnext.reached, hnext.stale, hnext.before, hnext.client⟩
    · have hother := h.calls i other (by simpa [heq] using found)
      exact ⟨hother.reached, hother.stale, hother.before, hother.client⟩

theorem setPhase (h : Ok w) (found : w.calls j = some call) {phase : Phase}
    (live : call.phase ≠ .over)
    (kept : ∀ client, phase.client = some client → call.phase.client = some client) :
    Ok (w.setPhase j call phase) := by
  have hcall := h.calls j call found
  apply h.setCall
  · exact ⟨hcall.reached, fun _ => hcall.stale live, hcall.before,
      fun client has => hcall.client client (kept client has)⟩
  · intro client has
    exact ⟨call, found, kept client has⟩

/-- No call counts a client that was not revoked as revoked before it. -/
theorem unseen (h : Ok w) (found : w.calls j = some call) {client : Nat}
    (unrevoked : w.revoked client = false) : call.before client = false := by
  cases hbefore : call.before client with
  | false => rfl
  | true =>
    have hrevoked := (h.calls j call found).before client hbefore
    simp [unrevoked] at hrevoked

/-- A call takes a client that nobody has. -/
theorem hold (h : Ok w) (found : w.calls j = some call) (live : call.phase ≠ .over) {client : Nat}
    (apart : ∀ key entry, entry ∈ w.idle key → entry.1 ≠ client)
    (unheld : ∀ i, ¬ Has w i client) (opened : w.opened client = some call.key.computerId)
    (revoked : w.revoked client = true → call.revoked = true)
    (before : call.before client = false) : Ok (w.setPhase j call (.holding client)) := by
  obtain ⟨place, placed⟩ := h.placed
  have hcall := h.calls j call found
  refine ⟨⟨Function.update place client (.call j), ?_, ?_, placed.nodup⟩, h.bounded, h.idle, ?_,
    h.known⟩
  · intro key entry mem
    rw [Function.update_of_ne (apart key entry mem)]
    exact placed.idle key entry mem
  · intro i other taken hfound has
    by_cases heq : i = j
    · subst heq
      obtain rfl : { call with phase := .holding client } = other := by
        simpa [Pool.setPhase] using hfound
      obtain rfl : client = taken := by simpa [Phase.client] using has
      simp
    · have hbefore : w.calls i = some other := by simpa [Pool.setPhase, heq] using hfound
      have hne : taken ≠ client := by
        intro hsame
        exact unheld i ⟨other, hbefore, hsame ▸ has⟩
      rw [Function.update_of_ne hne]
      exact placed.call i other taken hbefore has
  · intro i other hfound
    by_cases heq : i = j
    · subst heq
      obtain rfl : { call with phase := .holding client } = other := by
        simpa [Pool.setPhase] using hfound
      refine ⟨hcall.reached, fun _ => hcall.stale live, hcall.before, fun taken has => ?_⟩
      obtain rfl : client = taken := by simpa [Phase.client] using has
      exact ⟨opened, revoked, before⟩
    · have hother := h.calls i other (by simpa [Pool.setPhase, heq] using hfound)
      exact ⟨hother.reached, hother.stale, hother.before, hother.client⟩

/-- Idle clients are taken out. -/
theorem shrink (h : Ok w) {idle : Key ρ → List (Nat × Rat)}
    (sub : ∀ key, (idle key).Sublist (w.idle key)) : Ok { w with idle } := by
  obtain ⟨place, placed⟩ := h.placed
  refine ⟨⟨place, fun key entry mem => placed.idle key entry ((sub key).subset mem), placed.call,
    fun key => ((sub key).map _).nodup (placed.nodup key)⟩,
    fun key => (sub key).length_le.trans (h.bounded key),
    fun key entry mem => h.idle key entry ((sub key).subset mem), ?_, h.known⟩
  intro i other found
  have hother := h.calls i other found
  exact ⟨hother.reached, hother.stale, hother.before, hother.client⟩

/-- A client that nobody has becomes idle. -/
theorem park [DecidableEq ρ] (h : Ok w) {key : Key ρ} {client : Nat} {now : Rat}
    (apart : ∀ key entry, entry ∈ w.idle key → entry.1 ≠ client)
    (unheld : ∀ i, ¬ Has w i client) (opened : w.opened client = some key.computerId)
    (revoked : w.revoked client = false)
    (space : (w.idle key).length < sshReuseMaxIdlePerTarget) :
    Ok { w with idle := Function.update w.idle key ((client, now) :: w.idle key) } := by
  obtain ⟨place, placed⟩ := h.placed
  have mem_idle : ∀ key' entry,
      entry ∈ Function.update w.idle key ((client, now) :: w.idle key) key' →
        (entry = (client, now) ∧ key' = key) ∨ entry ∈ w.idle key' := by
    intro key' entry mem
    by_cases heq : key' = key
    · subst heq
      simp only [Function.update_self, List.mem_cons] at mem
      exact mem.imp_left fun hentry => ⟨hentry, rfl⟩
    · exact .inr (by simpa [heq] using mem)
  refine ⟨⟨Function.update place client (.idle key), ?_, ?_, ?_⟩, ?_, ?_, ?_, h.known⟩
  · intro key' entry mem
    rcases mem_idle key' entry mem with ⟨rfl, rfl⟩ | hold
    · simp
    · rw [Function.update_of_ne (apart key' entry hold)]
      exact placed.idle key' entry hold
  · intro i other taken found has
    have hne : taken ≠ client := by
      intro hsame
      exact unheld i ⟨other, found, hsame ▸ has⟩
    rw [Function.update_of_ne hne]
    exact placed.call i other taken found has
  · intro key'
    by_cases heq : key' = key
    · subst heq
      have hnew : client ∉ (w.idle key').map Prod.fst := by
        intro mem
        obtain ⟨entry, hmem, hclient⟩ := List.mem_map.mp mem
        exact apart key' entry hmem hclient
      simpa using ⟨by simpa using hnew, placed.nodup key'⟩
    · simpa [heq] using placed.nodup key'
  · intro key'
    by_cases heq : key' = key
    · subst heq
      have hspace : (w.idle key').length + 1 ≤ sshReuseMaxIdlePerTarget := space
      simpa using hspace
    · simpa [heq] using h.bounded key'
  · intro key' entry mem
    rcases mem_idle key' entry mem with ⟨rfl, rfl⟩ | hold
    · exact ⟨opened, revoked⟩
    · exact h.idle key' entry hold
  · intro i other found
    have hother := h.calls i other found
    exact ⟨hother.reached, hother.stale, hother.before, hother.client⟩

/-- A closing: it takes the idle clients of the computers that it covers, and leaves every key
    behind that a call has for one of them. -/
theorem closing (h : Ok w) {idle : Key ρ → List (Nat × Rat)} {generation : String → Option Nat}
    {closed : Bool} {computer : Option String} (sub : ∀ key, (idle key).Sublist (w.idle key))
    (left : ∀ key entry, entry ∈ idle key → covers computer key.computerId = false)
    (grown : ∀ computerId, w.currentGeneration computerId ≤ (generation computerId).getD 0)
    (kept : w.closed = true → closed = true)
    (behind : ∀ j call, w.calls j = some call → call.phase ≠ .over →
      covers computer call.key.computerId = true →
      closed = true ∨ call.key.generation < (generation call.key.computerId).getD 0) :
    Ok ({ w with idle, generation, closed }.revoke computer) := by
  obtain ⟨⟨place, placed⟩, bounded, hidle, calls, known⟩ := h.shrink sub
  have call_inv : ∀ {i other}, ({ w with idle, generation, closed }.revoke computer).calls i =
      some other → ∃ call, w.calls i = some call ∧
        { call with revoked := call.revoked || covers computer call.key.computerId } = other := by
    intro i other found
    simpa [Pool.revoke] using found
  refine ⟨⟨place, placed.idle, ?_, placed.nodup⟩, bounded, ?_, ?_, ?_⟩
  · intro i other client found has
    obtain ⟨call, hcall, rfl⟩ := call_inv found
    exact placed.call i call client hcall has
  · intro key entry mem
    obtain ⟨hopened, hrevoked⟩ := hidle key entry mem
    refine ⟨hopened, ?_⟩
    have huncovered := left key entry mem
    simp only at hopened hrevoked
    simp [Pool.revoke, hopened, hrevoked, huncovered]
  · intro i other found
    obtain ⟨call, hcall, rfl⟩ := call_inv found
    have old := h.calls i call hcall
    refine ⟨old.reached.trans (grown _), fun live hrevoked => ?_, fun client hbefore => ?_,
      fun client has => ?_⟩
    · simp only [Bool.or_eq_true] at hrevoked
      rcases hrevoked with hrevoked | hcovers
      · exact (old.stale live hrevoked).imp kept fun hlt => hlt.trans_le (grown _)
      · exact behind i call hcall live hcovers
    · simp [Pool.revoke, old.before client hbefore]
    · obtain ⟨hopened, hrevoked, hbefore⟩ := old.client client has
      refine ⟨hopened, fun hstale => ?_, hbefore⟩
      -- the closing covers the client exactly when it covers the call
      simp only [Pool.revoke, hopened, Option.any_some, Bool.or_eq_true] at hstale ⊢
      exact hstale.imp_left hrevoked
  · intro client hrevoked
    simp only [Pool.revoke, Bool.or_eq_true] at hrevoked ⊢
    rcases hrevoked with hrevoked | hcovers
    · exact known client hrevoked
    · cases hopened : w.opened client with
      | none => simp [hopened] at hcovers
      | some computerId => rfl

/-! ## 5. Steps -/

theorem connect (h : Ok w) (j : Nat) (computerId : String) (target : ρ) :
    Ok (w.connect j computerId target) := by
  apply h.setCall
  · exact ⟨le_refl _, by simp, fun client hbefore => hbefore, by simp [Phase.client]⟩
  · intro client has
    simp [Phase.client] at has

theorem take [DecidableEq ρ] (h : Ok w) (found : w.calls j = some call)
    (phase : call.phase = .keyed) (now : Rat) (pruning popping : Nat → Bool) :
    Ok (w.take j call now pruning popping) := by
  have live : call.phase ≠ .over := by simp [phase]
  unfold Pool.take
  split
  · exact h.setPhase found live (by simp [Phase.client])
  · have pruned := prune_sublist w.idle now pruning call.key.computerId call.key
    cases hpop : popActive popping
        (prune w.idle now pruning call.key.computerId call.key call.key) with
    | mk reused entries =>
      have hentries : entries.Sublist (w.idle call.key) := by
        have := popActive_sublist popping
          (prune w.idle now pruning call.key.computerId call.key call.key)
        rw [hpop] at this
        exact this.trans (pruned call.key)
      have sub : ∀ key, (Function.update (prune w.idle now pruning call.key.computerId call.key)
          call.key entries key).Sublist (w.idle key) := by
        intro key
        by_cases heq : key = call.key
        · subst heq
          simpa using hentries
        · simpa [heq] using pruned key
      have shrunk := h.shrink sub
      simp only [hpop]
      cases reused with
      | none =>
        apply shrunk.setPhase found live
        simp [Phase.client]
      | some client =>
        obtain ⟨idleSince, hsub⟩ := popActive_some hpop
        have hsub := hsub.trans (pruned call.key)
        have mem : (client, idleSince) ∈ w.idle call.key := hsub.subset List.mem_cons_self
        obtain ⟨hopened, hrevoked⟩ := h.idle call.key _ mem
        obtain ⟨place, placed⟩ := h.placed
        have hplace : place client = .idle call.key := placed.idle call.key _ mem
        apply shrunk.hold found live
        · rintro key entry hentry rfl
          by_cases heq : key = call.key
          · subst heq
            have hnodup := (hsub.map Prod.fst).nodup (placed.nodup call.key)
            have hrest : entry ∈ entries := by simpa using hentry
            exact (List.nodup_cons.mp hnodup).1 (List.mem_map.mpr ⟨entry, hrest, rfl⟩)
          · have hother := placed.idle key entry ((sub key).subset hentry)
            exact heq (Place.idle.inj (hother.symm.trans hplace))
        · rintro i ⟨other, hother, has⟩
          have hcall := placed.call i other client hother has
          rw [hplace] at hcall
          cases hcall
        · exact hopened
        · simp [hrevoked]
        · exact h.unseen found hrevoked

theorem fresh (h : Ok w) (found : w.calls j = some call) (phase : call.phase = .opening)
    {client : Nat} (unused : w.opened client = none) : Ok (w.fresh j call client) := by
  have live : call.phase ≠ .over := by simp [phase]
  have unrevoked : w.revoked client = false := by
    cases hrevoked : w.revoked client with
    | false => rfl
    | true => simpa [unused] using h.known client hrevoked
  -- nothing that is known of another client changes
  have others : ∀ {other computerId}, w.opened other = some computerId → other ≠ client := by
    rintro other computerId hopened rfl
    simp [unused] at hopened
  have opening : Ok { w with
      opened := Function.update w.opened client (some call.key.computerId)
      revoked := Function.update w.revoked client call.revoked } := by
    obtain ⟨place, placed⟩ := h.placed
    refine ⟨⟨place, placed.idle, placed.call, placed.nodup⟩, h.bounded, ?_, ?_, ?_⟩
    · intro key entry mem
      obtain ⟨hopened, hrevoked⟩ := h.idle key entry mem
      have hne := others hopened
      simpa [hne] using ⟨hopened, hrevoked⟩
    · intro i other hother
      have old := h.calls i other hother
      refine ⟨old.reached, old.stale, fun taken hbefore => ?_, fun taken has => ?_⟩
      · have hrevoked := old.before taken hbefore
        have hne : taken ≠ client := by
          rintro rfl
          simp [unrevoked] at hrevoked
        simpa [hne] using hrevoked
      · obtain ⟨hopened, hrevoked, hbefore⟩ := old.client taken has
        have hne := others hopened
        simpa [hne] using ⟨hopened, hrevoked, hbefore⟩
    · intro other hrevoked
      by_cases heq : other = client
      · simp [heq]
      · simpa [heq] using h.known other (by simpa [heq] using hrevoked)
  apply opening.hold found live
  · intro key entry mem
    exact others (h.idle key entry mem).1
  · rintro i ⟨other, hother, has⟩
    exact others ((h.calls i other hother).client client has).1 rfl
  · simp
  · simp
  · exact h.unseen found unrevoked

theorem release [DecidableEq ρ] (h : Ok w) (found : w.calls j = some call) {client : Nat}
    (phase : call.phase = .releasing client) (now : Rat) :
    Ok (w.release j call client now) := by
  have live : call.phase ≠ .over := by simp [phase]
  have has : call.phase.client = some client := by simp [phase, Phase.client]
  have hcall := h.calls j call found
  have ended : Ok (w.setPhase j call .over) := h.setPhase found live (by simp [Phase.client])
  unfold Pool.release
  dsimp only
  split
  · exact ended
  · rename_i hreuse
    simp only [not_or, Bool.not_eq_true, ne_eq, not_not, ge_iff_le, not_le] at hreuse
    obtain ⟨hopen, hgeneration, hspace⟩ := hreuse
    obtain ⟨hopened, hrevoked, -⟩ := hcall.client client has
    obtain ⟨place, placed⟩ := h.placed
    have hplace := placed.call j call client found has
    refine ended.park ?_ ?_ hopened ?_ hspace
    · rintro key entry mem rfl
      have hidle := placed.idle key entry mem
      rw [hplace] at hidle
      cases hidle
    · rintro i ⟨other, hother, hasOther⟩
      by_cases heq : i = j
      · subst heq
        obtain rfl : { call with phase := .over } = other := by
          simpa [Pool.setPhase] using hother
        simp [Phase.client] at hasOther
      · have hbefore : w.calls i = some other := by simpa [Pool.setPhase, heq] using hother
        have hsame := (placed.call i other client hbefore hasOther).symm.trans hplace
        exact heq (Place.call.inj hsame)
    · -- a client that was revoked has a key that is left behind
      cases hstale : w.revoked client with
      | false => exact hstale
      | true =>
        rcases hcall.stale live (hrevoked hstale) with hclosed | hlt
        · simp [hopen] at hclosed
        · exact absurd hgeneration hlt.ne

theorem closeConnections (h : Ok w) {computer : Option String}
    (counted : computer = none → Counted w) : Ok (w.closeConnections computer) := by
  cases computer with
  | none =>
    apply h.closing
    · intro key
      exact List.nil_sublist _
    · intro key entry mem
      simp at mem
    · intro computerId
      unfold Pool.currentGeneration
      cases w.generation computerId with
      | none => simp
      | some generation => simp
    · exact id
    · intro i other found live _
      have hreached := (h.calls i other found).reached
      unfold Pool.currentGeneration at hreached
      obtain ⟨generation, hgeneration⟩ := Option.isSome_iff_exists.mp
        (counted rfl i other found live)
      rw [hgeneration] at hreached ⊢
      exact .inr (Nat.lt_succ_of_le hreached)
  | some computerId =>
    apply h.closing
    · intro key
      split
      · exact List.nil_sublist _
      · exact .refl _
    · intro key entry mem
      split at mem
      · simp at mem
      · simpa [covers] using ‹_›
    · intro other
      by_cases heq : other = computerId
      · subst heq
        simp
      · simp [heq, Pool.currentGeneration]
    · exact id
    · intro i other found _ hcovers
      obtain heq : other.key.computerId = computerId := by simpa [covers] using hcovers
      have hreached := (h.calls i other found).reached
      rw [heq] at hreached ⊢
      rw [Function.update_self]
      exact .inr (Nat.lt_succ_of_le hreached)

theorem close (h : Ok w) : Ok w.close := by
  apply h.closing
  · intro key
    exact List.nil_sublist _
  · intro key entry mem
    simp at mem
  · intro computerId
    exact le_refl _
  · exact fun _ => rfl
  · exact fun _ _ _ _ _ => .inl rfl

theorem step [DecidableEq ρ] (h : Ok w) (step : Guard Step ClosedCounted w act w') : Ok w' := by
  obtain ⟨step, allowed⟩ := step
  cases step with
  | connect j computerId target _ => exact h.connect j computerId target
  | take now pruning popping found phase => exact h.take found phase now pruning popping
  | fresh _ found phase unused => exact h.fresh found phase unused
  | hand found phase =>
    apply h.setPhase found (by simp [phase])
    intro client has
    simpa [phase, Phase.client] using has
  | raise found phase =>
    apply h.setPhase found
    · rcases phase with phase | ⟨_, phase⟩ <;> simp [phase]
    · simp [Phase.client]
  | invalidate found =>
    unfold Pool.invalidate
    split
    · rename_i phase
      apply h.setPhase found (by simp [phase])
      simp [phase, Phase.client]
    · exact h
  | closeLease active found =>
    unfold Pool.closeLease
    split
    · rename_i phase
      apply h.setPhase found (by simp [phase])
      intro client has
      split at has
      · simp [Phase.client] at has
      · simpa [phase, Phase.client] using has
    · exact h
  | release now found phase => exact h.release found phase now
  | closeConnections computer =>
    apply h.closeConnections
    rintro rfl
    exact allowed
  | close => exact h.close

end Ok

/-- **The pool.** In every interleaving in which all computers are closed only while their
    generations are written down: a client has one lease or one idle entry, a key has at most two
    idle clients, and no call has a client whose connect began before a closing that covers it and
    that came before the call. -/
theorem pool_safe [DecidableEq ρ] {acts : List (Act ρ)} {w : Pool ρ}
    (run : Run (Guard Step ClosedCounted) .new acts w) : Safe w := by
  have ok : Ok w := by
    apply run.invariant ?_ Ok.new
    intro _ _ _ step h
    exact h.step step
  exact ok.safe

def awake : Nat → Bool := fun _ => true

/-- All computers are closed while the only one that is connected was never closed by itself. The
    lease is given back under the generation that it began with, which is still the current one,
    and the next call has the client. -/
theorem unlisted_generation :
    ∃ acts w, Run Step (.new : Pool String) acts w ∧ Has w 1 0 ∧ ¬ Safe w := by
  refine ⟨[.connect 0 "computer" "host", .take 0 0 awake awake, .fresh 0 0, .hand 0,
    .closeConnections none, .closeLease 0 awake, .release 0 1, .connect 1 "computer" "host",
    .take 1 2 awake awake], _,
    .snoc (.snoc (.snoc (.snoc (.snoc (.snoc (.snoc (.snoc (.snoc .refl
      (.connect 0 "computer" "host" rfl)) (.take 0 awake awake rfl rfl)) (.fresh 0 rfl rfl rfl))
      (.hand rfl rfl)) (.closeConnections none)) (.closeLease awake rfl)) (.release 1 rfl rfl))
      (.connect 1 "computer" "host" rfl)) (.take 2 awake awake rfl rfl),
    ⟨_, rfl, by decide +kernel⟩, fun safe => ?_⟩
  have handed := safe.handed 1 _ 0 rfl (by decide +kernel)
  revert handed
  decide +kernel

/-- The computer was closed by itself once, so its generation is written down. -/
theorem pool_safe_listed :
    ∃ acts w, Run (Guard Step ClosedCounted) (.new : Pool String) acts w ∧ Has w 1 1 ∧
      w.revoked 0 = true ∧ Safe w := by
  obtain ⟨w, run, has, revoked⟩ : ∃ w, Run (Guard Step ClosedCounted) (.new : Pool String)
      [.closeConnections (some "computer"), .connect 0 "computer" "host",
        .take 0 0 awake awake, .fresh 0 0, .hand 0, .closeConnections none,
        .closeLease 0 awake, .release 0 1, .connect 1 "computer" "host",
        .take 1 2 awake awake, .fresh 1 1] w ∧ Has w 1 1 ∧ w.revoked 0 = true := by
    have counted : ∀ {w : Pool String} {call}, (∀ j, w.calls (j + 1) = none) →
        w.calls 0 = some call → (w.generation call.key.computerId).isSome → Counted w := by
      intro w call others found listed j other hother _
      cases j with
      | zero =>
        obtain rfl := Option.some.inj (found.symm.trans hother)
        exact listed
      | succ j => simp [others j] at hother
    exact ⟨_, .snoc (.snoc (.snoc (.snoc (.snoc (.snoc (.snoc (.snoc (.snoc (.snoc (.snoc .refl
      ⟨.closeConnections (some "computer"), trivial⟩)
      ⟨.connect 0 "computer" "host" rfl, trivial⟩) ⟨.take 0 awake awake rfl rfl, trivial⟩)
      ⟨.fresh 0 rfl rfl rfl, trivial⟩) ⟨.hand rfl rfl, trivial⟩)
      ⟨.closeConnections none, counted (fun _ => rfl) rfl rfl⟩)
      ⟨.closeLease awake rfl, trivial⟩) ⟨.release 1 rfl rfl, trivial⟩)
      ⟨.connect 1 "computer" "host" rfl, trivial⟩) ⟨.take 2 awake awake rfl rfl, trivial⟩)
      ⟨.fresh 1 rfl rfl rfl, trivial⟩, ⟨_, rfl, rfl⟩, rfl⟩
  exact ⟨_, w, run, has, revoked, pool_safe run⟩

end Termroom.Ssh
