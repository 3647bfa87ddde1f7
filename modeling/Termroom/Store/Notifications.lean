import Mathlib.Data.List.Sort
import Termroom.Conc.Run
import Termroom.Store.Tables

/-!
# Which device is told of which event

Events of runs are numbered as they are inserted. `claim_event_notifications` tells a device of
those that come after its registration: it inserts a claim for each event that it returns, so the
same device is not told of it again. What goes with its event or its device by ON DELETE CASCADE
are the claims; both are pruned by age.

Unless a call prunes, its first SELECT is outside the transaction that follows, so other calls and
the runs that end can come in between: the device is registered with the number that was the last
one then, and the events are chosen with the number that the registration had then.

`claims_exact` is what holds where no registration is pruned under a call of its device: a device
receives events in the order of their numbers, each once, and none that comes after a registration
that still stands is passed by. An event that came after a registration that was pruned since can
be (`pruned_registration`).
-/

set_option autoImplicit false

namespace Termroom.Store.Notifications

open Conc Data

/-! ## 1. The source -/

/-- A row of `events` with the columns that the table adds to it. -/
structure EventRow where
  sequence : Nat
  id : String
  event : Event
  deriving DecidableEq, Repr

/-- A row of `notification_devices`. -/
structure NotificationDevice where
  id : String
  startSequence : Nat
  createdAt : Nat
  lastSeenAt : Nat
  deriving DecidableEq, Repr

/-- A row of `event_notification_claims`. -/
structure NotificationClaim where
  eventId : String
  deviceId : String
  claimedAt : Nat
  deriving DecidableEq, Repr

/-- Where a call of `claim_event_notifications` is. -/
inductive Phase where
  /-- found no registration -/
  | missing
  /-- has the number of the last event -/
  | counted (latest : Nat)
  | found (device : NotificationDevice)
  | returned (events : List EventRow)
  | raised
  deriving DecidableEq, Repr

/-- The call is between its first SELECT and its COMMIT. -/
def Phase.under : Phase → Bool
  | .missing | .counted _ | .found _ => true
  | .returned _ | .raised => false

structure Call where
  deviceId : String
  limit : Int
  now : Nat
  phase : Phase
  deriving DecidableEq, Repr

structure NotificationStore where
  events : List EventRow
  /-- `sqlite_sequence`: the last number that AUTOINCREMENT gave. -/
  sequence : Nat
  devices : List NotificationDevice
  claims : List NotificationClaim
  calls : Nat → Option Call
  /-- What was returned to which device, in the order of the commits. -/
  answers : List (String × List EventRow)
  /-- Which devices were registered when an event was inserted. -/
  entitled : List (String × Nat)
  /-- The same for the registrations that still stand. -/
  kept : List (String × Nat)

/-- `NOTIFICATION_DEVICE_RETENTION`, in seconds. -/
def notificationDeviceRetention : Nat := 90 * 24 * 60 * 60

/-- `max(1, min(int(limit), 50))` -/
def safeLimit (limit : Int) : Nat := (max 1 (min limit 50)).toNat

def byNumber (a b : EventRow) : Prop := a.sequence ≤ b.sequence

instance : DecidableRel byNumber := fun a b => inferInstanceAs (Decidable (a.sequence ≤ b.sequence))

def claimed (claims : List NotificationClaim) (eventId deviceId : String) : Bool :=
  claims.any fun claim => claim.eventId = eventId && claim.deviceId = deviceId

/-- The loop over the candidates: the ids that were inserted, and the claims. -/
def insertClaims (deviceId : String) (now : Nat) :
    List EventRow → List NotificationClaim → List String × List NotificationClaim
  | [], claims => ([], claims)
  | candidate :: rest, claims =>
    if claimed claims candidate.id deviceId then insertClaims deviceId now rest claims
    else
      let (claimedIds, claims) :=
        insertClaims deviceId now rest (claims ++ [⟨candidate.id, deviceId, now⟩])
      (candidate.id :: claimedIds, claims)

/-- last_seen_at < ? -/
def stale (current : Nat) (device : NotificationDevice) : Bool :=
  device.lastSeenAt + notificationDeviceRetention < current

namespace NotificationStore

def new : NotificationStore := ⟨[], 0, [], [], fun _ => none, [], [], []⟩

def device (w : NotificationStore) (id : String) : Option NotificationDevice :=
  Table.find NotificationDevice.id id w.devices

/-- INSERT INTO events … ON CONFLICT(subject_type, subject_id, subject_revision) DO NOTHING -/
def insertEvent (w : NotificationStore) (event : Option Event) (id : String) :
    NotificationStore :=
  match event with
  | none => w
  | some event =>
    if w.events.any fun row => row.event.subject = event.subject &&
        row.event.subjectRevision = event.subjectRevision then w
    else
      { w with
        events := w.events ++ [⟨w.sequence + 1, id, event⟩]
        sequence := w.sequence + 1
        entitled := w.entitled ++ w.devices.map fun device => (device.id, w.sequence + 1)
        kept := w.kept ++ w.devices.map fun device => (device.id, w.sequence + 1) }

/-- `_cleanup_activity_history`. The times of the events are compared as text; `expired` says which
    are before the cutoff. -/
def cleanup (w : NotificationStore) (current : Nat) (expired : EventRow → Bool) :
    NotificationStore :=
  let events := w.events.filter fun row => !expired row
  let devices := w.devices.filter fun device => !stale current device
  { w with
    events
    devices
    claims := w.claims.filter fun claim =>
      (Table.find EventRow.id claim.eventId events).isSome &&
        (Table.find NotificationDevice.id claim.deviceId devices).isSome
    kept := w.kept.filter fun entry =>
      (Table.find NotificationDevice.id entry.1 devices).isSome }

/-- SELECT COALESCE(MAX(sequence), 0) FROM events -/
def latest (w : NotificationStore) : Nat := (w.events.map EventRow.sequence).foldr max 0

/-- The candidates, without their LIMIT. -/
def candidates (w : NotificationStore) (deviceId : String) (startSequence : Nat) :
    List EventRow :=
  (w.events.filter fun row => row.event.notify && startSequence < row.sequence &&
    !claimed w.claims row.id deviceId).insertionSort byNumber

/-- INSERT INTO notification_devices -/
def register (w : NotificationStore) (deviceId : String) (latest now : Nat) :
    Except StoreError (List EventRow) × NotificationStore :=
  if (w.device deviceId).isSome then (.error .integrity, w)
  else (.ok [], { w with devices := w.devices ++ [⟨deviceId, latest, now, now⟩] })

/-- The call from its UPDATE on. A claim refers to its device, which may be gone. -/
def claimFound (w : NotificationStore) (device : NotificationDevice) (limit : Int) (now : Nat) :
    Except StoreError (List EventRow) × NotificationStore :=
  let devices := w.devices.map fun row =>
    if row.id = device.id then { row with lastSeenAt := now } else row
  let chosen := (w.candidates device.id device.startSequence).take (safeLimit limit)
  if chosen ≠ [] ∧ (w.device device.id).isNone then (.error .integrity, w)
  else
    let (claimedIds, claims) := insertClaims device.id now chosen w.claims
    let rows := (w.events.filter fun row => row.id ∈ claimedIds).insertionSort byNumber
    (.ok rows, { w with devices, claims, answers := w.answers ++ [(device.id, rows)] })

/-- The call in one transaction, from its cleanup on. -/
def claimCleaned (w : NotificationStore) (deviceId : String) (limit : Int) (now : Nat) :
    Except StoreError (List EventRow) × NotificationStore :=
  match w.device deviceId with
  | none => w.register deviceId w.latest now
  | some device => w.claimFound device limit now

def setPhase (w : NotificationStore) (j : Nat) (call : Call) (phase : Phase) : NotificationStore :=
  { w with calls := Function.update w.calls j (some { call with phase }) }

/-- A transaction ends the call; one that raises leaves the tables as they were. -/
def finish (w : NotificationStore) (j : Nat) (call : Call)
    (result : Except StoreError (List EventRow) × NotificationStore) : NotificationStore :=
  match result with
  | (.ok rows, w') => w'.setPhase j call (.returned rows)
  | (.error _, _) => w.setPhase j call .raised

end NotificationStore

/-! ## 2. Runs -/

inductive Act where
  | fileRunEvent (run : FileRun) (workspaceName : String) (now : Nat) (id : String)
  | remoteRunEvent (run : RemoteRunRow) (targetName : String) (now : Nat) (historical : Bool)
      (id : String)
  /-- `prune_history`, and the cleanup of the calls that list events. -/
  | prune (current : Nat) (expired : EventRow → Bool)
  /-- A call of `claim_event_notifications` that cleans up. -/
  | clean (j : Nat) (deviceId : String) (limit : Int) (now current : Nat)
      (expired : EventRow → Bool)
  /-- One that does not, up to its first SELECT. -/
  | select (j : Nat) (deviceId : String) (limit : Int) (now : Nat)
  | count (j : Nat)
  | register (j : Nat)
  | claim (j : Nat)

/-- Any number of calls, and the transactions of other threads. `uuid4` draws an id that no event
    has. -/
inductive Step (w : NotificationStore) : Act → NotificationStore → Prop
  | fileRunEvent {event : Option Event} (run : FileRun) (workspaceName : String) (now : Nat)
      (id : String) (made : Store.fileRunEvent run workspaceName now = .ok event)
      (fresh : ∀ row ∈ w.events, row.id ≠ id) :
      Step w (.fileRunEvent run workspaceName now id) (w.insertEvent event id)
  | remoteRunEvent (run : RemoteRunRow) (targetName : String) (now : Nat) (historical : Bool)
      (id : String) (fresh : ∀ row ∈ w.events, row.id ≠ id) :
      Step w (.remoteRunEvent run targetName now historical id)
        (w.insertEvent (Store.remoteRunEvent run targetName now historical) id)
  | prune (current : Nat) (expired : EventRow → Bool) :
      Step w (.prune current expired) (w.cleanup current expired)
  | clean (j : Nat) (deviceId : String) (limit : Int) (now current : Nat)
      (expired : EventRow → Bool) (unused : w.calls j = none) :
      Step w (.clean j deviceId limit now current expired)
        (w.finish j ⟨deviceId, limit, now, .missing⟩
          ((w.cleanup current expired).claimCleaned deviceId limit now))
  | select (j : Nat) (deviceId : String) (limit : Int) (now : Nat) (unused : w.calls j = none) :
      Step w (.select j deviceId limit now)
        (w.setPhase j ⟨deviceId, limit, now, .missing⟩
          (match w.device deviceId with
            | none => .missing
            | some device => .found device))
  | count {j : Nat} {call : Call} (found : w.calls j = some call) (phase : call.phase = .missing) :
      Step w (.count j) (w.setPhase j call (.counted w.latest))
  | register {j latest : Nat} {call : Call} (found : w.calls j = some call)
      (phase : call.phase = .counted latest) :
      Step w (.register j) (w.finish j call (w.register call.deviceId latest call.now))
  | claim {j : Nat} {call : Call} {device : NotificationDevice} (found : w.calls j = some call)
      (phase : call.phase = .found device) :
      Step w (.claim j) (w.finish j call (w.claimFound device call.limit call.now))

/-- No call of a device whose registration is pruned is under way. -/
def Apart (w : NotificationStore) (current : Nat) : Prop :=
  ∀ device ∈ w.devices, stale current device = true → ∀ j call, w.calls j = some call →
    call.deviceId = device.id → call.phase.under = false

def Undisturbed (w : NotificationStore) (act : Act) (_ : NotificationStore) : Prop :=
  match act with
  | .prune current _ | .clean _ _ _ _ current _ => Apart w current
  | _ => True

/-- The numbers of the events that the device received, in the order in which it did. -/
def received (w : NotificationStore) (deviceId : String) : List Nat :=
  ((w.answers.filter fun answer => answer.1 = deviceId).flatMap Prod.snd).map EventRow.sequence

/-! ## 3. The statements of a claim -/

section statements

variable {deviceId : String} {now : Nat} {chosen : List EventRow} {claims : List NotificationClaim}

theorem claimed_iff {eventId : String} :
    claimed claims eventId deviceId = true ↔
      ∃ claim ∈ claims, claim.eventId = eventId ∧ claim.deviceId = deviceId := by
  unfold claimed
  rw [List.any_eq_true]
  simp

/-- Events that have no claim yet, each once: all of them are inserted. -/
theorem insertClaims_eq (nodup : (chosen.map EventRow.id).Nodup)
    (unclaimed : ∀ row ∈ chosen, claimed claims row.id deviceId = false) :
    insertClaims deviceId now chosen claims =
      (chosen.map EventRow.id, claims ++ chosen.map fun row => ⟨row.id, deviceId, now⟩) := by
  induction chosen generalizing claims with
  | nil => simp [insertClaims]
  | cons row rest ih =>
    rw [List.map_cons, List.nodup_cons] at nodup
    have hrest : ∀ other ∈ rest,
        claimed (claims ++ [⟨row.id, deviceId, now⟩]) other.id deviceId = false := by
      intro other mem
      have hold := unclaimed other (List.mem_cons_of_mem _ mem)
      have hne : row.id ≠ other.id := by
        intro heq
        exact nodup.1 (heq ▸ List.mem_map.mpr ⟨other, mem, rfl⟩)
      unfold claimed at hold ⊢
      rw [List.any_append, hold]
      simp [hne]
    unfold insertClaims
    rw [unclaimed row List.mem_cons_self, ih nodup.2 hrest]
    simp

end statements

/-- ORDER BY events.sequence, where that is the order of the rows already. -/
theorem insertionSort_byNumber {rows : List EventRow}
    (h : rows.Pairwise fun a b => a.sequence < b.sequence) :
    rows.insertionSort byNumber = rows := by
  apply List.Pairwise.insertionSort_eq
  exact h.imp fun hlt => Nat.le_of_lt hlt

/-- Who comes before one of the first comes with the first. -/
theorem mem_take_of_before {rows : List EventRow} {n : Nat} {a b : EventRow}
    (h : rows.Pairwise fun a b => a.sequence < b.sequence) (ha : a ∈ rows) (hb : b ∈ rows.take n)
    (hle : a.sequence ≤ b.sequence) : a ∈ rows.take n := by
  rw [← List.take_append_drop n rows] at h ha
  rcases List.mem_append.mp ha with first | rest
  · exact first
  · have hlt := (List.pairwise_append.mp h).2.2 b hb a rest
    exact absurd hle (Nat.not_le.mpr hlt)

/-! ## 4. The invariant -/

/-- What the tables are to each other, and to what the devices received. -/
structure Rows (w : NotificationStore) : Prop where
  numbers : w.events.Pairwise fun a b => a.sequence < b.sequence
  ids : (w.events.map EventRow.id).Nodup
  devices : (w.devices.map NotificationDevice.id).Nodup
  bounded : ∀ row ∈ w.events, row.sequence ≤ w.sequence
  started : ∀ device ∈ w.devices, device.startSequence ≤ w.sequence
  /-- A claim has its event, and its device received it. -/
  claims : ∀ claim ∈ w.claims, ∃ row ∈ w.events, row.id = claim.eventId ∧
    row.sequence ∈ received w claim.deviceId
  heard : ∀ deviceId, ∀ number ∈ received w deviceId, number ≤ w.sequence
  increasing : ∀ deviceId, (received w deviceId).Pairwise (· < ·)
  /-- No event is passed by. -/
  passed : ∀ device ∈ w.devices, ∀ number ∈ received w device.id, ∀ row ∈ w.events,
    row.event.notify = true → device.startSequence < row.sequence → row.sequence ≤ number →
      claimed w.claims row.id device.id = true
  kept : ∀ entry ∈ w.kept, ∃ device ∈ w.devices, device.id = entry.1 ∧
    device.startSequence < entry.2

/-- What a call that is under way has read still serves. -/
structure CallOk (w : NotificationStore) (call : Call) : Prop where
  found : ∀ device, call.phase = .found device → device.id = call.deviceId ∧
    ∃ row ∈ w.devices, row.id = device.id ∧ row.startSequence = device.startSequence
  counted : ∀ latest, call.phase = .counted latest → latest ≤ w.sequence ∧
    ((w.device call.deviceId).isSome ∨ ∀ number ∈ received w call.deviceId, ∀ row ∈ w.events,
      row.sequence ≤ number → row.sequence ≤ latest)

structure Ok (w : NotificationStore) : Prop where
  rows : Rows w
  calls : ∀ j call, w.calls j = some call → CallOk w call

variable {w w' : NotificationStore} {j : Nat} {call : Call}

theorem isSome_device {id : String} :
    (w.device id).isSome = true ↔ ∃ device ∈ w.devices, device.id = id := by
  unfold NotificationStore.device Table.find
  rw [List.find?_isSome]
  simp

theorem device_of_some {id : String} {device : NotificationDevice}
    (h : w.device id = some device) : device ∈ w.devices ∧ device.id = id :=
  ⟨Table.find_mem h, Table.find_key h⟩

theorem Ok.new : Ok .new where
  rows :=
    { numbers := List.Pairwise.nil
      ids := List.nodup_nil
      devices := List.nodup_nil
      bounded := by simp [NotificationStore.new]
      started := by simp [NotificationStore.new]
      claims := by simp [NotificationStore.new]
      heard := by simp [received, NotificationStore.new]
      increasing := by simp [received, NotificationStore.new]
      passed := by simp [NotificationStore.new]
      kept := by simp [NotificationStore.new] }
  calls := by simp [NotificationStore.new]

theorem Ok.setPhase (ok : Ok w) {phase : Phase} (h : CallOk w { call with phase }) :
    Ok (w.setPhase j call phase) := by
  refine ⟨⟨ok.rows.numbers, ok.rows.ids, ok.rows.devices, ok.rows.bounded, ok.rows.started,
    ok.rows.claims, ok.rows.heard, ok.rows.increasing, ok.rows.passed, ok.rows.kept⟩,
    fun i other hother => ?_⟩
  by_cases heq : i = j
  · subst heq
    obtain rfl : { call with phase } = other := by
      simpa [NotificationStore.setPhase] using hother
    exact ⟨h.found, h.counted⟩
  · have old := ok.calls i other (by simpa [NotificationStore.setPhase, heq] using hother)
    exact ⟨old.found, old.counted⟩

theorem Ok.ended (ok : Ok w) {phase : Phase} (h : phase.under = false) :
    Ok (w.setPhase j call phase) := by
  apply ok.setPhase
  refine ⟨fun device heq => ?_, fun latest heq => ?_⟩
  · obtain rfl : phase = .found device := heq
    simp [Phase.under] at h
  · obtain rfl : phase = .counted latest := heq
    simp [Phase.under] at h

/-- The end of a transaction. -/
theorem Ok.finish (ok : Ok w) {result : Except StoreError (List EventRow) × NotificationStore}
    (h : Ok result.2) : Ok (w.finish j call result) := by
  unfold NotificationStore.finish
  split
  · exact Ok.ended h rfl
  · exact ok.ended rfl

/-! ## 5. Events and registrations -/

theorem Ok.insertEvent (ok : Ok w) {event : Option Event} {id : String}
    (fresh : ∀ row ∈ w.events, row.id ≠ id) : Ok (w.insertEvent event id) := by
  unfold NotificationStore.insertEvent
  cases event with
  | none => exact ok
  | some event =>
    dsimp only
    split
    · exact ok
    · have rows := ok.rows
      -- the new event comes after everything that was received or is old
      have mem_inv : ∀ {row}, row ∈ w.events ++ [⟨w.sequence + 1, id, event⟩] →
          row ∈ w.events ∨ row.sequence = w.sequence + 1 := by
        intro row mem
        rcases List.mem_append.mp mem with old | new
        · exact .inl old
        · obtain rfl := List.mem_singleton.mp new
          exact .inr rfl
      refine ⟨⟨?_, ?_, rows.devices, ?_, ?_, ?_, ?_, rows.increasing, ?_, ?_⟩,
        fun i other hother => ?_⟩
      · rw [List.pairwise_append]
        refine ⟨rows.numbers, List.pairwise_singleton _ _, fun a ha b hb => ?_⟩
        obtain rfl := List.mem_singleton.mp hb
        exact Nat.lt_succ_of_le (rows.bounded a ha)
      · rw [List.map_append, List.nodup_append]
        refine ⟨rows.ids, by simp, fun a ha b hb heq => ?_⟩
        obtain ⟨row, mem, rfl⟩ := List.mem_map.mp ha
        obtain rfl : b = id := by simpa using hb
        exact fresh row mem heq
      · intro row mem
        rcases mem_inv mem with old | new
        · exact Nat.le_succ_of_le (rows.bounded row old)
        · exact Nat.le_of_eq new
      · intro device mem
        exact Nat.le_succ_of_le (rows.started device mem)
      · intro claim mem
        obtain ⟨row, hrow, heq, hnumber⟩ := rows.claims claim mem
        exact ⟨row, List.mem_append_left _ hrow, heq, hnumber⟩
      · intro deviceId number mem
        exact Nat.le_succ_of_le (rows.heard deviceId number mem)
      · intro device mem number hnumber row hrow notify after before
        rcases mem_inv hrow with old | new
        · exact rows.passed device mem number hnumber row old notify after before
        · have hheard := rows.heard device.id number hnumber
          omega
      · intro entry mem
        rcases List.mem_append.mp mem with old | new
        · exact rows.kept entry old
        · obtain ⟨device, hdevice, rfl⟩ := List.mem_map.mp new
          exact ⟨device, hdevice, rfl, Nat.lt_succ_of_le (rows.started device hdevice)⟩
      · have old := ok.calls i other hother
        refine ⟨old.found, fun latest hphase => ?_⟩
        obtain ⟨hle, hread⟩ := old.counted latest hphase
        refine ⟨Nat.le_succ_of_le hle, hread.imp_right fun h number hnumber row hrow before => ?_⟩
        rcases mem_inv hrow with mem | new
        · exact h number hnumber row mem before
        · have hheard := rows.heard other.deviceId number hnumber
          omega

theorem Ok.register (ok : Ok w) {deviceId : String} {latest now : Nat}
    (hle : latest ≤ w.sequence)
    (hread : (w.device deviceId).isSome ∨ ∀ number ∈ received w deviceId, ∀ row ∈ w.events,
      row.sequence ≤ number → row.sequence ≤ latest) :
    Ok (w.register deviceId latest now).2 := by
  unfold NotificationStore.register
  split
  · exact ok
  · rename_i absent
    have rows := ok.rows
    have old_mem : ∀ {device}, device ∈ w.devices →
        device ∈ w.devices ++ [⟨deviceId, latest, now, now⟩] := List.mem_append_left _
    have unheard := hread.resolve_left absent
    refine ⟨⟨rows.numbers, rows.ids, ?_, rows.bounded, ?_, rows.claims, rows.heard,
      rows.increasing, ?_, ?_⟩, fun i other hother => ?_⟩
    · rw [List.map_append, List.nodup_append]
      refine ⟨rows.devices, by simp, fun a ha b hb heq => ?_⟩
      obtain ⟨device, mem, rfl⟩ := List.mem_map.mp ha
      obtain rfl : b = deviceId := by simpa using hb
      exact absent (isSome_device.mpr ⟨device, mem, heq⟩)
    · intro device mem
      rcases List.mem_append.mp mem with old | new
      · exact rows.started device old
      · obtain rfl := List.mem_singleton.mp new
        exact hle
    · intro device mem number hnumber row hrow notify after before
      rcases List.mem_append.mp mem with old | new
      · exact rows.passed device old number hnumber row hrow notify after before
      · obtain rfl := List.mem_singleton.mp new
        exact absurd after (Nat.not_lt.mpr (unheard number hnumber row hrow before))
    · intro entry mem
      obtain ⟨device, hdevice, heq, hlt⟩ := rows.kept entry mem
      exact ⟨device, old_mem hdevice, heq, hlt⟩
    · have old := ok.calls i other hother
      refine ⟨fun device hphase => ?_, fun latest hphase => ?_⟩
      · obtain ⟨heq, row, hrow, hid⟩ := old.found device hphase
        exact ⟨heq, row, old_mem hrow, hid⟩
      · obtain ⟨hle, hread⟩ := old.counted latest hphase
        refine ⟨hle, hread.imp_left fun hsome => ?_⟩
        obtain ⟨device, hdevice, heq⟩ := isSome_device.mp hsome
        exact isSome_device.mpr ⟨device, old_mem hdevice, heq⟩

theorem le_latest {row : EventRow} (mem : row ∈ w.events) : row.sequence ≤ w.latest := by
  unfold NotificationStore.latest
  generalize w.events = rows at mem
  induction rows with
  | nil => cases mem
  | cons first rest ih =>
    rw [List.map_cons, List.foldr_cons]
    rcases List.mem_cons.mp mem with rfl | mem
    · exact Nat.le_max_left _ _
    · exact (ih mem).trans (Nat.le_max_right _ _)

theorem Rows.latest_le (rows : Rows w) : w.latest ≤ w.sequence := by
  have bounded := rows.bounded
  unfold NotificationStore.latest
  generalize w.events = all at bounded
  induction all with
  | nil => exact Nat.zero_le _
  | cons first rest ih =>
    rw [List.map_cons, List.foldr_cons]
    apply Nat.max_le.mpr
    exact ⟨bounded first List.mem_cons_self, ih fun row mem =>
      bounded row (List.mem_cons_of_mem _ mem)⟩

/-! ## 6. Pruning -/

theorem find_isSome {ρ : Type} {key : ρ → String} {id : String} {rows : List ρ} :
    (Table.find key id rows).isSome = true ↔ ∃ row ∈ rows, key row = id := by
  unfold Table.find
  rw [List.find?_isSome]
  simp

theorem Ok.cleanup (ok : Ok w) {current : Nat} (apart : Apart w current)
    (expired : EventRow → Bool) : Ok (w.cleanup current expired) := by
  have rows := ok.rows
  have events_sub : (w.events.filter fun row => !expired row).Sublist w.events :=
    List.filter_sublist
  have devices_sub : (w.devices.filter fun device => !stale current device).Sublist w.devices :=
    List.filter_sublist
  refine ⟨⟨rows.numbers.sublist events_sub, (events_sub.map _).nodup rows.ids,
    (devices_sub.map _).nodup rows.devices, fun row mem => rows.bounded row (events_sub.subset mem),
    fun device mem => rows.started device (devices_sub.subset mem), ?_, rows.heard,
    rows.increasing, ?_, ?_⟩, fun i other hother => ?_⟩
  · intro claim mem
    obtain ⟨old, there⟩ := List.mem_filter.mp mem
    rw [Bool.and_eq_true, find_isSome] at there
    obtain ⟨row, hrow, hnumber⟩ := rows.claims claim old
    obtain ⟨⟨left, hleft, heq⟩, -⟩ := there
    -- the event that is left is the one of the claim
    obtain rfl : left = row := List.inj_on_of_nodup_map rows.ids (events_sub.subset hleft) hrow
      (heq.trans hnumber.1.symm)
    exact ⟨left, hleft, hnumber⟩
  · intro device mem number hnumber row hrow notify after before
    have hclaimed := rows.passed device (devices_sub.subset mem) number hnumber row
      (events_sub.subset hrow) notify after before
    obtain ⟨claim, hclaim, hevent, hdevice⟩ := claimed_iff.mp hclaimed
    refine claimed_iff.mpr ⟨claim, List.mem_filter.mpr ⟨hclaim, ?_⟩, hevent, hdevice⟩
    rw [Bool.and_eq_true, find_isSome, find_isSome]
    exact ⟨⟨row, hrow, hevent.symm⟩, ⟨device, mem, hdevice.symm⟩⟩
  · intro entry mem
    obtain ⟨old, there⟩ := List.mem_filter.mp mem
    obtain ⟨left, hleft, heq⟩ := find_isSome.mp there
    obtain ⟨device, hdevice, hid, hlt⟩ := rows.kept entry old
    obtain rfl : left = device := List.inj_on_of_nodup_map rows.devices
      (devices_sub.subset hleft) hdevice (heq.trans hid.symm)
    exact ⟨left, hleft, hid, hlt⟩
  · have old := ok.calls i other hother
    -- the registration of a call that is under way stays
    have stays : other.phase.under = true → ∀ device ∈ w.devices, device.id = other.deviceId →
        device ∈ w.devices.filter fun device => !stale current device := by
      intro under device mem heq
      refine List.mem_filter.mpr ⟨mem, ?_⟩
      cases hstale : stale current device with
      | false => rfl
      | true =>
        have hover := apart device mem hstale i other hother heq.symm
        simp [under] at hover
    refine ⟨fun device hphase => ?_, fun latest hphase => ?_⟩
    · obtain ⟨heq, row, hrow, hid, hstart⟩ := old.found device hphase
      have under : other.phase.under = true := by simp [hphase, Phase.under]
      exact ⟨heq, row, stays under row hrow (hid.trans heq), hid, hstart⟩
    · have under : other.phase.under = true := by simp [hphase, Phase.under]
      obtain ⟨hle, hread⟩ := old.counted latest hphase
      refine ⟨hle, ?_⟩
      rcases hread with hsome | hread
      · obtain ⟨device, hdevice, heq⟩ := isSome_device.mp hsome
        exact .inl (isSome_device.mpr ⟨device, stays under device hdevice heq, heq⟩)
      · exact .inr fun number hnumber row hrow before =>
          hread number hnumber row (events_sub.subset hrow) before

/-! ## 7. Claims -/

/-- SELECT … WHERE events.id IN (…), of events that are some of the rows. -/
theorem filter_ids {rows chosen : List EventRow} (nodup : (rows.map EventRow.id).Nodup)
    (sub : chosen.Sublist rows) :
    (rows.filter fun row => row.id ∈ chosen.map EventRow.id) = chosen := by
  induction sub with
  | slnil => rfl
  | cons row sub ih =>
    rw [List.map_cons, List.nodup_cons] at nodup
    have hout : row.id ∉ List.map EventRow.id _ := fun mem => nodup.1 ((sub.map _).subset mem)
    rw [List.filter_cons_of_neg (by simpa using hout)]
    exact ih nodup.2
  | cons_cons row sub ih =>
    rw [List.map_cons, List.nodup_cons] at nodup
    rw [List.filter_cons_of_pos (by simp)]
    congr 1
    rw [← ih nodup.2]
    apply List.filter_congr
    intro other mem
    have hne : other.id ≠ row.id := by
      intro heq
      exact nodup.1 (heq ▸ List.mem_map.mpr ⟨other, mem, rfl⟩)
    rw [ih nodup.2]
    simp [hne]

/-- The candidates in the order of the rows. -/
def pending (w : NotificationStore) (device : NotificationDevice) : List EventRow :=
  w.events.filter fun event => event.event.notify && device.startSequence < event.sequence &&
    !claimed w.claims event.id device.id

theorem mem_pending {device : NotificationDevice} {event : EventRow} :
    event ∈ pending w device ↔ event ∈ w.events ∧ event.event.notify = true ∧
      device.startSequence < event.sequence ∧ claimed w.claims event.id device.id = false := by
  unfold pending
  rw [List.mem_filter]
  simp [and_assoc]

theorem candidates_eq (rows : Rows w) (device : NotificationDevice) :
    w.candidates device.id device.startSequence = pending w device :=
  insertionSort_byNumber (rows.numbers.sublist List.filter_sublist)

/-- What a claim comes to: it returns the first of the events that are pending. -/
theorem claimFound_eq (rows : Rows w) {device row : NotificationDevice} (mem : row ∈ w.devices)
    (hid : row.id = device.id) (limit : Int) (now : Nat) :
    w.claimFound device limit now = (.ok ((pending w device).take (safeLimit limit)),
      { w with
        devices := w.devices.map fun row =>
          if row.id = device.id then { row with lastSeenAt := now } else row
        claims := w.claims ++ ((pending w device).take (safeLimit limit)).map fun event =>
          ⟨event.id, device.id, now⟩
        answers := w.answers ++ [(device.id, (pending w device).take (safeLimit limit))] }) := by
  have sub : ((pending w device).take (safeLimit limit)).Sublist w.events :=
    (List.take_sublist _ _).trans List.filter_sublist
  have present : ¬ (w.device device.id).isNone = true := by
    have := isSome_device.mpr ⟨row, mem, hid⟩
    simp [Option.isSome_iff_ne_none.mp this]
  have inserted : insertClaims device.id now ((pending w device).take (safeLimit limit)) w.claims =
      _ := insertClaims_eq ((sub.map _).nodup rows.ids) fun event hevent =>
    (mem_pending.mp (List.mem_of_mem_take hevent)).2.2.2
  unfold NotificationStore.claimFound
  dsimp only
  rw [candidates_eq rows, if_neg fun h => present h.2, inserted]
  dsimp only
  rw [filter_ids rows.ids sub, insertionSort_byNumber (rows.numbers.sublist sub)]

theorem received_append (w : NotificationStore) (deviceId id : String)
    (rows : List EventRow) :
    received { w with answers := w.answers ++ [(deviceId, rows)] } id =
      received w id ++ if deviceId = id then rows.map EventRow.sequence else [] := by
  unfold received
  rw [List.filter_append, List.flatMap_append, List.map_append]
  by_cases heq : deviceId = id
  · simp [heq]
  · simp [heq]

/-- `last_seen_at` of one registration. -/
theorem touched {devices : List NotificationDevice} {id : String} {now : Nat} :
    (devices.map fun row => if row.id = id then { row with lastSeenAt := now } else row).map
        NotificationDevice.id = devices.map NotificationDevice.id ∧
      (∀ device ∈ devices.map fun row =>
          if row.id = id then { row with lastSeenAt := now } else row,
        ∃ old ∈ devices, old.id = device.id ∧ old.startSequence = device.startSequence) ∧
      ∀ old ∈ devices, ∃ device ∈ devices.map fun row =>
        if row.id = id then { row with lastSeenAt := now } else row,
        device.id = old.id ∧ device.startSequence = old.startSequence := by
  refine ⟨?_, fun device mem => ?_, fun old mem => ⟨_, List.mem_map.mpr ⟨old, mem, rfl⟩, ?_⟩⟩
  · rw [List.map_map]
    apply List.map_congr_left
    intro row _
    dsimp only [Function.comp]
    split <;> rfl
  · obtain ⟨old, hold, rfl⟩ := List.mem_map.mp mem
    refine ⟨old, hold, ?_⟩
    split <;> exact ⟨rfl, rfl⟩
  · split <;> exact ⟨rfl, rfl⟩

theorem Ok.claimFound (ok : Ok w) {device row : NotificationDevice} (mem : row ∈ w.devices)
    (hid : row.id = device.id) (hstart : row.startSequence = device.startSequence) (limit : Int)
    (now : Nat) : Ok (w.claimFound device limit now).2 := by
  have rows := ok.rows
  rw [claimFound_eq rows mem hid]
  generalize hchosen : (pending w device).take (safeLimit limit) = chosen
  have sub : chosen.Sublist w.events := hchosen ▸ (List.take_sublist _ _).trans List.filter_sublist
  have is_pending : ∀ event ∈ chosen, event ∈ pending w device := by
    intro event hevent
    rw [← hchosen] at hevent
    exact List.mem_of_mem_take hevent
  obtain ⟨ids, back, forth⟩ := @touched w.devices device.id now
  -- what is chosen comes after all that was received
  have after : ∀ number ∈ received w device.id, ∀ event ∈ chosen, number < event.sequence := by
    intro number hnumber event hevent
    obtain ⟨hmem, notify, hafter, hunclaimed⟩ := mem_pending.mp (is_pending event hevent)
    by_contra hle
    have hclaimed := rows.passed row mem number (hid ▸ hnumber) event hmem notify
      (hstart ▸ hafter) (Nat.not_lt.mp hle)
    rw [hid, hunclaimed] at hclaimed
    cases hclaimed
  have received_eq (id : String) := received_append w device.id id chosen
  have grows : ∀ id number, number ∈ received w id →
      number ∈ received { w with answers := w.answers ++ [(device.id, chosen)] } id := by
    intro id number hnumber
    rw [received_eq]
    exact List.mem_append_left _ hnumber
  have fresh : ∀ event ∈ chosen, event.sequence ∈
      received { w with answers := w.answers ++ [(device.id, chosen)] } device.id := by
    intro event hevent
    rw [received_eq, if_pos rfl]
    exact List.mem_append_right _ (List.mem_map.mpr ⟨event, hevent, rfl⟩)
  have received_inv : ∀ {id number},
      number ∈ received { w with answers := w.answers ++ [(device.id, chosen)] } id →
        number ∈ received w id ∨ device.id = id ∧ ∃ event ∈ chosen, event.sequence = number := by
    intro id number hnumber
    rw [received_eq] at hnumber
    rcases List.mem_append.mp hnumber with old | new
    · exact .inl old
    · split at new
      · rename_i heq
        exact .inr ⟨heq, List.mem_map.mp new⟩
      · cases new
  refine ⟨⟨rows.numbers, rows.ids, ids.symm ▸ rows.devices, rows.bounded, fun other hother => ?_,
    fun claim hclaim => ?_, fun id number hnumber => ?_, fun id => ?_,
    fun other hother number hnumber event hevent notify hafter hbefore => ?_,
    fun entry hentry => ?_⟩, fun i other hother => ?_⟩
  · obtain ⟨old, hold, -, heq⟩ := back other hother
    exact heq ▸ rows.started old hold
  · rcases List.mem_append.mp hclaim with old | new
    · obtain ⟨event, hevent, heq, hnumber⟩ := rows.claims claim old
      exact ⟨event, hevent, heq, grows _ _ hnumber⟩
    · obtain ⟨event, hevent, rfl⟩ := List.mem_map.mp new
      exact ⟨event, sub.subset hevent, rfl, fresh event hevent⟩
  · rcases received_inv hnumber with old | ⟨-, event, hevent, rfl⟩
    · exact rows.heard id number old
    · exact rows.bounded event (sub.subset hevent)
  · show (received { w with answers := w.answers ++ [(device.id, chosen)] } id).Pairwise (· < ·)
    rw [received_eq]
    split
    · rename_i heq
      rw [List.pairwise_append, List.pairwise_map]
      refine ⟨rows.increasing id, rows.numbers.sublist sub, fun number hnumber last hlast => ?_⟩
      obtain ⟨event, hevent, rfl⟩ := List.mem_map.mp hlast
      exact after number (heq ▸ hnumber) event hevent
    · rw [List.append_nil]
      exact rows.increasing id
  · obtain ⟨old, hold, holdid, holdstart⟩ := back other hother
    have claimed_mono : claimed w.claims event.id other.id = true →
        claimed (w.claims ++ chosen.map fun event => ⟨event.id, device.id, now⟩) event.id
          other.id = true := by
      intro h
      obtain ⟨claim, hclaim, hrest⟩ := claimed_iff.mp h
      exact claimed_iff.mpr ⟨claim, List.mem_append_left _ hclaim, hrest⟩
    rcases received_inv hnumber with hheard | ⟨heq, last, hlast, rfl⟩
    · apply claimed_mono
      rw [← holdid] at hheard ⊢
      exact rows.passed old hold number hheard event hevent notify (holdstart ▸ hafter) hbefore
    · cases hclaimed : claimed w.claims event.id other.id with
      | true => exact claimed_mono hclaimed
      | false =>
        -- it is pending and before one that was chosen, so it was chosen too
        have hsame : old = row := List.inj_on_of_nodup_map rows.devices hold mem
          (holdid.trans (heq.symm.trans hid.symm))
        have hpending : event ∈ pending w device := by
          refine mem_pending.mpr ⟨hevent, notify, ?_, heq ▸ hclaimed⟩
          rw [← hstart, ← hsame, holdstart]
          exact hafter
        have hchosen' : event ∈ chosen := by
          rw [← hchosen] at hlast ⊢
          exact mem_take_of_before (rows.numbers.sublist List.filter_sublist) hpending hlast hbefore
        exact claimed_iff.mpr ⟨⟨event.id, device.id, now⟩,
          List.mem_append_right _ (List.mem_map.mpr ⟨event, hchosen', rfl⟩), rfl, heq⟩
  · obtain ⟨old, hold, heq, hlt⟩ := rows.kept entry hentry
    obtain ⟨new, hnew, hnewid, hnewstart⟩ := forth old hold
    exact ⟨new, hnew, hnewid.trans heq, hnewstart ▸ hlt⟩
  · have old := ok.calls i other hother
    refine ⟨fun found hphase => ?_, fun latest hphase => ?_⟩
    · obtain ⟨heq, row, hrow, hrowid, hrowstart⟩ := old.found found hphase
      obtain ⟨new, hnew, hnewid, hnewstart⟩ := forth row hrow
      exact ⟨heq, new, hnew, hnewid.trans hrowid, hnewstart.trans hrowstart⟩
    · obtain ⟨hle, hread⟩ := old.counted latest hphase
      have there : ∀ registration ∈ w.devices, registration.id = other.deviceId →
          ∃ device' ∈ w.devices.map fun row =>
            if row.id = device.id then { row with lastSeenAt := now } else row,
            device'.id = other.deviceId := by
        intro registration hregistration heq
        obtain ⟨new, hnew, hnewid, -⟩ := forth registration hregistration
        exact ⟨new, hnew, hnewid.trans heq⟩
      refine ⟨hle, ?_⟩
      by_cases heq : device.id = other.deviceId
      · exact .inl (isSome_device.mpr (there row mem (hid.trans heq)))
      · rcases hread with hsome | hread
        · obtain ⟨registration, hregistration, hreg⟩ := isSome_device.mp hsome
          exact .inl (isSome_device.mpr (there registration hregistration hreg))
        · refine .inr fun number hnumber => hread number ?_
          rcases received_inv hnumber with hheard | ⟨hsame, -⟩
          · exact hheard
          · exact absurd hsame heq

/-! ## 8. Runs -/

theorem Ok.claimCleaned (ok : Ok w) (deviceId : String) (limit : Int) (now : Nat) :
    Ok (w.claimCleaned deviceId limit now).2 := by
  unfold NotificationStore.claimCleaned
  split
  · apply ok.register ok.rows.latest_le
    exact .inr fun _ _ row mem _ => le_latest mem
  · rename_i device hdevice
    exact ok.claimFound (device_of_some hdevice).1 rfl rfl limit now

theorem Ok.select (ok : Ok w) (deviceId : String) (limit : Int) (now : Nat) :
    Ok (w.setPhase j ⟨deviceId, limit, now, .missing⟩
      (match w.device deviceId with
        | none => .missing
        | some device => .found device)) := by
  apply ok.setPhase
  cases hdevice : w.device deviceId with
  | none => exact ⟨fun _ h => by simp at h, fun _ h => by simp at h⟩
  | some device =>
    obtain ⟨mem, heq⟩ := device_of_some hdevice
    refine ⟨fun found h => ?_, fun _ h => by simp at h⟩
    obtain rfl : device = found := by simpa using h
    exact ⟨heq, device, mem, rfl, rfl⟩

theorem Ok.step {act : Act} (ok : Ok w) (step : Guard Step Undisturbed w act w') : Ok w' := by
  obtain ⟨step, undisturbed⟩ := step
  cases step with
  | fileRunEvent run workspaceName now id _ fresh => exact ok.insertEvent fresh
  | remoteRunEvent run targetName now historical id fresh => exact ok.insertEvent fresh
  | prune current expired => exact ok.cleanup undisturbed expired
  | clean j deviceId limit now current expired _ =>
    exact ok.finish ((ok.cleanup undisturbed expired).claimCleaned deviceId limit now)
  | select j deviceId limit now _ => exact ok.select deviceId limit now
  | count found phase =>
    apply ok.setPhase
    refine ⟨fun _ h => by simp at h, fun latest h => ?_⟩
    obtain rfl : w.latest = latest := by simpa using h
    exact ⟨ok.rows.latest_le, .inr fun _ _ row mem _ => le_latest mem⟩
  | register found phase =>
    obtain ⟨hle, hread⟩ := (ok.calls _ _ found).counted _ phase
    exact ok.finish (ok.register hle hread)
  | claim found phase =>
    obtain ⟨-, row, mem, hid, hstart⟩ := (ok.calls _ _ found).found _ phase
    exact ok.finish (ok.claimFound mem hid hstart _ _)

/-- **Claims.** In every interleaving in which no registration is pruned under a call of its
    device: a device receives events in the order of their numbers, each once. An event of which
    devices are notified, that was inserted while the device was registered and whose registration
    still stands, was received or is a candidate of the next claim, and nothing that comes after it
    is received before it. -/
theorem claims_exact {acts : List Act} {w : NotificationStore}
    (run : Run (Guard Step Undisturbed) .new acts w) (deviceId : String) :
    (received w deviceId).Pairwise (· < ·) ∧
    ∀ event ∈ w.events, event.event.notify = true → (deviceId, event.sequence) ∈ w.kept →
      (event.sequence ∈ received w deviceId ∨ ∃ device, w.device deviceId = some device ∧
        event ∈ w.candidates deviceId device.startSequence) ∧
      ∀ number ∈ received w deviceId, event.sequence ≤ number →
        event.sequence ∈ received w deviceId := by
  have ok : Ok w := by
    apply run.invariant ?_ Ok.new
    intro _ _ _ step ok
    exact ok.step step
  have rows := ok.rows
  refine ⟨rows.increasing deviceId, fun event mem notify kept => ?_⟩
  obtain ⟨device, hdevice, rfl, hlt⟩ := rows.kept _ kept
  -- an event with a claim was received
  have heard : claimed w.claims event.id device.id = true →
      event.sequence ∈ received w device.id := by
    intro hclaimed
    obtain ⟨claim, hclaim, hevent, hdev⟩ := claimed_iff.mp hclaimed
    obtain ⟨row, hrow, heq, hnumber⟩ := rows.claims claim hclaim
    obtain rfl : row = event := List.inj_on_of_nodup_map rows.ids hrow mem (heq.trans hevent)
    exact hdev ▸ hnumber
  refine ⟨?_, fun number hnumber hle => ?_⟩
  · cases hclaimed : claimed w.claims event.id device.id with
    | true => exact .inl (heard hclaimed)
    | false =>
      refine .inr ⟨device, Table.find_of_mem rows.devices hdevice, ?_⟩
      rw [candidates_eq rows]
      exact mem_pending.mpr ⟨mem, notify, hlt, hclaimed⟩
  · exact heard (rows.passed device hdevice number hnumber event mem notify hlt hle)

/-- A File Run that failed. -/
def failedRun (id : String) (endedAt : Nat) : FileRun where
  id
  workspaceId := "workspace"
  idempotencyKey := id
  relativePath := "job.py"
  sourceDigest := ""
  runnerId := "python"
  runnerVersion := 1
  argv := []
  state := .failed
  lifecycleRevision := 1
  createdAt := endedAt
  startedAt := none
  stopRequestedAt := none
  endedAt := some (.utc endedAt)
  exitCode := some 1
  errorCode := none
  errorDetail := none

def day : Nat := 24 * 60 * 60

/-- A device that is not seen for 91 days. An event came on the 70th, and its next call prunes the
    registration, registers anew after that event, and is told of the one after it. -/
theorem pruned_registration :
    ∃ acts w, Run Step .new acts w ∧ ∃ event ∈ w.events, event.event.notify = true ∧
      ("phone", event.sequence) ∈ w.entitled ∧ ∃ number ∈ received w "phone",
        event.sequence ≤ number ∧ event.sequence ∉ received w "phone" := by
  refine ⟨[.select 0 "phone" 20 0, .count 0, .register 0,
    .fileRunEvent (failedRun "a" (70 * day)) "Workspace" (70 * day) "first",
    .clean 1 "phone" 20 (91 * day) (91 * day) fun _ => false,
    .fileRunEvent (failedRun "b" (92 * day)) "Workspace" (92 * day) "second",
    .select 2 "phone" 20 (92 * day), .claim 2], _,
    .snoc (.snoc (.snoc (.snoc (.snoc (.snoc (.snoc (.snoc .refl
      (.select 0 "phone" 20 0 rfl)) (.count rfl rfl))
      (.register rfl (by decide +kernel : _ = Phase.counted 0)))
      (.fileRunEvent _ _ _ _ rfl (by decide +kernel)))
      (.clean 1 "phone" 20 _ _ _ (by decide +kernel)))
      (.fileRunEvent _ _ _ _ rfl (by decide +kernel)))
      (.select 2 "phone" 20 _ (by decide +kernel)))
      (.claim rfl (by decide +kernel : _ = Phase.found ⟨"phone", 1, 91 * day, 91 * day⟩)), ?_⟩
  decide +kernel

/-- A call that may return one event, while a second one comes. -/
theorem claims_exact_limited :
    ∃ acts w, Run (Guard Step Undisturbed) .new acts w ∧ received w "phone" = [1] ∧
      (received w "phone").Pairwise (· < ·) ∧ ∀ event ∈ w.events, event.sequence = 2 →
        ∃ device, w.device "phone" = some device ∧
          event ∈ w.candidates "phone" device.startSequence := by
  obtain ⟨w, run, one, kept⟩ : ∃ w, Run (Guard Step Undisturbed) .new [.select 0 "phone" 1 0,
      .count 0, .register 0, .fileRunEvent (failedRun "a" 1) "Workspace" 1 "first",
      .select 1 "phone" 1 2, .fileRunEvent (failedRun "b" 2) "Workspace" 2 "second", .claim 1] w ∧
        received w "phone" = [1] ∧ ∀ event ∈ w.events, event.event.notify = true ∧
          ("phone", event.sequence) ∈ w.kept := by
    refine ⟨_, .snoc (.snoc (.snoc (.snoc (.snoc (.snoc (.snoc .refl
      ⟨.select 0 "phone" 1 0 rfl, trivial⟩) ⟨.count rfl rfl, trivial⟩)
      ⟨.register rfl (by decide +kernel : _ = Phase.counted 0), trivial⟩)
      ⟨.fileRunEvent _ _ _ _ rfl (by decide +kernel), trivial⟩)
      ⟨.select 1 "phone" 1 2 (by decide +kernel), trivial⟩)
      ⟨.fileRunEvent _ _ _ _ rfl (by decide +kernel), trivial⟩)
      ⟨.claim rfl (by decide +kernel : _ = Phase.found ⟨"phone", 0, 0, 0⟩), trivial⟩, ?_⟩
    decide +kernel
  obtain ⟨increasing, pending⟩ := claims_exact run "phone"
  refine ⟨_, w, run, one, increasing, fun event mem two => ?_⟩
  obtain ⟨notify, hkept⟩ := kept event mem
  rcases (pending event mem notify hkept).1 with hheard | hcandidate
  · rw [one, two] at hheard
    simp at hheard
  · exact hcandidate

end Termroom.Store.Notifications
