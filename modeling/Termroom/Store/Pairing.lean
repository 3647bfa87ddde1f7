import Mathlib.Data.List.Nodup
import Termroom.Conc.Run
import Termroom.Data.Table
import Termroom.Store.Tables

/-!
# Pairing a Node

A Node is paired in three requests (`db.py`). The user creates a code; the Node, which nobody has
authenticated, submits an enrollment with the code and its public key; the user approves or rejects
the enrollment. Approving creates the computer.

Each request is one transaction with SQLite's write lock, and leaves no trace if it raises, so
the requests of all parties interleave as whole transactions. `pairing_single_use` says that
nothing happens twice: a code is consumed once, it has one enrollment, a public key has one
computer, an enrollment is decided once, and approving it again only returns its computer.
-/

set_option autoImplicit false

namespace Termroom.Store.Pairing

open Conc Data

/-! ## 1. The tables -/

/-- A `node_pairing_codes` row. -/
structure PairingCode where
  id : String
  codeHash : String
  createdAt : Nat
  expiresAt : Nat
  consumedAt : Option Nat
  deriving DecidableEq, Repr

inductive Status where
  | pending
  | approved
  | rejected
  deriving DecidableEq, Repr

/-- A `node_enrollments` row. -/
structure Enrollment where
  id : String
  pairingCodeId : String
  name : String
  publicKey : String
  fingerprint : String
  protocolVersion : Int
  pollingSecretHash : String
  status : Status
  computerId : Option String
  createdAt : Nat
  decidedAt : Option Nat
  deriving DecidableEq, Repr

/-- A `computers` row. The columns that only SSH computers use are left out. -/
structure NodeComputer where
  id : String
  name : String
  /-- `connection_method` is `node`. -/
  node : Bool
  publicKey : String
  fingerprint : String
  protocolVersion : Option Int
  createdAt : Nat
  deriving DecidableEq, Repr

structure PairingTables where
  codes : List PairingCode
  enrollments : List Enrollment
  computers : List NodeComputer
  deriving DecidableEq, Repr

/-- `idx_computers_node_public_key`, which leaves out the computers that are no Nodes. -/
def NodeComputer.indexKey (computer : NodeComputer) : Option String :=
  if computer.node then some computer.publicKey else none

inductive PairingError where
  | unknown (message : String)
  | runtime (message : String)
  | value (message : String)
  | integrity
  /-- A locked database, a full disk. -/
  | database
  deriving DecidableEq, Repr

/-! ## 2. The requests -/

/-- `unicodedata.category(character) in {"Cc", "Zl", "Zp"}`. -/
def breaksLine (c : Char) : Bool :=
  let n := c.toNat
  n ≤ 0x1f || (0x7f ≤ n && n ≤ 0x9f) || n = 0x2028 || n = 0x2029

/-- `normalize_computer_name`. -/
def normalizeComputerName (value : String) : Except PairingError String :=
  let name := strip value.toList
  if name = [] ∨ name.length > 80 ∨ name.any breaksLine then
    .error (.value "Computer display name must be a single line of 1 to 80 characters")
  else .ok (String.ofList name)

namespace PairingTables

variable (T : PairingTables)

/-- INSERT into `node_pairing_codes`. -/
def insertCode (code : PairingCode) : Except PairingError PairingTables :=
  if T.codes.any fun c => c.id = code.id || c.codeHash = code.codeHash then .error .integrity
  else .ok { T with codes := T.codes ++ [code] }

/-- INSERT into `node_enrollments`. -/
def insertEnrollment (enrollment : Enrollment) : Except PairingError PairingTables :=
  if T.enrollments.any fun e =>
      e.id = enrollment.id || e.pairingCodeId = enrollment.pairingCodeId then .error .integrity
  else if T.codes.all fun c => c.id ≠ enrollment.pairingCodeId then .error .integrity
  else .ok { T with enrollments := T.enrollments ++ [enrollment] }

/-- INSERT into `computers`. -/
def insertComputer (computer : NodeComputer) : Except PairingError PairingTables :=
  if T.computers.any fun c => c.id = computer.id then .error .integrity
  else if Table.clashes NodeComputer.id NodeComputer.indexKey computer T.computers then
    .error .integrity
  else .ok { T with computers := T.computers ++ [computer] }

/-- DELETE of expired codes that were not consumed, with their enrollments. -/
def deleteExpired (now : Nat) : PairingTables :=
  let gone := fun code : PairingCode => decide (code.expiresAt < now) && code.consumedAt.isNone
  { T with
    codes := T.codes.filter fun code => !gone code
    enrollments := T.enrollments.filter fun enrollment =>
      !T.codes.any fun code => gone code && code.id = enrollment.pairingCodeId }

def createNodePairingCode (pairingId : String) (now : Nat) (codeHash : String)
    (expiresAt : Nat) : Except PairingError (PairingCode × PairingTables) :=
  let code : PairingCode := ⟨pairingId, codeHash, now, expiresAt, none⟩
  ((T.deleteExpired now).insertCode code).map fun T => (code, T)

/-- What a Node sends. -/
structure Submission where
  codeHash : String
  name : String
  publicKey : String
  fingerprint : String
  protocolVersion : Int
  pollingSecretHash : String
  deriving DecidableEq, Repr

/-- `consumed_at IS NULL`, of the row with this id. -/
def unconsumed (id : String) (code : PairingCode) : Bool :=
  code.id = id && code.consumedAt.isNone

def submitNodeEnrollment (enrollmentId : String) (now : Nat) (submission : Submission) :
    Except PairingError (Option Enrollment × PairingTables) :=
  match T.codes.find? fun code =>
    code.codeHash = submission.codeHash && code.consumedAt.isNone &&
      decide (now ≤ code.expiresAt) with
  | none => .ok (none, T)
  | some pairing =>
    if T.computers.any fun computer => computer.publicKey = submission.publicKey then
      .ok (none, T)
    else
      let consume := fun code : PairingCode =>
        if unconsumed pairing.id code then { code with consumedAt := some now } else code
      let consumed := { T with codes := T.codes.map consume }
      if (T.codes.filter (unconsumed pairing.id)).length ≠ 1 then .ok (none, consumed)
      else
        (normalizeComputerName submission.name).bind fun name =>
          let enrollment : Enrollment :=
            ⟨enrollmentId, pairing.id, name, submission.publicKey, submission.fingerprint,
              submission.protocolVersion, submission.pollingSecretHash, .pending, none, now, none⟩
          (consumed.insertEnrollment enrollment).map fun T => (some enrollment, T)

/-- What the UPDATE of an approval and of a rejection set. -/
def approved (computerId : String) (now : Nat) (enrollment : Enrollment) : Enrollment :=
  { enrollment with status := .approved, computerId := some computerId, decidedAt := some now }

def rejected (now : Nat) (enrollment : Enrollment) : Enrollment :=
  { enrollment with status := .rejected, decidedAt := some now }

/-- UPDATE of the enrollment with this id, if it is pending. -/
def updatePending (enrollmentId : String) (set : Enrollment → Enrollment) : PairingTables :=
  let update := fun enrollment : Enrollment =>
    if enrollment.id = enrollmentId ∧ enrollment.status = .pending then set enrollment
    else enrollment
  { T with enrollments := T.enrollments.map update }

def approveNodeEnrollment (computerId : String) (now : Nat) (enrollmentId : String) :
    Except PairingError (NodeComputer × PairingTables) :=
  match Table.find Enrollment.id enrollmentId T.enrollments with
  | none => .error (.unknown ("Unknown Node enrollment: " ++ enrollmentId))
  | some enrollment =>
    if enrollment.status ≠ .pending then
      match if enrollment.status = .approved then
          enrollment.computerId.bind fun id => Table.find NodeComputer.id id T.computers
        else none with
      | some computer => .ok (computer, T)
      | none => .error (.runtime "Node enrollment is no longer pending")
    else if T.computers.any fun computer => computer.publicKey = enrollment.publicKey then
      .error (.runtime "This Node identity is already registered")
    else
      let computer : NodeComputer :=
        ⟨computerId, enrollment.name, true, enrollment.publicKey, enrollment.fingerprint,
          some enrollment.protocolVersion, now⟩
      (T.insertComputer computer).map fun T =>
        (computer, T.updatePending enrollmentId (approved computerId now))

def rejectNodeEnrollment (now : Nat) (enrollmentId : String) :
    Except PairingError (Unit × PairingTables) :=
  if T.enrollments.any fun enrollment =>
      enrollment.id = enrollmentId && enrollment.status = .pending then
    .ok ((), T.updatePending enrollmentId (rejected now))
  else .error (.runtime "Node enrollment is no longer pending")

end PairingTables

/-! ## 3. Runs -/

inductive Act where
  | create (pairingId : String) (now : Nat) (codeHash : String) (expiresAt : Nat)
  | submit (enrollmentId : String) (now : Nat) (submission : PairingTables.Submission)
  | approve (computerId : String) (now : Nat) (enrollmentId : String)
  | reject (now : Nat) (enrollmentId : String)
  deriving DecidableEq

/-- The tables that a request commits, or what it raises. -/
def PairingTables.transact (T : PairingTables) : Act → Except PairingError PairingTables
  | .create pairingId now codeHash expiresAt =>
      (T.createNodePairingCode pairingId now codeHash expiresAt).map Prod.snd
  | .submit enrollmentId now submission =>
      (T.submitNodeEnrollment enrollmentId now submission).map Prod.snd
  | .approve computerId now enrollmentId =>
      (T.approveNodeEnrollment computerId now enrollmentId).map Prod.snd
  | .reject now enrollmentId => (T.rejectNodeEnrollment now enrollmentId).map Prod.snd

namespace PairingTables

variable (T : PairingTables)

/-- The codes that are consumed. -/
def consumedHashes : List String := (T.codes.filter (·.consumedAt.isSome)).map (·.codeHash)

/-- The codes that have an enrollment, with its id. -/
def enrolledCodes : List (String × String) := T.enrollments.map fun e => (e.pairingCodeId, e.id)

/-- The public keys that have a computer, with its id. -/
def nodeKeys : List (String × String) :=
  (T.computers.filter (·.node)).map fun computer => (computer.publicKey, computer.id)

/-- The enrollments that are not pending. -/
def decidedIds : List String := (T.enrollments.filter (·.status ≠ .pending)).map (·.id)

end PairingTables

/-- The tables, and what ever happened: the codes consumed, the enrollments and the computers that
    there were, and the enrollments that left `pending`, each in order. -/
structure PairingWorld where
  tables : PairingTables
  consumed : List String
  enrolled : List (String × String)
  registered : List (String × String)
  decided : List String

/-- What is in the second list and was not in the first. -/
def gained {α : Type} [DecidableEq α] (before after : List α) : List α :=
  after.filter (· ∉ before)

namespace PairingWorld

/-- Nobody has asked for a code yet. -/
def start (computers : List NodeComputer) : PairingWorld :=
  let T : PairingTables := ⟨[], [], computers⟩
  ⟨T, [], [], T.nodeKeys, []⟩

def commit (w : PairingWorld) (T : PairingTables) : PairingWorld :=
  { tables := T
    consumed := w.consumed ++ gained w.tables.consumedHashes T.consumedHashes
    enrolled := w.enrolled ++ gained w.tables.enrolledCodes T.enrolledCodes
    registered := w.registered ++ gained w.tables.nodeKeys T.nodeKeys
    decided := w.decided ++ gained w.tables.decidedIds T.decidedIds }

end PairingWorld

/-- A request commits, or it raises, for its own reasons or for SQLite's, and is rolled back. -/
inductive Step (w : PairingWorld) : Act → PairingWorld → Prop
  | commits {act : Act} {T : PairingTables} (done : w.tables.transact act = .ok T) :
      Step w act (w.commit T)
  | raises (act : Act) : Step w act w

/-! ## 4. What the tables keep -/

namespace PairingTables

variable {T T' : PairingTables}

/-- The constraints of the tables, and what the requests keep besides: the code of an enrollment is
    consumed, and an approved enrollment has a computer. -/
structure Ok (T : PairingTables) : Prop where
  codeIds : (T.codes.map (·.id)).Nodup
  codeHashes : (T.codes.map (·.codeHash)).Nodup
  enrollmentIds : (T.enrollments.map (·.id)).Nodup
  enrollmentCodes : (T.enrollments.map (·.pairingCodeId)).Nodup
  computerIds : (T.computers.map (·.id)).Nodup
  computerKeys : ((T.computers.filter (·.node)).map (·.publicKey)).Nodup
  consumed : ∀ enrollment ∈ T.enrollments, ∃ code ∈ T.codes,
    code.id = enrollment.pairingCodeId ∧ code.consumedAt.isSome

/-- Nothing that happened is undone. -/
structure Keeps (T T' : PairingTables) : Prop where
  codes : ∀ code ∈ T.codes, code.consumedAt.isSome → code ∈ T'.codes
  enrollments : ∀ before ∈ T.enrollments, ∃ after ∈ T'.enrollments, after.id = before.id ∧
    after.pairingCodeId = before.pairingCodeId ∧ (before.status ≠ .pending → after = before)
  computers : ∀ computer ∈ T.computers, computer ∈ T'.computers

theorem Keeps.refl (T : PairingTables) : T.Keeps T :=
  ⟨fun _ h _ => h, fun before h => ⟨before, h, rfl, rfl, fun _ => rfl⟩, fun _ h => h⟩

theorem Keeps.trans {T'' : PairingTables} (h : T.Keeps T') (h' : T'.Keeps T'') : T.Keeps T'' := by
  refine ⟨fun code hcode hc => h'.codes code (h.codes code hcode hc) hc, fun before hbefore => ?_,
    fun computer hcomputer => h'.computers _ (h.computers _ hcomputer)⟩
  obtain ⟨middle, hmiddle, hid, hcode, hsame⟩ := h.enrollments before hbefore
  obtain ⟨after, hafter, hid', hcode', hsame'⟩ := h'.enrollments middle hmiddle
  refine ⟨after, hafter, hid'.trans hid, hcode'.trans hcode, fun hdecided => ?_⟩
  have heq := hsame hdecided
  subst heq
  exact hsame' hdecided

/-! ### The statements -/

theorem deleteExpired_kept (h : T.Ok) (now : Nat) :
    (T.deleteExpired now).Ok ∧ T.Keeps (T.deleteExpired now) := by
  have hcodes : (T.deleteExpired now).codes.Sublist T.codes := List.filter_sublist
  have henrollments : (T.deleteExpired now).enrollments.Sublist T.enrollments :=
    List.filter_sublist
  have stays (code : PairingCode) (hcode : code ∈ T.codes) (hconsumed : code.consumedAt.isSome) :
      code ∈ (T.deleteExpired now).codes := by
    refine List.mem_filter.mpr ⟨hcode, ?_⟩
    cases hc : code.consumedAt <;> simp [hc] at hconsumed ⊢
  refine ⟨⟨(hcodes.map _).nodup h.codeIds, (hcodes.map _).nodup h.codeHashes,
    (henrollments.map _).nodup h.enrollmentIds, (henrollments.map _).nodup h.enrollmentCodes,
    h.computerIds, h.computerKeys, fun enrollment hmem => ?_⟩, stays, fun before hbefore => ?_,
    fun _ h => h⟩
  · obtain ⟨code, hcode, hid, hconsumed⟩ := h.consumed enrollment (henrollments.subset hmem)
    exact ⟨code, stays code hcode hconsumed, hid, hconsumed⟩
  · -- its code is consumed, so it is not one of those that are deleted
    refine ⟨before, List.mem_filter.mpr ⟨hbefore, ?_⟩, rfl, rfl, fun _ => rfl⟩
    obtain ⟨code, hcode, hid, hconsumed⟩ := h.consumed before hbefore
    simp only [Bool.not_eq_true', List.any_eq_false, Bool.and_eq_true, decide_eq_true_eq, not_and]
    intro other hother hgone hsame
    have heq : other = code :=
      List.inj_on_of_nodup_map h.codeIds hother hcode (hsame.trans hid.symm)
    subst heq
    cases hc : other.consumedAt <;> simp [hc] at hconsumed hgone

theorem insertCode_kept (h : T.Ok) {code : PairingCode} (done : T.insertCode code = .ok T') :
    T'.Ok ∧ T.Keeps T' := by
  unfold insertCode at done
  split at done
  · simp at done
  · rename_i hnew
    obtain rfl := Except.ok.inj done
    simp only [List.any_eq_true, Bool.or_eq_true, decide_eq_true_eq, not_exists, not_and,
      not_or] at hnew
    refine ⟨⟨?_, ?_, h.enrollmentIds, h.enrollmentCodes, h.computerIds, h.computerKeys,
      fun enrollment hmem => ?_⟩, fun other hother _ => List.mem_append_left _ hother,
      fun before hbefore => ⟨before, hbefore, rfl, rfl, fun _ => rfl⟩, fun _ h => h⟩
    · rw [List.map_append]
      exact List.nodup_append.mpr ⟨h.codeIds, by simp, by simpa using fun c hc => (hnew c hc).1⟩
    · rw [List.map_append]
      exact List.nodup_append.mpr ⟨h.codeHashes, by simp, by simpa using fun c hc => (hnew c hc).2⟩
    · obtain ⟨other, hother, hrest⟩ := h.consumed enrollment hmem
      exact ⟨other, List.mem_append_left _ hother, hrest⟩

/-- A statement that changes the codes and leaves their keys, and what is consumed, alone. -/
theorem updateCodes_kept (h : T.Ok) {set : PairingCode → PairingCode}
    (hid : ∀ code, (set code).id = code.id) (hhash : ∀ code, (set code).codeHash = code.codeHash)
    (hset : ∀ code ∈ T.codes, code.consumedAt.isSome → set code = code) :
    Ok { T with codes := T.codes.map set } ∧ T.Keeps { T with codes := T.codes.map set } := by
  have stays (code : PairingCode) (hcode : code ∈ T.codes) (hconsumed : code.consumedAt.isSome) :
      code ∈ T.codes.map set :=
    List.mem_map.mpr ⟨code, hcode, hset code hcode hconsumed⟩
  have hids : (T.codes.map set).map (·.id) = T.codes.map (·.id) := by
    rw [List.map_map]
    exact List.map_congr_left fun code _ => hid code
  have hhashes : (T.codes.map set).map (·.codeHash) = T.codes.map (·.codeHash) := by
    rw [List.map_map]
    exact List.map_congr_left fun code _ => hhash code
  refine ⟨⟨hids ▸ h.codeIds, hhashes ▸ h.codeHashes, h.enrollmentIds, h.enrollmentCodes,
    h.computerIds, h.computerKeys, fun enrollment hmem => ?_⟩, stays,
    fun before hbefore => ⟨before, hbefore, rfl, rfl, fun _ => rfl⟩, fun _ h => h⟩
  obtain ⟨code, hcode, hkey, hconsumed⟩ := h.consumed enrollment hmem
  exact ⟨code, stays code hcode hconsumed, hkey, hconsumed⟩

theorem insertEnrollment_kept (h : T.Ok) {enrollment : Enrollment}
    (consumed : ∃ code ∈ T.codes, code.id = enrollment.pairingCodeId ∧ code.consumedAt.isSome)
    (done : T.insertEnrollment enrollment = .ok T') : T'.Ok ∧ T.Keeps T' := by
  unfold insertEnrollment at done
  split at done
  · simp at done
  · rename_i hnew
    split at done
    · simp at done
    · obtain rfl := Except.ok.inj done
      simp only [List.any_eq_true, Bool.or_eq_true, decide_eq_true_eq, not_exists, not_and,
        not_or] at hnew
      refine ⟨⟨h.codeIds, h.codeHashes, ?_, ?_, h.computerIds, h.computerKeys,
        fun other hmem => ?_⟩, fun _ h _ => h, fun before hbefore =>
        ⟨before, List.mem_append_left _ hbefore, rfl, rfl, fun _ => rfl⟩, fun _ h => h⟩
      · rw [List.map_append]
        exact List.nodup_append.mpr
          ⟨h.enrollmentIds, by simp, by simpa using fun e he => (hnew e he).1⟩
      · rw [List.map_append]
        exact List.nodup_append.mpr
          ⟨h.enrollmentCodes, by simp, by simpa using fun e he => (hnew e he).2⟩
      · rcases List.mem_append.mp hmem with hold | hmem
        · exact h.consumed other hold
        · obtain rfl := List.mem_singleton.mp hmem
          exact consumed

theorem insertComputer_kept (h : T.Ok) {computer : NodeComputer}
    (done : T.insertComputer computer = .ok T') :
    T'.Ok ∧ T.Keeps T' ∧ T' = { T with computers := T.computers ++ [computer] } := by
  unfold insertComputer at done
  split at done
  · simp at done
  · rename_i hnew
    split at done
    · simp at done
    · rename_i hclash
      obtain rfl := Except.ok.inj done
      simp only [List.any_eq_true, decide_eq_true_eq, not_exists, not_and] at hnew
      have hclash := Table.clashes_eq_false.mp (by simpa using hclash)
      refine ⟨⟨h.codeIds, h.codeHashes, h.enrollmentIds, h.enrollmentCodes, ?_, ?_, h.consumed⟩,
        ⟨fun _ h _ => h, fun before hbefore => ⟨before, hbefore, rfl, rfl, fun _ => rfl⟩,
          fun _ hmem => List.mem_append_left _ hmem⟩, rfl⟩
      · rw [List.map_append]
        exact List.nodup_append.mpr ⟨h.computerIds, by simp, by simpa using hnew⟩
      · rw [List.filter_append, List.map_append]
        refine List.nodup_append.mpr ⟨h.computerKeys, ?_, ?_⟩
        · cases hnode : computer.node <;> simp [hnode]
        · -- another Node with the key would clash in the index
          intro key hkey key' hkey'
          obtain ⟨other, hother, rfl⟩ := List.mem_map.mp hkey
          obtain ⟨hmem, hnode⟩ := List.mem_filter.mp hother
          cases hnew' : computer.node with
          | false => simp [hnew'] at hkey'
          | true =>
            obtain rfl : computer.publicKey = key' := by simpa [hnew', eq_comm] using hkey'
            rcases hclash other hmem (hnew other hmem) with hnone | hne
            · simp [NodeComputer.indexKey, hnode] at hnone
            · simpa [NodeComputer.indexKey, hnode, hnew'] using hne

theorem updatePending_kept (h : T.Ok) (enrollmentId : String) {set : Enrollment → Enrollment}
    (hid : ∀ enrollment, (set enrollment).id = enrollment.id)
    (hcode : ∀ enrollment, (set enrollment).pairingCodeId = enrollment.pairingCodeId) :
    (T.updatePending enrollmentId set).Ok ∧ T.Keeps (T.updatePending enrollmentId set) := by
  let update := fun enrollment : Enrollment =>
    if enrollment.id = enrollmentId ∧ enrollment.status = .pending then set enrollment
    else enrollment
  have hid' (enrollment : Enrollment) : (update enrollment).id = enrollment.id := by
    simp only [update]
    split
    · exact hid _
    · rfl
  have hcode' (enrollment : Enrollment) :
      (update enrollment).pairingCodeId = enrollment.pairingCodeId := by
    simp only [update]
    split
    · exact hcode _
    · rfl
  have hids : (T.enrollments.map update).map (·.id) = T.enrollments.map (·.id) := by
    rw [List.map_map]
    exact List.map_congr_left fun enrollment _ => hid' enrollment
  have hcodes : (T.enrollments.map update).map (·.pairingCodeId) =
      T.enrollments.map (·.pairingCodeId) := by
    rw [List.map_map]
    exact List.map_congr_left fun enrollment _ => hcode' enrollment
  refine ⟨⟨h.codeIds, h.codeHashes, hids ▸ h.enrollmentIds, hcodes ▸ h.enrollmentCodes,
    h.computerIds, h.computerKeys, fun enrollment hmem => ?_⟩, fun _ h _ => h,
    fun before hbefore => ⟨update before, List.mem_map_of_mem hbefore, hid' before,
      hcode' before, fun hdecided => ?_⟩, fun _ h => h⟩
  · obtain ⟨before, hbefore, rfl⟩ := List.mem_map.mp hmem
    obtain ⟨code, hcodes, hkey, hconsumed⟩ := h.consumed before hbefore
    exact ⟨code, hcodes, hkey.trans (hcode' before).symm, hconsumed⟩
  · exact if_neg fun hpending => hdecided hpending.2

/-! ### The requests -/

theorem map_ok {α β : Type} {f : α → β} {r : Except PairingError α} {b : β}
    (h : r.map f = .ok b) : ∃ a, r = .ok a ∧ f a = b := by
  cases r with
  | error e => simp [Except.map] at h
  | ok a => exact ⟨a, rfl, by simpa [Except.map] using h⟩

theorem submit_kept (h : T.Ok) {enrollmentId : String} {now : Nat} {submission : Submission}
    {result : Option Enrollment}
    (done : T.submitNodeEnrollment enrollmentId now submission = .ok (result, T')) :
    T'.Ok ∧ T.Keeps T' := by
  unfold submitNodeEnrollment at done
  split at done
  · obtain ⟨_, rfl⟩ := by simpa using done
    exact ⟨h, .refl T⟩
  · rename_i pairing hfound
    have hpairing := List.mem_of_find?_eq_some hfound
    have hunconsumed : pairing.consumedAt = none := by
      have hmatch := List.find?_some hfound
      simp only [Bool.and_eq_true, Option.isNone_iff_eq_none] at hmatch
      exact hmatch.1.2
    split at done
    · obtain ⟨_, rfl⟩ := by simpa using done
      exact ⟨h, .refl T⟩
    · let consume := fun code : PairingCode =>
        if unconsumed pairing.id code then { code with consumedAt := some now } else code
      have consumed : Ok { T with codes := T.codes.map consume } ∧
          T.Keeps { T with codes := T.codes.map consume } := by
        refine updateCodes_kept h (fun code => ?_) (fun code => ?_) fun code _ hconsumed => ?_
        · simp only [consume]
          split <;> rfl
        · simp only [consume]
          split <;> rfl
        · apply if_neg
          cases hc : code.consumedAt <;> simp [unconsumed, hc] at hconsumed ⊢
      simp only at done
      split at done
      · obtain ⟨_, rfl⟩ := by simpa using done
        exact consumed
      · cases hname : normalizeComputerName submission.name with
        | error e => simp [hname, Except.bind] at done
        | ok name =>
          simp only [hname, Except.bind] at done
          obtain ⟨T₁, hinsert, heq⟩ := map_ok done
          obtain ⟨_, rfl⟩ := Prod.mk.inj heq
          -- the code that was found is the one that is consumed
          have hcode : consume pairing = { pairing with consumedAt := some now } :=
            if_pos (by simp [unconsumed, hunconsumed])
          obtain ⟨hok, hkeeps⟩ := insertEnrollment_kept consumed.1
            ⟨consume pairing, List.mem_map_of_mem hpairing, by simp [hcode], by simp [hcode]⟩
            hinsert
          exact ⟨hok, consumed.2.trans hkeeps⟩

theorem approve_kept (h : T.Ok) {computerId enrollmentId : String} {now : Nat}
    {computer : NodeComputer}
    (done : T.approveNodeEnrollment computerId now enrollmentId = .ok (computer, T')) :
    T'.Ok ∧ T.Keeps T' := by
  unfold approveNodeEnrollment at done
  split at done
  · simp at done
  · split at done
    · split at done
      · obtain ⟨_, rfl⟩ := by simpa using done
        exact ⟨h, .refl T⟩
      · simp at done
    · split at done
      · simp at done
      · obtain ⟨T₁, hinsert, heq⟩ := map_ok done
        obtain ⟨_, rfl⟩ := Prod.mk.inj heq
        obtain ⟨hok, hkeeps, _⟩ := insertComputer_kept h hinsert
        have hset (enrollment : Enrollment) :
            (approved computerId now enrollment).id = enrollment.id := rfl
        obtain ⟨hok', hkeeps'⟩ := updatePending_kept hok enrollmentId hset fun _ => rfl
        exact ⟨hok', hkeeps.trans hkeeps'⟩

theorem transact_kept (h : T.Ok) {act : Act} (done : T.transact act = .ok T') :
    T'.Ok ∧ T.Keeps T' := by
  cases act with
  | create pairingId now codeHash expiresAt =>
    obtain ⟨⟨code, T₁⟩, hcreate, rfl⟩ := map_ok done
    obtain ⟨T₂, hinsert, heq⟩ := map_ok hcreate
    obtain ⟨rfl, rfl⟩ := Prod.mk.inj heq
    obtain ⟨hok, hkeeps⟩ := deleteExpired_kept h now
    obtain ⟨hok', hkeeps'⟩ := insertCode_kept hok hinsert
    exact ⟨hok', hkeeps.trans hkeeps'⟩
  | submit enrollmentId now submission =>
    obtain ⟨⟨result, T₁⟩, hsubmit, rfl⟩ := map_ok done
    exact submit_kept h hsubmit
  | approve computerId now enrollmentId =>
    obtain ⟨⟨computer, T₁⟩, happrove, rfl⟩ := map_ok done
    exact approve_kept h happrove
  | reject now enrollmentId =>
    obtain ⟨⟨_, T₁⟩, hreject, rfl⟩ := map_ok done
    unfold rejectNodeEnrollment at hreject
    split at hreject
    · obtain rfl := (Prod.mk.inj (Except.ok.inj hreject)).2
      exact updatePending_kept h enrollmentId (fun _ => rfl) fun _ => rfl
    · simp at hreject

/-! ### Approvals -/

/-- The enrollment is approved, and the computer is its. -/
def Approved (T : PairingTables) (enrollmentId : String) (computer : NodeComputer) : Prop :=
  computer ∈ T.computers ∧ ∃ enrollment ∈ T.enrollments, enrollment.id = enrollmentId ∧
    enrollment.status = .approved ∧ enrollment.computerId = some computer.id

theorem Approved.keeps {enrollmentId : String} {computer : NodeComputer}
    (h : T.Approved enrollmentId computer) (keeps : T.Keeps T') :
    T'.Approved enrollmentId computer := by
  obtain ⟨hcomputer, enrollment, hmem, hid, hstatus, hkey⟩ := h
  obtain ⟨after, hafter, _, _, hsame⟩ := keeps.enrollments enrollment hmem
  obtain rfl := hsame (by simp [hstatus])
  exact ⟨keeps.computers computer hcomputer, after, hafter, hid, hstatus, hkey⟩

/-- Approving it again. -/
theorem Approved.replay {enrollmentId : String} {computer : NodeComputer} (ok : T.Ok)
    (h : T.Approved enrollmentId computer) (computerId : String) (now : Nat) :
    T.approveNodeEnrollment computerId now enrollmentId = .ok (computer, T) := by
  obtain ⟨hcomputer, enrollment, hmem, rfl, hstatus, hkey⟩ := h
  have hfound := Table.find_of_mem ok.enrollmentIds hmem
  have hfound' := Table.find_of_mem ok.computerIds hcomputer
  simp [approveNodeEnrollment, hfound, hstatus, hkey, hfound']

theorem approve_approved (h : T.Ok) {computerId enrollmentId : String} {now : Nat}
    {computer : NodeComputer}
    (done : T.approveNodeEnrollment computerId now enrollmentId = .ok (computer, T')) :
    T'.Approved enrollmentId computer := by
  unfold approveNodeEnrollment at done
  split at done
  · simp at done
  · rename_i enrollment hfound
    have hmem := Table.find_mem hfound
    have hid := Table.find_key hfound
    split at done
    · split at done
      · rename_i found hcomputer
        obtain ⟨rfl, rfl⟩ := by simpa using done
        split at hcomputer
        · rename_i hstatus
          obtain ⟨key, hkey, hfind⟩ := Option.bind_eq_some_iff.mp hcomputer
          refine ⟨Table.find_mem hfind, enrollment, hmem, hid, hstatus, ?_⟩
          rw [hkey, Table.find_key hfind]
        · simp at hcomputer
      · simp at done
    · rename_i hpending
      have hpending : enrollment.status = .pending := by simpa using hpending
      split at done
      · simp at done
      · obtain ⟨T₁, hinsert, heq⟩ := map_ok done
        obtain ⟨rfl, rfl⟩ := Prod.mk.inj heq
        obtain ⟨_, _, rfl⟩ := insertComputer_kept h hinsert
        refine ⟨by simp [updatePending], approved computerId now enrollment, ?_, hid, rfl, rfl⟩
        exact List.mem_map.mpr ⟨enrollment, hmem, if_pos ⟨hid, hpending⟩⟩

/-! ### What there was -/

theorem Ok.consumedHashes (h : T.Ok) : T.consumedHashes.Nodup :=
  (List.filter_sublist.map _).nodup h.codeHashes

theorem Ok.enrolledCodes (h : T.Ok) : T.enrolledCodes.Nodup := by
  apply List.Nodup.of_map Prod.snd
  simpa [PairingTables.enrolledCodes, Function.comp_def] using h.enrollmentIds

theorem Ok.nodeKeys (h : T.Ok) : T.nodeKeys.Nodup := by
  apply List.Nodup.of_map Prod.fst
  simpa [PairingTables.nodeKeys, Function.comp_def] using h.computerKeys

theorem Ok.decidedIds (h : T.Ok) : T.decidedIds.Nodup :=
  (List.filter_sublist.map _).nodup h.enrollmentIds

theorem Keeps.consumedHashes (h : T.Keeps T') {hash : String} (hmem : hash ∈ T.consumedHashes) :
    hash ∈ T'.consumedHashes := by
  obtain ⟨code, hcode, rfl⟩ := List.mem_map.mp hmem
  obtain ⟨hcode, hconsumed⟩ := List.mem_filter.mp hcode
  exact List.mem_map.mpr ⟨code, List.mem_filter.mpr ⟨h.codes code hcode hconsumed, hconsumed⟩, rfl⟩

theorem Keeps.enrolledCodes (h : T.Keeps T') {pair : String × String}
    (hmem : pair ∈ T.enrolledCodes) : pair ∈ T'.enrolledCodes := by
  obtain ⟨before, hbefore, rfl⟩ := List.mem_map.mp hmem
  obtain ⟨after, hafter, hid, hcode, _⟩ := h.enrollments before hbefore
  exact List.mem_map.mpr ⟨after, hafter, by rw [hid, hcode]⟩

theorem Keeps.nodeKeys (h : T.Keeps T') {pair : String × String} (hmem : pair ∈ T.nodeKeys) :
    pair ∈ T'.nodeKeys := by
  obtain ⟨computer, hcomputer, rfl⟩ := List.mem_map.mp hmem
  obtain ⟨hcomputer, hnode⟩ := List.mem_filter.mp hcomputer
  exact List.mem_map.mpr
    ⟨computer, List.mem_filter.mpr ⟨h.computers computer hcomputer, hnode⟩, rfl⟩

theorem Keeps.decidedIds (h : T.Keeps T') {id : String} (hmem : id ∈ T.decidedIds) :
    id ∈ T'.decidedIds := by
  obtain ⟨before, hbefore, rfl⟩ := List.mem_map.mp hmem
  obtain ⟨hbefore, hdecided⟩ := List.mem_filter.mp hbefore
  obtain ⟨after, hafter, _, _, hsame⟩ := h.enrollments before hbefore
  obtain rfl := hsame (by simpa using hdecided)
  exact List.mem_map.mpr ⟨after, List.mem_filter.mpr ⟨hafter, hdecided⟩, rfl⟩

end PairingTables

/-! ## 5. Nothing happens twice -/

/-- A history gains what was not there before, and so nothing a second time. -/
theorem gained_once {α : Type} [DecidableEq α] {log before after : List α} (hlog : log.Nodup)
    (hsub : ∀ a ∈ log, a ∈ before) (hkeeps : ∀ a ∈ before, a ∈ after) (hnodup : after.Nodup) :
    (log ++ gained before after).Nodup ∧ ∀ a ∈ log ++ gained before after, a ∈ after := by
  constructor
  · refine List.nodup_append.mpr ⟨hlog, hnodup.filter _, fun a ha b hb heq => ?_⟩
    subst heq
    have hnew := (List.mem_filter.mp hb).2
    exact absurd (hsub a ha) (by simpa using hnew)
  · intro a ha
    rcases List.mem_append.mp ha with ha | ha
    · exact hkeeps a (hsub a ha)
    · exact (List.mem_filter.mp ha).1

namespace PairingWorld

variable {w w' : PairingWorld}

/-- The histories name nothing twice, and nothing that is not in the tables still. -/
structure Recorded (w : PairingWorld) : Prop where
  ok : w.tables.Ok
  consumed : w.consumed.Nodup ∧ ∀ hash ∈ w.consumed, hash ∈ w.tables.consumedHashes
  enrolled : w.enrolled.Nodup ∧ ∀ pair ∈ w.enrolled, pair ∈ w.tables.enrolledCodes
  registered : w.registered.Nodup ∧ ∀ pair ∈ w.registered, pair ∈ w.tables.nodeKeys
  decided : w.decided.Nodup ∧ ∀ id ∈ w.decided, id ∈ w.tables.decidedIds

/-- The constraints of `computers`. -/
def Constrained (computers : List NodeComputer) : Prop :=
  (computers.map (·.id)).Nodup ∧ ((computers.filter (·.node)).map (·.publicKey)).Nodup

theorem Recorded.start {computers : List NodeComputer} (h : Constrained computers) :
    (PairingWorld.start computers).Recorded := by
  have ok : (PairingWorld.start computers).tables.Ok :=
    ⟨List.nodup_nil, List.nodup_nil, List.nodup_nil, List.nodup_nil, h.1, h.2,
      by simp [PairingWorld.start]⟩
  exact ⟨ok, ⟨List.nodup_nil, by simp [PairingWorld.start]⟩,
    ⟨List.nodup_nil, by simp [PairingWorld.start]⟩, ⟨ok.nodeKeys, fun _ h => h⟩,
    ⟨List.nodup_nil, by simp [PairingWorld.start]⟩⟩

theorem Recorded.commit (h : w.Recorded) {T : PairingTables} (ok : T.Ok)
    (keeps : w.tables.Keeps T) : (w.commit T).Recorded := by
  refine ⟨ok, ?_, ?_, ?_, ?_⟩
  · exact gained_once h.consumed.1 h.consumed.2 (fun _ => keeps.consumedHashes) ok.consumedHashes
  · exact gained_once h.enrolled.1 h.enrolled.2 (fun _ => keeps.enrolledCodes) ok.enrolledCodes
  · exact gained_once h.registered.1 h.registered.2 (fun _ => keeps.nodeKeys) ok.nodeKeys
  · exact gained_once h.decided.1 h.decided.2 (fun _ => keeps.decidedIds) ok.decidedIds

theorem Recorded.step (h : w.Recorded) {act : Act} (step : Step w act w') :
    w'.Recorded ∧ w.tables.Keeps w'.tables := by
  cases step with
  | commits done =>
    obtain ⟨ok, keeps⟩ := PairingTables.transact_kept h.ok done
    exact ⟨h.commit ok keeps, keeps⟩
  | raises => exact ⟨h, .refl _⟩

theorem Recorded.run (h : w.Recorded) {acts : List Act} (run : Run Step w acts w') :
    w'.Recorded ∧ w.tables.Keeps w'.tables := by
  induction run with
  | refl => exact ⟨h, .refl _⟩
  | snoc _ last ih =>
    obtain ⟨hlast, keeps⟩ := ih.1.step last
    exact ⟨hlast, ih.2.trans keeps⟩

end PairingWorld

open PairingWorld

/-- **Pairing is single use.** In every order of the requests of all parties, with any clock and
    any of them raising: no code is consumed twice, no two enrollments ever belong to one code, no
    two computers to one public key, and no enrollment leaves `pending` twice. An approval that
    went through can be repeated at any time later: it returns the same computer and changes
    nothing. -/
theorem pairing_single_use {computers : List NodeComputer} (constrained : Constrained computers)
    {acts : List Act} {w : PairingWorld} (run : Run Step (.start computers) acts w) :
    w.consumed.Nodup ∧ (w.enrolled.map Prod.fst).Nodup ∧ (w.registered.map Prod.fst).Nodup ∧
      w.decided.Nodup ∧
      ∀ computerId now enrollmentId computer T,
        w.tables.approveNodeEnrollment computerId now enrollmentId = .ok (computer, T) →
        ∀ later w', Run Step (w.commit T) later w' → ∀ computerId' now',
          w'.tables.approveNodeEnrollment computerId' now' enrollmentId =
            .ok (computer, w'.tables) := by
  have h := ((Recorded.start constrained).run run).1
  refine ⟨h.consumed.1, ?_, ?_, h.decided.1,
    fun computerId now enrollmentId computer T done later w' run' computerId' now' => ?_⟩
  · -- the codes of the enrollments in the table are distinct
    have hcodes : (w.tables.enrolledCodes.map Prod.fst).Nodup := by
      simpa [PairingTables.enrolledCodes, Function.comp_def] using h.ok.enrollmentCodes
    refine List.Nodup.map_on (fun a ha b hb heq => ?_) h.enrolled.1
    exact List.inj_on_of_nodup_map hcodes (h.enrolled.2 a ha) (h.enrolled.2 b hb) heq
  · have hkeys : (w.tables.nodeKeys.map Prod.fst).Nodup := by
      simpa [PairingTables.nodeKeys, Function.comp_def] using h.ok.computerKeys
    refine List.Nodup.map_on (fun a ha b hb heq => ?_) h.registered.1
    exact List.inj_on_of_nodup_map hkeys (h.registered.2 a ha) (h.registered.2 b hb) heq
  · obtain ⟨ok, keeps⟩ := PairingTables.approve_kept h.ok done
    have happroved := PairingTables.approve_approved h.ok done
    obtain ⟨h', keeps'⟩ := (h.commit ok keeps).run run'
    exact (happroved.keeps keeps').replay h'.ok computerId' now'

/-- The tables after a code was created, and after a Node used it. -/
def created : PairingTables := ⟨[⟨"code", "hash", 0, 600, none⟩], [], []⟩

def submitted : PairingTables :=
  ⟨[⟨"code", "hash", 0, 600, some 1⟩],
    [⟨"enrollment", "code", "laptop", "key", "print", 1, "secret", .pending, none, 1, none⟩], []⟩

theorem pairing_single_use_paired :
    ∃ w T computer, Run Step (.start []) [.create "code" 0 "hash" 600,
        .submit "enrollment" 1 ⟨"hash", "laptop", "key", "print", 1, "secret"⟩] w ∧
      w.tables.approveNodeEnrollment "node" 2 "enrollment" = .ok (computer, T) ∧
      T.approveNodeEnrollment "other" 3 "enrollment" = .ok (computer, T) := by
  let computer : NodeComputer := ⟨"node", "laptop", true, "key", "print", some 1, 2⟩
  have hcreate : (PairingWorld.start []).tables.transact (.create "code" 0 "hash" 600) =
      .ok created := by decide +kernel
  have hsubmit : created.transact
      (.submit "enrollment" 1 ⟨"hash", "laptop", "key", "print", 1, "secret"⟩) =
      .ok submitted := by decide +kernel
  have happrove : submitted.approveNodeEnrollment "node" 2 "enrollment" =
      .ok (computer, { (submitted.updatePending "enrollment" (PairingTables.approved "node" 2))
        with computers := [computer] }) := by decide +kernel
  have run : Run Step (.start []) _ (((PairingWorld.start []).commit created).commit submitted) :=
    (Run.refl.snoc (.commits hcreate)).snoc (.commits hsubmit)
  have constrained : Constrained [] := ⟨List.nodup_nil, List.nodup_nil⟩
  obtain ⟨_, _, _, _, replay⟩ := pairing_single_use constrained run
  exact ⟨_, _, computer, run, happrove, replay _ _ _ _ _ happrove _ _ .refl "other" 3⟩

end Termroom.Store.Pairing
