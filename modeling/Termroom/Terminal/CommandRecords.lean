import Mathlib
import Termroom.Data.Split
import Termroom.Store.Commands

/-!
# The command windows of a Workspace, as tmux lists them

A window that a Workspace command was launched in carries the slot of the command, the identity of
its launch, its digest and its state in four options of its own. `list-windows` prints a line for
each window, and `parse_tmux_workspace_command_records` reads them back.

`parseRecords_listing`: it accepts a listing where each window with a slot has the other options
too and no two windows have one slot, and it finds these windows.
-/

set_option autoImplicit false

namespace Termroom.Terminal

open Conc Data
open Store.Commands (CommandError)

/-! ## 1. Identities -/

/-- `value in "0123456789abcdef"`. -/
def isLowerHex (c : Char) : Bool :=
  let n := c.toNat
  (48 ≤ n && n ≤ 57) || (97 ≤ n && n ≤ 102)

/-- What `validate_workspace_command_launch` accepts: `uuid.UUID(hex=value).hex` is the value. -/
def isLaunchId (value : List Char) : Bool := value.length = 32 && value.all isLowerHex

def isDigest (value : List Char) : Bool := value.length = 64 && value.all isLowerHex

abbrev LaunchId := { value : List Char // isLaunchId value = true }

/-- The hexadecimal digest of SHA-256. -/
abbrev Digest := { value : List Char // isDigest value = true }

inductive CommandState where
  | running | settling | shell
  deriving DecidableEq, Repr

def CommandState.text : CommandState → List Char
  | .running => "running".toList
  | .settling => "settling".toList
  | .shell => "shell".toList

def CommandState.ofText (text : List Char) : Option CommandState :=
  if text = "running".toList then some .running
  else if text = "settling".toList then some .settling
  else if text = "shell".toList then some .shell
  else none

/-- `validate_workspace_command_slot`; there are `MAX_WORKSPACE_COMMANDS` slots. -/
def validateSlot (value : Int) : Except CommandError (Fin 3) :=
  if h : 0 ≤ value ∧ value < 3 then .ok ⟨value.toNat, by omega⟩
  else .error (.value "Workspace command slot is invalid")

/-- `validate_workspace_command_launch`. -/
def validateLaunch (value : List Char) : Except CommandError LaunchId :=
  if h : isLaunchId value = true then .ok ⟨value, h⟩
  else .error (.value "Workspace command launch identity is invalid")

/-! ## 2. Listings -/

/-- What a window shows: the four options are empty where they are not set. -/
structure Shown where
  dead : Bool
  slot : Option (Fin 3)
  launch : Option LaunchId
  digest : Option Digest
  state : Option CommandState
  deriving DecidableEq

/-- `#{window_id}`. -/
def windowText (id : Nat) : List Char := '@' :: Nat.toDigits 10 id

/-- `#{pane_dead}`. -/
def deadText (dead : Bool) : List Char := if dead then "1".toList else "0".toList

def shownFields (id : Nat) (w : Shown) : List (List Char) :=
  [windowText id, deadText w.dead,
    (w.slot.map fun slot => Nat.toDigits 10 slot.val).getD [],
    (w.launch.map Subtype.val).getD [], (w.digest.map Subtype.val).getD [],
    (w.state.map CommandState.text).getD []]

/-- A line in `TMUX_WORKSPACE_COMMAND_RECORD_FORMAT`. -/
def shownLine (id : Nat) (w : Shown) : List Char := ['|'].intercalate (shownFields id w)

/-- What `list-windows` prints. -/
def listing (windows : List (Nat × Shown)) : List Char :=
  windows.flatMap fun (id, w) => shownLine id w ++ ['\n']

structure CommandRecord where
  /-- The number in `tmux_window`. -/
  window : Nat
  dead : Bool
  slot : Fin 3
  launch : LaunchId
  digest : Digest
  /-- What the option says; `state` is `dead` where the pane is dead. -/
  state : CommandState
  deriving DecidableEq

/-- `text.split(sep, n)`. -/
def splitMax (sep : Char) : Nat → List Char → List (List Char)
  | 0, text => [text]
  | n + 1, text =>
    match text.dropWhile (· ≠ sep) with
    | [] => [text]
    | _ :: rest => text.takeWhile (· ≠ sep) :: splitMax sep n rest

/-- Where `str.splitlines` breaks; between a `\r` and a `\n` it does not, and the caller passes over
    the empty line that this makes. -/
def breaksLines (c : Char) : Bool :=
  let n := c.toNat
  (10 ≤ n && n ≤ 13) || (28 ≤ n && n ≤ 30) || n = 0x85 || n = 0x2028 || n = 0x2029

/-- `int` of some digits. -/
def digitsValue (digits : List Char) : Nat := Nat.ofDigitChars 10 digits 0

/-- The fields of a line, with a slot. -/
def parseCarried (window : Nat) (dead : Bool) (slot : Fin 3)
    (launchId digest stateRaw : List Char) : Except CommandError (Option CommandRecord) := do
  let launch ← validateLaunch launchId
  if h : isDigest digest = true then
    if stateRaw = [] then .ok none
    else
      match CommandState.ofText stateRaw with
      | none => .error (.value "tmux exposed an invalid Workspace command state")
      | some state => .ok (some ⟨window, dead, slot, launch, ⟨digest, h⟩, state⟩)
  else .error (.value "tmux exposed an invalid Workspace command digest")

/-- The fields of a line; digits are ASCII digits. -/
def parseFields (window dead slotRaw launchId digest stateRaw : List Char) :
    Except CommandError (Option CommandRecord) :=
  if window.head? = some '@' ∧ window.tail ≠ [] ∧ window.tail.all Char.isDigit ∧
      (dead = "0".toList ∨ dead = "1".toList) then
    if slotRaw = [] then .ok none
    else if ¬ slotRaw.all Char.isDigit then
      .error (.value "tmux exposed an invalid Workspace command slot")
    else do
      let slot ← validateSlot (digitsValue slotRaw)
      parseCarried (digitsValue window.tail) (dead = "1".toList) slot launchId digest stateRaw
  else .error (.value "tmux exposed an invalid Workspace command record")

def parseRecord (line : List Char) : Except CommandError (Option CommandRecord) :=
  match splitMax '|' 5 line with
  | [window, dead, slotRaw, launchId, digest, stateRaw] =>
    parseFields window dead slotRaw launchId digest stateRaw
  | _ => .error (.value "tmux exposed an invalid Workspace command record")

def parseLines : List (List Char) → Except CommandError (List CommandRecord)
  | [] => .ok []
  | line :: lines => do
    let record ← if line = [] then .ok none else parseRecord line
    let records ← parseLines lines
    return record.toList ++ records

/-- `parse_tmux_workspace_command_records`. -/
def parseRecords (output : List Char) : Except CommandError (List CommandRecord) := do
  let records ← parseLines (output.splitOnP breaksLines)
  if (records.map CommandRecord.slot).Nodup then .ok records
  else .error (.value "tmux exposed duplicate Workspace command slots")

/-! ## 3. What is listed is read back -/

/-- A window that carries a slot, with all the other options. -/
def Shown.record (id : Nat) (w : Shown) : Option CommandRecord :=
  match w.slot, w.launch, w.digest, w.state with
  | some slot, some launch, some digest, some state =>
    some ⟨id, w.dead, slot, launch, digest, state⟩
  | _, _, _, _ => none

/-- No slot without the other options. -/
def Shown.Whole (w : Shown) : Prop :=
  w.slot ≠ none → w.launch ≠ none ∧ w.digest ≠ none ∧ w.state ≠ none

section listing

variable {c : Char} {part rest text : List Char} {n id : Nat} {w : Shown}

theorem splitMax_part (h : '|' ∉ part) :
    splitMax '|' (n + 1) (part ++ '|' :: rest) = part :: splitMax '|' n rest := by
  have differ : ∀ c ∈ part, decide (c ≠ '|') = true := by
    intro c hc
    rw [decide_eq_true_eq]
    rintro rfl
    exact h hc
  have drop : (part ++ '|' :: rest).dropWhile (· ≠ '|') = '|' :: rest := by
    rw [List.dropWhile_append_of_pos differ, List.dropWhile_cons_of_neg (by simp)]
  have take : (part ++ '|' :: rest).takeWhile (· ≠ '|') = part := by
    rw [List.takeWhile_append_of_pos differ, List.takeWhile_cons_of_neg (by simp),
      List.append_nil]
  rw [splitMax, drop, take]

/-- A character that neither separates two fields nor ends a line. -/
def Inline (c : Char) : Prop := c ≠ '|' ∧ breaksLines c = false

theorem inline_hex (h : isLowerHex c = true) : Inline c := by
  unfold isLowerHex at h
  simp only [Bool.or_eq_true, Bool.and_eq_true, decide_eq_true_eq] at h
  constructor
  · rintro rfl
    have small : ('|' : Char).toNat = 124 := rfl
    omega
  · unfold breaksLines
    simp only [Bool.or_eq_false_iff, Bool.and_eq_false_iff, decide_eq_false_iff_not]
    omega

theorem hex_digit (h : c.isDigit = true) : isLowerHex c = true := by
  unfold Char.isDigit at h
  simp only [Bool.and_eq_true, decide_eq_true_eq] at h
  have low : 48 ≤ c.toNat := UInt32.le_iff_toNat_le.mp h.1
  have high : c.toNat ≤ 57 := UInt32.le_iff_toNat_le.mp h.2
  unfold isLowerHex
  simp [low, high]

theorem inline_digits : ∀ c ∈ Nat.toDigits 10 n, Inline c := by
  intro c hc
  exact inline_hex (hex_digit (Nat.isDigit_of_mem_toDigits (by decide) (by decide) hc))

theorem inline_fields : ∀ field ∈ shownFields id w, ∀ c ∈ field, Inline c := by
  have hex : ∀ {value : List Char}, value.all isLowerHex = true → ∀ c ∈ value, Inline c := by
    intro value h c hc
    exact inline_hex (List.all_eq_true.mp h c hc)
  intro field hfield
  simp only [shownFields, List.mem_cons, List.not_mem_nil, or_false] at hfield
  rcases hfield with rfl | rfl | rfl | rfl | rfl | rfl
  · intro c hc
    rcases List.mem_cons.mp hc with rfl | hc
    · exact ⟨by decide, by decide⟩
    · exact inline_digits c hc
  · unfold deadText
    split
    · exact hex (by decide)
    · exact hex (by decide)
  · cases w.slot with
    | none => simp
    | some slot => exact inline_digits
  · cases w.launch with
    | none => simp
    | some launch =>
      have valid := launch.property
      unfold isLaunchId at valid
      exact hex (Bool.and_eq_true_iff.mp valid).2
  · cases w.digest with
    | none => simp
    | some digest =>
      have valid := digest.property
      unfold isDigest at valid
      exact hex (Bool.and_eq_true_iff.mp valid).2
  · cases w.state with
    | none => simp
    | some state =>
      have plain : state.text.all (fun c => c ≠ '|' && !breaksLines c) = true := by
        cases state <;> decide +kernel
      intro c hc
      have inline := List.all_eq_true.mp plain c hc
      simp only [Bool.and_eq_true, decide_eq_true_eq, Bool.not_eq_true'] at inline
      exact inline

/-- A line splits into its fields again. -/
theorem split_shownLine : splitMax '|' 5 (shownLine id w) = shownFields id w := by
  have apart : ∀ field ∈ shownFields id w, '|' ∉ field := by
    intro field hfield hbar
    exact (inline_fields field hfield '|' hbar).1 rfl
  unfold shownLine
  unfold shownFields at apart ⊢
  simp only [List.forall_mem_cons] at apart
  obtain ⟨h₁, h₂, h₃, h₄, h₅, -⟩ := apart
  simp only [List.intercalate, List.intersperse, List.flatten_cons, List.flatten_nil,
    List.append_nil, List.singleton_append]
  rw [splitMax_part h₁, splitMax_part h₂, splitMax_part h₃, splitMax_part h₄, splitMax_part h₅]
  rfl

theorem all_digits : (Nat.toDigits 10 n).all Char.isDigit = true := by
  rw [List.all_eq_true]
  intro c hc
  exact Nat.isDigit_of_mem_toDigits (by decide) (by decide) hc

theorem digitsValue_toDigits : digitsValue (Nat.toDigits 10 n) = n :=
  Nat.ofDigitChars_ten_toDigits

theorem ofText_text (state : CommandState) : CommandState.ofText state.text = some state := by
  cases state <;> decide +kernel

theorem validateSlot_val (slot : Fin 3) : validateSlot (slot.val : Int) = .ok slot := by
  have range : (0 : Int) ≤ (slot.val : Int) ∧ (slot.val : Int) < 3 := by omega
  unfold validateSlot
  rw [dif_pos range]
  rfl

theorem validateLaunch_val (launch : LaunchId) : validateLaunch launch.val = .ok launch := by
  unfold validateLaunch
  split
  · rfl
  · rename_i invalid
    exact absurd launch.property invalid

section carried

variable {dead : Bool} {slot : Fin 3} {launch : LaunchId} {digest : Digest} {state : CommandState}

theorem parseCarried_texts : parseCarried id dead slot launch.val digest.val state.text =
    .ok (some ⟨id, dead, slot, launch, digest, state⟩) := by
  have known : state.text ≠ [] := by cases state <;> decide
  unfold parseCarried
  rw [validateLaunch_val, ok_bind, dif_pos digest.property, if_neg known, ofText_text]

theorem deadText_spec : (deadText dead = "0".toList ∨ deadText dead = "1".toList) ∧
    decide (deadText dead = "1".toList) = dead := by
  cases dead
  · exact ⟨.inl rfl, rfl⟩
  · exact ⟨.inr rfl, rfl⟩

theorem parseFields_texts {launchId digest stateRaw : List Char} :
    parseFields (windowText id) (deadText dead) (Nat.toDigits 10 slot.val) launchId digest
      stateRaw = parseCarried id dead slot launchId digest stateRaw := by
  have head : (windowText id).head? = some '@' := rfl
  have tail : (windowText id).tail = Nat.toDigits 10 id := rfl
  unfold parseFields
  rw [tail, if_pos ⟨head, Nat.toDigits_ne_nil, all_digits, deadText_spec.1⟩,
    if_neg Nat.toDigits_ne_nil, if_neg (not_not_intro all_digits), digitsValue_toDigits,
    digitsValue_toDigits, validateSlot_val, ok_bind, deadText_spec.2]

theorem parseFields_other {launchId digest stateRaw : List Char} :
    parseFields (windowText id) (deadText dead) [] launchId digest stateRaw = .ok none := by
  have head : (windowText id).head? = some '@' := rfl
  have tail : (windowText id).tail = Nat.toDigits 10 id := rfl
  unfold parseFields
  rw [tail, if_pos ⟨head, Nat.toDigits_ne_nil, all_digits, deadText_spec.1⟩, if_pos rfl]

end carried

theorem parseRecord_shownLine (h : w.Whole) : parseRecord (shownLine id w) = .ok (w.record id) := by
  obtain ⟨dead, slot, launch, digest, state⟩ := w
  unfold parseRecord
  rw [split_shownLine]
  cases slot with
  | none => exact parseFields_other
  | some slot =>
    obtain ⟨hlaunch, hdigest, hstate⟩ := h (Option.some_ne_none slot)
    obtain ⟨launch, rfl⟩ := Option.ne_none_iff_exists'.mp hlaunch
    obtain ⟨digest, rfl⟩ := Option.ne_none_iff_exists'.mp hdigest
    obtain ⟨state, rfl⟩ := Option.ne_none_iff_exists'.mp hstate
    exact parseFields_texts.trans parseCarried_texts

theorem shownLine_inline : ∀ c ∈ shownLine id w, breaksLines c = false := by
  intro c hc
  rcases Split.mem_intercalate hc with rfl | ⟨field, hfield, hc⟩
  · decide
  · exact (inline_fields field hfield c hc).2

theorem parseLines_listing {windows : List (Nat × Shown)} (h : ∀ e ∈ windows, e.2.Whole) :
    parseLines ((listing windows).splitOnP breaksLines) =
      .ok (windows.filterMap fun (id, w) => w.record id) := by
  induction windows with
  | nil => rfl
  | cons e windows ih =>
    obtain ⟨id, w⟩ := e
    have here : listing ((id, w) :: windows) = shownLine id w ++ '\n' :: listing windows := by
      unfold listing
      rw [List.flatMap_cons, List.append_assoc]
      rfl
    have nonempty : shownLine id w ≠ [] := by
      unfold shownLine shownFields windowText
      simp [List.intercalate]
    rw [here, List.splitOnP_append_cons_of_forall_mem shownLine_inline '\n' (by decide)]
    unfold parseLines
    rw [if_neg nonempty, parseRecord_shownLine (h _ List.mem_cons_self), ok_bind,
      ih fun e he => h e (List.mem_cons_of_mem _ he)]
    beta_reduce
    rw [ok_bind, List.filterMap_cons]
    dsimp only
    cases w.record id with
    | none => rfl
    | some record => rfl

/-- **A listing is accepted** where no window has a slot without the other options and no two
    have one slot, and it is read as the windows that have a slot. -/
theorem parseRecords_listing {windows : List (Nat × Shown)} (whole : ∀ e ∈ windows, e.2.Whole)
    (unique : ((windows.filterMap fun (id, w) => w.record id).map CommandRecord.slot).Nodup) :
    parseRecords (listing windows) = .ok (windows.filterMap fun (id, w) => w.record id) := by
  unfold parseRecords
  rw [parseLines_listing whole, ok_bind, if_pos unique]

/-- A listing where two windows have one slot is not accepted. -/
theorem parseRecords_duplicate {windows : List (Nat × Shown)} (whole : ∀ e ∈ windows, e.2.Whole)
    (twice : ¬ ((windows.filterMap fun (id, w) => w.record id).map CommandRecord.slot).Nodup) :
    parseRecords (listing windows) =
      .error (.value "tmux exposed duplicate Workspace command slots") := by
  unfold parseRecords
  rw [parseLines_listing whole, ok_bind, if_neg twice]

end listing

end Termroom.Terminal
