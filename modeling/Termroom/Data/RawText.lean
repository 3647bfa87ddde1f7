import Mathlib.Data.List.Basic
import Mathlib.Tactic.Common

/-!
# Text that need not encode

A string of Python can hold surrogates that stand alone, where it was decoded from bytes that are
no UTF-8 (`os.fsdecode`). Such a string is no Unicode text, and does not encode: `text?` is the
text that a raw one is, or `none`.
-/

set_option autoImplicit false

namespace Data

inductive RawChar where
  | char (c : Char)
  /-- The code unit `0xD800 + unit`. -/
  | surrogate (unit : Fin 2048)
  deriving DecidableEq, Repr

abbrev RawText := List RawChar

namespace RawChar

def char? : RawChar → Option Char
  | char c => some c
  | surrogate _ => none

/-- What a character is shown as. -/
def shown : RawChar → Char
  | char c => c
  | surrogate _ => '\uFFFD'

theorem char?_eq_some {raw : RawChar} {c : Char} : raw.char? = some c ↔ raw = char c := by
  cases raw <;> simp [char?]

end RawChar

namespace RawText

def ofText (text : List Char) : RawText := text.map .char

/-- The text, if it is one: `none` where `encode` raises. -/
def text? (raw : RawText) : Option (List Char) := raw.mapM RawChar.char?

def shown (raw : RawText) : List Char := raw.map RawChar.shown

variable {raw : RawText} {text other : List Char}

@[simp] theorem text?_ofText : text? (ofText text) = some text := by
  induction text with
  | nil => rfl
  | cons c text ih =>
    unfold text? ofText at ih ⊢
    rw [List.map_cons, List.mapM_cons, ih]
    rfl

@[simp] theorem shown_ofText : shown (ofText text) = text := by
  unfold shown ofText
  rw [List.map_map]
  exact List.map_id text

theorem ofText_inj : ofText text = ofText other ↔ text = other := by
  constructor
  · intro h
    simpa using congrArg shown h
  · exact congrArg ofText

theorem text?_eq_some : text? raw = some text ↔ raw = ofText text := by
  constructor
  · intro h
    induction raw generalizing text with
    | nil => exact (Option.some.inj h) ▸ rfl
    | cons c raw ih =>
      unfold text? at h ih
      rw [List.mapM_cons] at h
      obtain ⟨c', hc, h⟩ := Option.bind_eq_some_iff.mp h
      obtain ⟨rest, hrest, h⟩ := Option.bind_eq_some_iff.mp h
      rw [RawChar.char?_eq_some.mp hc, ih hrest, ← Option.some.inj h]
      rfl
  · rintro rfl
    exact text?_ofText

end RawText

end Data
