import Termroom.Data.Json
import Mathlib.Data.List.Nodup
import Mathlib.Data.List.TakeDrop
import Mathlib.Tactic.IntervalCases
import Mathlib.Tactic.SplitIfs

/-!
# JSON values as text

`dumps` writes a value as `json.dumps(ensure_ascii=False, separators=(",", ":"))` does, `loads`
reads one as `json.loads` does. What is written reads back (`loads_dumps`), and no control
character is written (`dumps_plain`), so that a value is a line.

The reader counts its steps down from the length of the text. A number with a fraction or an
exponent reads as the `repr` of a float, which the function `float` gives. The `repr` of a finite
float has the form of such a number, and is what it reads as (`FloatText`).
-/

set_option autoImplicit false

namespace Data.Json

/-! ## 1. Writing -/

/-- What stands for a character in a string. -/
def escape (c : Char) : List Char :=
  if c = '"' then ['\\', '"']
  else if c = '\\' then ['\\', '\\']
  else if c = '\n' then ['\\', 'n']
  else if c = '\r' then ['\\', 'r']
  else if c = '\t' then ['\\', 't']
  else if c = '\x0C' then ['\\', 'f']
  else if c = '\x08' then ['\\', 'b']
  else if c < ' ' then ['\\', 'u', '0', '0', Nat.digitChar (c.toNat / 16), Nat.digitChar (c.toNat % 16)]
  else [c]

def dumpsString (value : String) : List Char := '"' :: value.toList.flatMap escape ++ ['"']

def dumpsInt : Int → List Char
  | .ofNat n => Nat.toDigits 10 n
  | .negSucc n => '-' :: Nat.toDigits 10 (n + 1)

/-- `float.__repr__`, but for the floats that are no numbers. -/
def dumpsFloat (text : String) : List Char :=
  if text = "nan" then "NaN".toList
  else if text = "inf" then "Infinity".toList
  else if text = "-inf" then "-Infinity".toList
  else text.toList

mutual

def dumps : Json → List Char
  | .null => "null".toList
  | .bool true => "true".toList
  | .bool false => "false".toList
  | .int value => dumpsInt value
  | .float text => dumpsFloat text
  | .str value => dumpsString value
  | .arr items => '[' :: dumpsItems items ++ [']']
  | .obj fields => '\x7b' :: dumpsFields fields ++ ['\x7d']

def dumpsItems : List Json → List Char
  | [] => []
  | [item] => dumps item
  | item :: items => dumps item ++ ',' :: dumpsItems items

def dumpsFields : List (String × Json) → List Char
  | [] => []
  | [(name, value)] => dumpsString name ++ ':' :: dumps value
  | (name, value) :: fields => dumpsString name ++ ':' :: dumps value ++ ',' :: dumpsFields fields

end

/-! ## 2. Reading -/

def isSpace (c : Char) : Bool := c = ' ' || c = '\t' || c = '\n' || c = '\r'

def skip (text : List Char) : List Char := text.dropWhile isSpace

def hexValue (c : Char) : Option Nat :=
  if c.isDigit then some (c.toNat - '0'.toNat)
  else if 'a' ≤ c ∧ c ≤ 'f' then some (c.toNat - 'a'.toNat + 10)
  else if 'A' ≤ c ∧ c ≤ 'F' then some (c.toNat - 'A'.toNat + 10)
  else none

/-- `_decode_uXXXX`. -/
def unit : List Char → Option (Nat × List Char)
  | a :: b :: c :: d :: rest => do
    let a ← hexValue a
    let b ← hexValue b
    let c ← hexValue c
    let d ← hexValue d
    return (((a * 16 + b) * 16 + c) * 16 + d, rest)
  | _ => none

/-- What stands after `\u`: a surrogate is read with the other one of its pair. -/
def unicode (text : List Char) : Option (Char × List Char) := do
  let (first, rest) ← unit text
  if 0xD800 ≤ first ∧ first ≤ 0xDBFF then
    match rest with
    | '\\' :: 'u' :: more =>
      let (second, more) ← unit more
      if 0xDC00 ≤ second ∧ second ≤ 0xDFFF then
        return (Char.ofNat (0x10000 + (first - 0xD800) * 0x400 + (second - 0xDC00)), more)
      else none
    | _ => none
  else if 0xDC00 ≤ first ∧ first ≤ 0xDFFF then none
  else return (Char.ofNat first, rest)

/-- What stands after a backslash. -/
def escaped : List Char → Option (Char × List Char)
  | [] => none
  | c :: rest =>
    if c = '"' ∨ c = '\\' ∨ c = '/' then some (c, rest)
    else if c = 'b' then some ('\x08', rest)
    else if c = 'f' then some ('\x0C', rest)
    else if c = 'n' then some ('\n', rest)
    else if c = 'r' then some ('\r', rest)
    else if c = 't' then some ('\t', rest)
    else if c = 'u' then unicode rest
    else none

/-- `scanstring`, after the opening quote. -/
def scanString : Nat → List Char → Option (List Char × List Char)
  | 0, _ | _, [] => none
  | n + 1, c :: rest =>
    if c = '"' then some ([], rest)
    else if c = '\\' then do
      let (c, rest) ← escaped rest
      let (value, rest) ← scanString n rest
      return (c :: value, rest)
    else if c < ' ' then none
    else do
      let (value, rest) ← scanString n rest
      return (c :: value, rest)

/-- `0|[1-9][0-9]*`. -/
def integer : List Char → Option (List Char × List Char)
  | [] => none
  | c :: rest =>
    if c = '0' then some (['0'], rest)
    else if c.isDigit then some ((c :: rest).span Char.isDigit)
    else none

/-- `(\.[0-9]+)?`. -/
def fraction : List Char → List Char × List Char
  | [] => ([], [])
  | c :: rest =>
    let (digits, more) := rest.span Char.isDigit
    if c = '.' ∧ digits ≠ [] then (c :: digits, more) else ([], c :: rest)

/-- `([eE][-+]?[0-9]+)?`. -/
def exponent : List Char → List Char × List Char
  | [] => ([], [])
  | c :: rest =>
    let (sign, unsigned) := rest.span fun d => d = '+' || d = '-'
    let (digits, more) := unsigned.span Char.isDigit
    if (c = 'e' ∨ c = 'E') ∧ sign.length ≤ 1 ∧ digits ≠ [] then (c :: sign ++ digits, more)
    else ([], c :: rest)

variable (float : List Char → String)

def scanNumber (text : List Char) : Option (Json × List Char) := do
  let (sign, unsigned) := text.span fun c => c = '-'
  if 1 < sign.length then none
  let (whole, rest) ← integer unsigned
  let (tenths, rest) := fraction rest
  let (power, rest) := exponent rest
  if tenths = [] ∧ power = [] then
    let value : Int := Nat.ofDigitChars 10 whole 0
    return (.int (if sign = [] then value else -value), rest)
  return (.float (float (sign ++ whole ++ tenths ++ power)), rest)

/-- The words that stand for a value. -/
def words : List (List Char × Json) :=
  [("null".toList, .null), ("true".toList, .bool true), ("false".toList, .bool false),
    ("NaN".toList, .float "nan"), ("Infinity".toList, .float "inf"),
    ("-Infinity".toList, .float "-inf")]

/-- A value that is neither a string, nor a list, nor a `dict`. -/
def scanScalar (text : List Char) : Option (Json × List Char) :=
  match words.find? fun word => word.1.isPrefixOf text with
  | some (word, value) => some (value, text.drop word.length)
  | none => scanNumber float text

/-- `fields[name] = value`. -/
def setField (fields : JsonObject) (name : String) (value : Json) : JsonObject :=
  if name ∈ fields.map Prod.fst then
    fields.map fun field => if field.1 = name then (name, value) else field
  else fields ++ [(name, value)]

mutual

/-- `scan_once`. -/
def scanOnce : Nat → List Char → Option (Json × List Char)
  | 0, _ | _, [] => none
  | n + 1, c :: rest =>
    if c = '"' then do
      let (value, rest) ← scanString (rest.length + 1) rest
      return (.str (String.ofList value), rest)
    else if c = '[' then
      match skip rest with
      | ']' :: rest => some (.arr [], rest)
      | rest => scanItems n [] rest
    else if c = '\x7b' then
      match skip rest with
      | '\x7d' :: rest => some (.obj [], rest)
      | rest => scanFields n [] rest
    else scanScalar float (c :: rest)

/-- The loop of `JSONArray`. -/
def scanItems : Nat → List Json → List Char → Option (Json × List Char)
  | 0, _, _ => none
  | n + 1, items, text => do
    let (item, rest) ← scanOnce n text
    match skip rest with
    | ']' :: rest => some (.arr (items ++ [item]), rest)
    | ',' :: rest => scanItems n (items ++ [item]) (skip rest)
    | _ => none

/-- The loop of `JSONObject`. -/
def scanFields : Nat → JsonObject → List Char → Option (Json × List Char)
  | 0, _, _ | _, _, [] => none
  | n + 1, fields, c :: rest =>
    if c = '"' then do
      let (name, rest) ← scanString (rest.length + 1) rest
      match skip rest with
      | ':' :: rest =>
        let (value, rest) ← scanOnce n (skip rest)
        let fields := setField fields (String.ofList name) value
        match skip rest with
        | '\x7d' :: rest => some (.obj fields, rest)
        | ',' :: rest => scanFields n fields (skip rest)
        | _ => none
      | _ => none
    else none

end

/-- `json.loads`: `none` where it raises. -/
def loads (text : List Char) : Option Json := do
  let (value, rest) ← scanOnce float (text.length + 1) (skip text)
  if skip rest = [] then some value else none

/-! ## 3. Strings -/

variable {c : Char} {text rest : List Char} {n : Nat}

/-- The characters that are written by their number. -/
theorem escaped_control (h : c.toNat < 32) :
    escaped ('u' :: '0' :: '0' :: Nat.digitChar (c.toNat / 16) :: Nat.digitChar (c.toNat % 16) ::
      rest) = some (c, rest) := by
  have same : Char.ofNat c.toNat = c := Char.ofNat_toNat c
  rw [← same]
  generalize c.toNat = k at h
  interval_cases k <;> rfl

theorem digitChar_plain (h : n < 16) : 32 ≤ (Nat.digitChar n).toNat := by
  interval_cases n <;> decide

/-- A character stands for itself, or what stands for it is read back after its backslash. -/
theorem escape_spec (c : Char) :
    escape c = [c] ∧ c ≠ '"' ∧ c ≠ '\\' ∧ ¬c < ' ' ∨
      ∃ shown, escape c = '\\' :: shown ∧ (∀ rest, escaped (shown ++ rest) = some (c, rest)) ∧
        ∀ d ∈ shown, 32 ≤ d.toNat := by
  unfold escape
  split
  · subst c
    exact .inr ⟨_, rfl, fun _ => rfl, by simp⟩
  split
  · subst c
    exact .inr ⟨_, rfl, fun _ => rfl, by simp⟩
  split
  · subst c
    exact .inr ⟨_, rfl, fun _ => rfl, by simp⟩
  split
  · subst c
    exact .inr ⟨_, rfl, fun _ => rfl, by simp⟩
  split
  · subst c
    exact .inr ⟨_, rfl, fun _ => rfl, by simp⟩
  split
  · subst c
    exact .inr ⟨_, rfl, fun _ => rfl, by simp⟩
  split
  · subst c
    exact .inr ⟨_, rfl, fun _ => rfl, by simp⟩
  split
  · rename_i hcontrol
    have hcontrol : c.toNat < 32 := hcontrol
    refine .inr ⟨_, rfl, fun _ => escaped_control hcontrol, ?_⟩
    have high := @digitChar_plain (c.toNat / 16) (by omega)
    have low := @digitChar_plain (c.toNat % 16) (by omega)
    intro d hd
    simp only [List.mem_cons, List.not_mem_nil, or_false] at hd
    rcases hd with rfl | rfl | rfl | rfl | rfl
    · decide
    · decide
    · decide
    · exact high
    · exact low
  · exact .inl ⟨rfl, by assumption, by assumption, by assumption⟩

theorem scanString_escape : scanString (n + 1) (escape c ++ rest) =
    (scanString n rest).map fun (value, rest) => (c :: value, rest) := by
  rcases escape_spec c with ⟨h, hquote, hslash, hcontrol⟩ | ⟨shown, h, hread, -⟩
  · rw [h, List.singleton_append, scanString, if_neg hquote, if_neg hslash, if_neg hcontrol]
    cases scanString n rest <;> rfl
  · rw [h, List.cons_append, scanString, if_neg (by decide), if_pos rfl, hread]
    cases hrest : scanString n rest <;> simp [hrest]

theorem escape_length : 0 < (escape c).length := by
  rcases escape_spec c with ⟨h, -⟩ | ⟨shown, h, -⟩ <;> simp [h]

/-- A string is read up to its closing quote. -/
theorem scanString_close (h : (text.flatMap escape).length < n) :
    scanString n (text.flatMap escape ++ '"' :: rest) = some (text, rest) := by
  induction text generalizing n with
  | nil =>
    obtain ⟨n, rfl⟩ := Nat.exists_eq_add_one_of_ne_zero (Nat.pos_iff_ne_zero.mp h)
    rfl
  | cons c text ih =>
    rw [List.flatMap_cons, List.length_append] at h
    have hlength := @escape_length c
    obtain ⟨n, rfl⟩ := Nat.exists_eq_add_one_of_ne_zero (Nat.ne_zero_of_lt h)
    rw [List.flatMap_cons, List.append_assoc, scanString_escape, ih (by omega)]
    rfl

theorem scanString_dumps (value : String) :
    scanString ((value.toList.flatMap escape ++ '"' :: rest).length + 1)
      (value.toList.flatMap escape ++ '"' :: rest) = some (value.toList, rest) := by
  apply scanString_close
  simp only [List.length_append]
  omega

/-! ## 4. Numbers -/

/-- What may stand behind a number. -/
def Ends (rest : List Char) : Prop :=
  ∀ c ∈ rest.head?, c.isDigit = false ∧ c ≠ '.' ∧ c ≠ 'e' ∧ c ≠ 'E'

theorem span_digits {digits : List Char} (h : ∀ c ∈ digits, c.isDigit = true)
    (hrest : ∀ c ∈ rest.head?, c.isDigit = false) :
    (digits ++ rest).span Char.isDigit = (digits, rest) := by
  rw [List.span_eq_takeWhile_dropWhile, List.takeWhile_append_of_pos h,
    List.dropWhile_append_of_pos h]
  cases rest with
  | nil => simp
  | cons c rest => simp [hrest c rfl]

/-- A number above nought does not start with one. -/
theorem toDigits_head (h : 0 < n) : ∃ c more, Nat.toDigits 10 n = c :: more ∧ c ≠ '0' := by
  induction n using Nat.strong_induction_on with
  | _ n ih =>
    by_cases hn : n < 10
    · refine ⟨_, [], Nat.toDigits_of_lt_base hn, ?_⟩
      rw [ne_eq, Nat.digitChar_eq_zero]
      omega
    · obtain ⟨c, more, hdigits, hc⟩ := ih (n / 10) (by omega) (by omega)
      rw [Nat.toDigits_of_base_le (by decide) (by omega), hdigits]
      exact ⟨c, _, rfl, hc⟩

theorem integer_toDigits (hrest : ∀ c ∈ rest.head?, c.isDigit = false) :
    integer (Nat.toDigits 10 n ++ rest) = some (Nat.toDigits 10 n, rest) := by
  rcases Nat.eq_zero_or_pos n with rfl | h
  · rfl
  · have digits : ∀ c ∈ Nat.toDigits 10 n, c.isDigit = true :=
      fun c hc => Nat.isDigit_of_mem_toDigits (by decide) (by decide) hc
    obtain ⟨c, more, hdigits, hc⟩ := toDigits_head h
    have hspan := span_digits digits hrest
    rw [hdigits] at digits hspan ⊢
    rw [List.cons_append, integer, if_neg hc, if_pos (digits c List.mem_cons_self),
      ← List.cons_append, hspan]

theorem fraction_ends (h : Ends rest) : fraction rest = ([], rest) := by
  cases rest with
  | nil => rfl
  | cons c rest => simp [fraction, (h c rfl).2.1]

theorem exponent_ends (h : Ends rest) : exponent rest = ([], rest) := by
  cases rest with
  | nil => rfl
  | cons c rest => simp [exponent, (h c rfl).2.2]

theorem toDigits_digits (n : Nat) :
    ∃ c more, Nat.toDigits 10 n = c :: more ∧ c.isDigit = true := by
  obtain ⟨c, more, h⟩ := List.exists_cons_of_ne_nil (@Nat.toDigits_ne_nil n 10)
  have hmem : c ∈ Nat.toDigits 10 n := h ▸ List.mem_cons_self
  exact ⟨c, more, h, Nat.isDigit_of_mem_toDigits (by decide) (by decide) hmem⟩

/-- A digit starts no word, and is no sign. -/
theorem digit_apart (h : c.isDigit = true) :
    c ≠ 'n' ∧ c ≠ 't' ∧ c ≠ 'f' ∧ c ≠ 'N' ∧ c ≠ 'I' ∧ c ≠ '-' := by
  refine ⟨?_, ?_, ?_, ?_, ?_, ?_⟩ <;> rintro rfl <;> exact absurd h (by decide)

theorem scanNumber_dumps (value : Int) (h : Ends rest) :
    scanNumber float (dumpsInt value ++ rest) = some (.int value, rest) := by
  have hrest : ∀ c ∈ rest.head?, c.isDigit = false := fun c hc => (h c hc).1
  -- no sign is left before the digits
  have unsigned : ∀ n, (Nat.toDigits 10 n ++ rest).span (fun c => decide (c = '-')) =
      ([], Nat.toDigits 10 n ++ rest) := by
    intro n
    obtain ⟨c, more, hdigits, hc⟩ := toDigits_digits n
    have hsign := (digit_apart hc).2.2.2.2.2
    rw [hdigits, List.span_eq_takeWhile_dropWhile]
    simp [hsign]
  cases value with
  | ofNat n =>
    unfold scanNumber dumpsInt
    rw [unsigned n]
    simp [integer_toDigits hrest, fraction_ends h, exponent_ends h]
  | negSucc n =>
    unfold scanNumber dumpsInt
    have signed : ('-' :: Nat.toDigits 10 (n + 1) ++ rest).span (fun c => decide (c = '-')) =
        (['-'], Nat.toDigits 10 (n + 1) ++ rest) := by
      have := unsigned (n + 1)
      rw [List.span_eq_takeWhile_dropWhile] at this ⊢
      simpa using this
    rw [signed]
    simp [integer_toDigits hrest, fraction_ends h, exponent_ends h, Int.negSucc_eq]

/-- A number is not taken for a word. -/
theorem scanScalar_dumps (value : Int) (h : Ends rest) :
    scanScalar float (dumpsInt value ++ rest) = some (.int value, rest) := by
  have none : words.find? (fun word => word.1.isPrefixOf (dumpsInt value ++ rest)) = none := by
    cases value with
    | ofNat n =>
      obtain ⟨c, more, hdigits, hc⟩ := toDigits_digits n
      obtain ⟨h₁, h₂, h₃, h₄, h₅, h₆⟩ := digit_apart hc
      show words.find? (fun word => word.1.isPrefixOf (Nat.toDigits 10 n ++ rest)) = none
      rw [hdigits]
      simp [words, Ne.symm h₁, Ne.symm h₂, Ne.symm h₃, Ne.symm h₄, Ne.symm h₅, Ne.symm h₆]
    | negSucc n =>
      obtain ⟨c, more, hdigits, hc⟩ := toDigits_digits (n + 1)
      simp [words, dumpsInt, hdigits, Ne.symm (digit_apart hc).2.2.2.2.1]
  rw [scanScalar, none]
  exact scanNumber_dumps float value h

/-! ## 5. Floats -/

def Digits (text : List Char) : Prop := text ≠ [] ∧ ∀ c ∈ text, c.isDigit = true

/-- The parts of a finite float's `repr`: it has a fraction or an exponent. -/
structure FloatParts (sign whole tenths power : List Char) : Prop where
  signed : sign = [] ∨ sign = ['-']
  integral : whole = ['0'] ∨ Digits whole ∧ whole.head? ≠ some '0'
  fractional : tenths = [] ∨ ∃ digits, Digits digits ∧ tenths = '.' :: digits
  exponential : power = [] ∨ ∃ minus digits, (minus = ['+'] ∨ minus = ['-'] ∨ minus = []) ∧
    Digits digits ∧ power = 'e' :: minus ++ digits
  isFloat : tenths ≠ [] ∨ power ≠ []

/-- The `repr` of a float: it reads as the float it is of. -/
def FloatText (text : String) : Prop :=
  text = "nan" ∨ text = "inf" ∨ text = "-inf" ∨
    (∃ sign whole tenths power, FloatParts sign whole tenths power ∧
      text.toList = sign ++ whole ++ tenths ++ power) ∧ float text.toList = text

theorem Digits.head (h : Digits text) :
    ∃ c more, text = c :: more ∧ c.isDigit = true := by
  obtain ⟨c, more, rfl⟩ := List.exists_cons_of_ne_nil h.1
  exact ⟨c, more, rfl, h.2 c List.mem_cons_self⟩

section parts

variable {sign whole tenths power : List Char}

theorem integer_whole (h : whole = ['0'] ∨ Digits whole ∧ whole.head? ≠ some '0')
    (hrest : ∀ c ∈ rest.head?, c.isDigit = false) :
    integer (whole ++ rest) = some (whole, rest) := by
  rcases h with rfl | ⟨digits, hzero⟩
  · rfl
  · have hspan := span_digits digits.2 hrest
    obtain ⟨c, more, rfl, hc⟩ := digits.head
    have hne : c ≠ '0' := by
      rintro rfl
      exact hzero rfl
    rw [List.cons_append, integer, if_neg hne, if_pos hc, ← List.cons_append, hspan]

theorem fraction_tenths (h : tenths = [] ∨ ∃ digits, Digits digits ∧ tenths = '.' :: digits)
    (hrest : ∀ c ∈ rest.head?, c.isDigit = false ∧ c ≠ '.') :
    fraction (tenths ++ rest) = (tenths, rest) := by
  rcases h with rfl | ⟨digits, hdigits, rfl⟩
  · cases rest with
    | nil => rfl
    | cons c rest => simp [fraction, (hrest c rfl).2]
  · have hspan := span_digits hdigits.2 fun c hc => (hrest c hc).1
    rw [List.cons_append, fraction, hspan]
    exact if_pos ⟨rfl, hdigits.1⟩

theorem exponent_power (h : power = [] ∨ ∃ minus digits,
      (minus = ['+'] ∨ minus = ['-'] ∨ minus = []) ∧ Digits digits ∧
        power = 'e' :: minus ++ digits)
    (hrest : Ends rest) : exponent (power ++ rest) = (power, rest) := by
  rcases h with rfl | ⟨minus, digits, hminus, hdigits, rfl⟩
  · exact exponent_ends hrest
  · have hspan := span_digits hdigits.2 fun c hc => (hrest c hc).1
    obtain ⟨d, more, rfl, hd⟩ := hdigits.head
    have hplus : d ≠ '+' := by
      rintro rfl
      exact absurd hd (by decide)
    have hdash : d ≠ '-' := by
      rintro rfl
      exact absurd hd (by decide)
    -- the sign is what stands before the first digit
    have hsign : (minus ++ d :: more ++ rest).span (fun c => c = '+' || c = '-') =
        (minus, d :: more ++ rest) := by
      rw [List.span_eq_takeWhile_dropWhile]
      rcases hminus with rfl | rfl | rfl <;> simp [hplus, hdash]
    have hlength : minus.length ≤ 1 := by rcases hminus with rfl | rfl | rfl <;> simp
    rw [List.cons_append, List.cons_append, exponent, hsign]
    dsimp only
    rw [hspan]
    simp [hlength]

theorem FloatParts.scan (h : FloatParts sign whole tenths power) (hrest : Ends rest) :
    scanNumber float (sign ++ whole ++ tenths ++ power ++ rest) =
      some (.float (float (sign ++ whole ++ tenths ++ power)), rest) := by
  -- no part goes on where the next one begins
  have hpower : ∀ c ∈ (power ++ rest).head?, c.isDigit = false ∧ c ≠ '.' := by
    rcases h.exponential with hpower | ⟨minus, digits, -, -, hpower⟩
    · rw [hpower]
      exact fun c hc => ⟨(hrest c hc).1, (hrest c hc).2.1⟩
    · rw [hpower]
      rintro c ⟨⟩
      decide
  have htenths : ∀ c ∈ (tenths ++ (power ++ rest)).head?, c.isDigit = false := by
    rcases h.fractional with htenths | ⟨digits, -, htenths⟩
    · rw [htenths]
      exact fun c hc => (hpower c hc).1
    · rw [htenths]
      rintro c ⟨⟩
      decide
  have hwhole : ∃ c more, whole = c :: more ∧ c ≠ '-' := by
    rcases h.integral with rfl | ⟨digits, -⟩
    · exact ⟨'0', [], rfl, by decide⟩
    · obtain ⟨c, more, rfl, hc⟩ := digits.head
      exact ⟨c, more, rfl, (digit_apart hc).2.2.2.2.2⟩
  obtain ⟨c, more, hwhole, hc⟩ := hwhole
  have hsign : (sign ++ (whole ++ (tenths ++ (power ++ rest)))).span (fun c => decide (c = '-')) =
      (sign, whole ++ (tenths ++ (power ++ rest))) := by
    rw [List.span_eq_takeWhile_dropWhile, hwhole]
    rcases h.signed with hsign | hsign <;> simp [hsign, hc]
  have hlength : sign.length ≤ 1 := by rcases h.signed with hsign | hsign <;> simp [hsign]
  have hfloat : ¬(tenths = [] ∧ power = []) := by
    rintro ⟨htenths, hpower⟩
    exact h.isFloat.elim (fun hne => hne htenths) fun hne => hne hpower
  unfold scanNumber
  simp only [List.append_assoc]
  rw [hsign]
  simp [hlength, integer_whole h.integral htenths, fraction_tenths h.fractional hpower,
    exponent_power h.exponential hrest, hfloat]

theorem FloatParts.head (h : FloatParts sign whole tenths power) :
    ∃ c more, sign ++ whole ++ tenths ++ power = c :: more ∧
      (c.isDigit = true ∨ c = '-' ∧ ∃ d rest, more = d :: rest ∧ d.isDigit = true) := by
  have hwhole : ∃ c more, whole = c :: more ∧ c.isDigit = true := by
    rcases h.integral with rfl | ⟨digits, -⟩
    · exact ⟨'0', [], rfl, by decide⟩
    · exact digits.head
  obtain ⟨c, more, rfl, hc⟩ := hwhole
  rcases h.signed with rfl | rfl
  · exact ⟨c, more ++ tenths ++ power, by simp, .inl hc⟩
  · exact ⟨'-', c :: more ++ tenths ++ power, by simp, .inr ⟨rfl, c, _, by simp; rfl, hc⟩⟩

theorem FloatParts.plain (h : FloatParts sign whole tenths power) :
    ∀ c ∈ sign ++ whole ++ tenths ++ power, 32 ≤ c.toNat := by
  have digits : ∀ text : List Char, (∀ c ∈ text, c.isDigit = true) → ∀ c ∈ text, 32 ≤ c.toNat := by
    intro text h c hc
    have hdigit := h c hc
    simp only [Char.isDigit, Bool.and_eq_true, decide_eq_true_eq] at hdigit
    exact Nat.le_trans (by decide) hdigit.1
  have hsign : ∀ c ∈ sign, 32 ≤ c.toNat := by
    rcases h.signed with rfl | rfl <;> simp
  have hwhole : ∀ c ∈ whole, 32 ≤ c.toNat := by
    rcases h.integral with rfl | ⟨hdigits, -⟩
    · simp
    · exact digits _ hdigits.2
  have htenths : ∀ c ∈ tenths, 32 ≤ c.toNat := by
    rcases h.fractional with rfl | ⟨text, hdigits, rfl⟩
    · simp
    · exact List.forall_mem_cons.mpr ⟨by decide, digits _ hdigits.2⟩
  have hpower : ∀ c ∈ power, 32 ≤ c.toNat := by
    rcases h.exponential with rfl | ⟨minus, text, hminus, hdigits, rfl⟩
    · simp
    · refine List.forall_mem_append.mpr ⟨List.forall_mem_cons.mpr ⟨by decide, ?_⟩,
        digits _ hdigits.2⟩
      rcases hminus with rfl | rfl | rfl <;> simp
  simp only [List.forall_mem_append]
  exact ⟨⟨⟨hsign, hwhole⟩, htenths⟩, hpower⟩

end parts

/-- A float is written as a word or as a number. -/
theorem FloatText.cases {text : String} (h : FloatText float text) :
    (text = "nan" ∨ text = "inf" ∨ text = "-inf") ∨
      ∃ sign whole tenths power, FloatParts sign whole tenths power ∧
        dumpsFloat text = sign ++ whole ++ tenths ++ power ∧
        float (sign ++ whole ++ tenths ++ power) = text := by
  by_cases hword : text = "nan" ∨ text = "inf" ∨ text = "-inf"
  · exact .inl hword
  obtain ⟨hnan, hinf, hneg⟩ := by simpa only [not_or] using hword
  rcases h with h | h | h | ⟨⟨sign, whole, tenths, power, parts, htext⟩, hread⟩
  · exact absurd h hnan
  · exact absurd h hinf
  · exact absurd h hneg
  · refine .inr ⟨sign, whole, tenths, power, parts, ?_, htext ▸ hread⟩
    rw [dumpsFloat, if_neg hnan, if_neg hinf, if_neg hneg, htext]

/-- A float is read back. -/
theorem scanScalar_float {text : String} (h : FloatText float text) (hrest : Ends rest) :
    scanScalar float (dumpsFloat text ++ rest) = some (.float text, rest) := by
  rcases h.cases with (rfl | rfl | rfl) | ⟨sign, whole, tenths, power, parts, hdumps, hread⟩
  · rfl
  · rfl
  · rfl
  · have scan := parts.scan float hrest
    have none : words.find? (fun word => word.1.isPrefixOf (dumpsFloat text ++ rest)) = none := by
      obtain ⟨c, more, hhead, hc⟩ := parts.head
      rw [hdumps, hhead]
      rcases hc with hc | ⟨rfl, d, more, rfl, hd⟩
      · obtain ⟨h₁, h₂, h₃, h₄, h₅, h₆⟩ := digit_apart hc
        simp [words, Ne.symm h₁, Ne.symm h₂, Ne.symm h₃, Ne.symm h₄, Ne.symm h₅, Ne.symm h₆]
      · simp [words, Ne.symm (digit_apart hd).2.2.2.2.1]
    rw [scanScalar, none, hdumps]
    rw [hread] at scan
    exact scan

theorem dumpsFloat_head {text : String} (h : FloatText float text) :
    ∃ c more, dumpsFloat text = c :: more ∧ isSpace c = false ∧ c ≠ ']' ∧ c ≠ '"' ∧ c ≠ '[' ∧
      c ≠ '\x7b' := by
  rcases h.cases with (rfl | rfl | rfl) | ⟨sign, whole, tenths, power, parts, hdumps, -⟩
  · exact ⟨_, _, rfl, by decide⟩
  · exact ⟨_, _, rfl, by decide⟩
  · exact ⟨_, _, rfl, by decide⟩
  · obtain ⟨c, more, hhead, hc⟩ := parts.head
    refine ⟨c, more, hdumps.trans hhead, ?_⟩
    rcases hc with hc | ⟨rfl, -⟩
    · refine ⟨?_, ?_, ?_, ?_, ?_⟩
      · by_contra hspace
        simp only [isSpace, Bool.not_eq_false, Bool.or_eq_true, decide_eq_true_eq] at hspace
        rcases hspace with ((rfl | rfl) | rfl) | rfl <;> exact absurd hc (by decide)
      all_goals
        rintro rfl
        exact absurd hc (by decide)
    · decide

theorem dumpsFloat_plain {text : String} (h : FloatText float text) :
    ∀ d ∈ dumpsFloat text, 32 ≤ d.toNat := by
  have named : ∀ {name : List Char}, name.all (fun d => 32 ≤ d.toNat) = true →
      ∀ d ∈ name, 32 ≤ d.toNat :=
    fun hall d hd => of_decide_eq_true (List.all_eq_true.mp hall d hd)
  rcases h.cases with (rfl | rfl | rfl) | ⟨sign, whole, tenths, power, parts, hdumps, -⟩
  · exact named (by decide)
  · exact named (by decide)
  · exact named (by decide)
  · rw [hdumps]
    exact parts.plain

/-! ## 6. Values -/

mutual

/-- The floats in the value are written as they are, and no `dict` in it has two fields of a
    name. -/
def Readable : Json → Prop
  | .null | .bool _ | .int _ | .str _ => True
  | .float text => FloatText float text
  | .arr items => ReadableItems items
  | .obj fields => (fields.map Prod.fst).Nodup ∧ ReadableFields fields

def ReadableItems : List Json → Prop
  | [] => True
  | item :: items => Readable item ∧ ReadableItems items

def ReadableFields : List (String × Json) → Prop
  | [] => True
  | (_, value) :: fields => Readable value ∧ ReadableFields fields

end

theorem skip_cons (h : isSpace c = false) : skip (c :: rest) = c :: rest := by
  simp [skip, h]

theorem dumps_head {value : Json} (h : Readable float value) :
    ∃ c more, dumps value = c :: more ∧ isSpace c = false ∧ c ≠ ']' := by
  cases value with
  | int value =>
    cases value with
    | ofNat n =>
      obtain ⟨c, more, hdigits, hc⟩ := toDigits_digits n
      refine ⟨c, more, hdigits, ?_, ?_⟩
      · by_contra hspace
        simp only [isSpace, Bool.not_eq_false, Bool.or_eq_true, decide_eq_true_eq] at hspace
        rcases hspace with ((rfl | rfl) | rfl) | rfl <;> exact absurd hc (by decide)
      · rintro rfl
        exact absurd hc (by decide)
    | negSucc n => exact ⟨_, _, rfl, rfl, by decide⟩
  | bool value => cases value <;> exact ⟨_, _, rfl, rfl, by decide⟩
  | float text =>
    obtain ⟨c, more, hdumps, hspace, hc, -⟩ := dumpsFloat_head float h
    exact ⟨c, more, hdumps, hspace, hc⟩
  | null | str value | arr items | obj fields => exact ⟨_, _, rfl, rfl, by decide⟩

theorem ends_comma : Ends (',' :: rest) := by
  rintro c ⟨⟩
  decide

theorem ends_bracket : Ends (']' :: rest) := by
  rintro c ⟨⟩
  decide

theorem ends_brace : Ends ('\x7d' :: rest) := by
  rintro c ⟨⟩
  decide

theorem setField_fresh {fields : JsonObject} {name : String} {value : Json}
    (h : name ∉ fields.map Prod.fst) : setField fields name value = fields ++ [(name, value)] :=
  if_neg h

theorem scanOnce_string (value : String) :
    scanOnce float (n + 1) (dumpsString value ++ rest) = some (.str value, rest) := by
  have h := @scanString_dumps rest value
  unfold dumpsString
  rw [List.append_assoc, List.cons_append, List.singleton_append, scanOnce, if_pos rfl, h]
  simp

section steps

variable {value : Json} {items : List Json} {fields : JsonObject} {name : String}

theorem scanOnce_bracket (hspace : isSpace c = false) (hc : c ≠ ']') :
    scanOnce float (n + 1) ('[' :: c :: rest) = scanItems float n [] (c :: rest) := by
  rw [scanOnce, if_neg (by decide), if_pos rfl, skip_cons hspace]
  split
  · rename_i h
    exact absurd (List.cons.inj h).1 hc
  · rfl

theorem scanItems_last (h : scanOnce float n text = some (value, ']' :: rest)) :
    scanItems float (n + 1) items text = some (.arr (items ++ [value]), rest) := by
  rw [scanItems, h]
  rfl

theorem scanItems_next (h : scanOnce float n text = some (value, ',' :: rest))
    (hrest : skip rest = rest) :
    scanItems float (n + 1) items text = scanItems float n (items ++ [value]) rest := by
  rw [scanItems, h]
  show scanItems float n (items ++ [value]) (skip rest) = _
  rw [hrest]

/-- The name of a field is read, up to its colon. -/
theorem scanFields_name (htext : skip text = text) :
    scanFields float (n + 1) fields (dumpsString name ++ ':' :: text) = (do
      let (value, rest) ← scanOnce float n text
      match skip rest with
      | '\x7d' :: rest => some (.obj (setField fields name value), rest)
      | ',' :: rest => scanFields float n (setField fields name value) (skip rest)
      | _ => none) := by
  have h := @scanString_dumps (':' :: text) name
  have colon : skip (':' :: text) = ':' :: text := skip_cons (by decide)
  unfold dumpsString
  rw [List.append_assoc, List.cons_append, List.singleton_append, scanFields, if_pos rfl, h]
  simp only [Option.bind_eq_bind, Option.bind_some, colon, htext, String.ofList_toList]

theorem scanFields_last (htext : skip text = text)
    (h : scanOnce float n text = some (value, '\x7d' :: rest)) :
    scanFields float (n + 1) fields (dumpsString name ++ ':' :: text) =
      some (.obj (setField fields name value), rest) := by
  rw [scanFields_name float htext, h]
  rfl

theorem scanFields_next (htext : skip text = text)
    (h : scanOnce float n text = some (value, ',' :: rest)) (hrest : skip rest = rest) :
    scanFields float (n + 1) fields (dumpsString name ++ ':' :: text) =
      scanFields float n (setField fields name value) rest := by
  rw [scanFields_name float htext, h]
  show scanFields float n (setField fields name value) (skip rest) = _
  rw [hrest]

end steps

theorem skip_dumps {value : Json} (h : Readable float value) :
    skip (dumps value ++ rest) = dumps value ++ rest := by
  obtain ⟨c, more, hdumps, hspace, -⟩ := dumps_head float h
  rw [hdumps]
  exact skip_cons hspace

theorem dumpsItems_head {items : List Json} (hne : items ≠ []) (h : ReadableItems float items) :
    ∃ c more, dumpsItems items = c :: more ∧ isSpace c = false ∧ c ≠ ']' := by
  cases items with
  | nil => exact absurd rfl hne
  | cons item items =>
    obtain ⟨c, more, hdumps, hc⟩ := dumps_head float h.1
    cases items with
    | nil => exact ⟨c, more, hdumps, hc⟩
    | cons next items =>
      refine ⟨c, more ++ ',' :: dumpsItems (next :: items), ?_, hc⟩
      rw [dumpsItems, hdumps, List.cons_append]
      simp

theorem skip_dumpsItems {items : List Json} (hne : items ≠ []) (h : ReadableItems float items) :
    skip (dumpsItems items ++ rest) = dumpsItems items ++ rest := by
  obtain ⟨c, more, hdumps, hspace, -⟩ := dumpsItems_head float hne h
  rw [hdumps]
  exact skip_cons hspace

theorem dumpsFields_head {fields : JsonObject} (hne : fields ≠ []) :
    ∃ more, dumpsFields fields = '"' :: more := by
  cases fields with
  | nil => exact absurd rfl hne
  | cons field fields => cases fields <;> exact ⟨_, rfl⟩

theorem skip_dumpsFields {fields : JsonObject} (hne : fields ≠ []) :
    skip (dumpsFields fields ++ rest) = dumpsFields fields ++ rest := by
  obtain ⟨more, hdumps⟩ := dumpsFields_head hne
  rw [hdumps]
  exact skip_cons rfl

mutual

/-- A value is read back from what it is written as, whatever follows. -/
theorem scanOnce_dumps : (value : Json) → Readable float value → ∀ (n : Nat) (rest : List Char),
    (dumps value).length ≤ n → Ends rest →
      scanOnce float n (dumps value ++ rest) = some (value, rest)
  | .null, _, n + 1, rest, _, _ => rfl
  | .bool true, _, n + 1, rest, _, _ => rfl
  | .bool false, _, n + 1, rest, _, _ => rfl
  | .int value, h, 0, rest, hn, _ => by
    obtain ⟨c, more, hdumps, -⟩ := dumps_head float h
    rw [hdumps] at hn
    exact absurd hn (by simp)
  | .int value, h, n + 1, rest, _, hrest => by
    have scalar := scanScalar_dumps float value hrest
    -- the first character is none of those that open a string, a list or a `dict`
    have plain : ∃ c more, dumpsInt value = c :: more ∧ c ≠ '"' ∧ c ≠ '[' ∧ c ≠ '\x7b' := by
      cases value with
      | ofNat n =>
        obtain ⟨c, more, hdigits, hc⟩ := toDigits_digits n
        refine ⟨c, more, hdigits, ?_, ?_, ?_⟩ <;> rintro rfl <;> exact absurd hc (by decide)
      | negSucc n => exact ⟨_, _, rfl, by decide, by decide, by decide⟩
    obtain ⟨c, more, hdumps, hquote, hbracket, hbrace⟩ := plain
    rw [hdumps, List.cons_append] at scalar
    rw [dumps, hdumps, List.cons_append, scanOnce, if_neg hquote, if_neg hbracket, if_neg hbrace,
      scalar]
  | .float text, h, 0, rest, hn, _ => by
    obtain ⟨c, more, hdumps, -⟩ := dumps_head float h
    rw [hdumps] at hn
    exact absurd hn (by simp)
  | .float text, h, n + 1, rest, _, hrest => by
    have scalar := scanScalar_float float h hrest
    obtain ⟨c, more, hdumps, -, -, hquote, hbracket, hbrace⟩ := dumpsFloat_head float h
    rw [hdumps, List.cons_append] at scalar
    rw [dumps, hdumps, List.cons_append, scanOnce, if_neg hquote, if_neg hbracket, if_neg hbrace,
      scalar]
  | .str value, _, n + 1, rest, _, _ => scanOnce_string float value
  | .arr [], _, n + 1, rest, _, _ => rfl
  | .arr (item :: items), h, n + 1, rest, hn, _ => by
    have hlength : (dumpsItems (item :: items)).length < n := by
      simp only [dumps, List.length_append, List.length_cons, List.length_nil] at hn
      omega
    have loop := scanItems_dumps (item :: items) (by simp) h n rest [] hlength
    obtain ⟨c, more, hdumps, hspace, hc⟩ := dumpsItems_head float (by simp) h
    rw [dumps, List.append_assoc, List.cons_append]
    rw [hdumps] at loop ⊢
    exact (scanOnce_bracket float hspace hc).trans loop
  | .obj [], _, n + 1, rest, _, _ => rfl
  | .obj (field :: fields), h, n + 1, rest, hn, _ => by
    have hlength : (dumpsFields (field :: fields)).length < n := by
      simp only [dumps, List.length_append, List.length_cons, List.length_nil] at hn
      omega
    have loop := scanFields_dumps (field :: fields) (by simp) h.2 n rest [] h.1 hlength
    obtain ⟨more, hdumps⟩ := @dumpsFields_head (field :: fields) (by simp)
    rw [dumps, List.append_assoc, List.cons_append]
    rw [hdumps] at loop ⊢
    exact loop

theorem scanItems_dumps : (items : List Json) → items ≠ [] → ReadableItems float items →
    ∀ (n : Nat) (rest : List Char) (seen : List Json), (dumpsItems items).length < n →
      scanItems float n seen (dumpsItems items ++ ']' :: rest) = some (.arr (seen ++ items), rest)
  | [item], _, h, n + 1, rest, seen, hn =>
    scanItems_last float (scanOnce_dumps item h.1 n _ (Nat.le_of_lt_succ hn) ends_bracket)
  | item :: next :: items, _, h, n + 1, rest, seen, hn => by
    simp only [dumpsItems, List.length_append, List.length_cons] at hn
    have first := scanOnce_dumps item h.1 n (',' :: (dumpsItems (next :: items) ++ ']' :: rest))
      (by omega) ends_comma
    have others := scanItems_dumps (next :: items) (by simp) h.2 n rest (seen ++ [item]) (by omega)
    simp only [dumpsItems, List.append_assoc, List.cons_append]
    rw [scanItems_next float first (skip_dumpsItems float (by simp) h.2), others, List.append_assoc]
    rfl

theorem scanFields_dumps : (fields : JsonObject) → fields ≠ [] → ReadableFields float fields →
    ∀ (n : Nat) (rest : List Char) (seen : JsonObject), ((seen ++ fields).map Prod.fst).Nodup →
      (dumpsFields fields).length < n →
      scanFields float n seen (dumpsFields fields ++ '\x7d' :: rest) =
        some (.obj (seen ++ fields), rest)
  | [(name, value)], _, h, n + 1, rest, seen, hnodup, hn => by
    simp only [dumpsFields, List.length_append, List.length_cons] at hn
    have fresh : name ∉ seen.map Prod.fst := by
      rw [List.map_append, List.nodup_append_comm] at hnodup
      exact (List.nodup_cons.mp hnodup).1
    have first := scanOnce_dumps value h.1 n ('\x7d' :: rest) (by omega) ends_brace
    rw [dumpsFields, List.append_assoc, List.cons_append,
      scanFields_last float (skip_dumps float h.1) first, setField_fresh fresh]
  | (name, value) :: next :: fields, _, h, n + 1, rest, seen, hnodup, hn => by
    simp only [dumpsFields, List.length_append, List.length_cons] at hn
    have fresh : name ∉ seen.map Prod.fst := by
      rw [List.map_append, List.nodup_append_comm] at hnodup
      exact fun hmem => (List.nodup_cons.mp hnodup).1 (List.mem_append_right _ hmem)
    rw [List.append_cons] at hnodup
    have first := scanOnce_dumps value h.1 n
      (',' :: (dumpsFields (next :: fields) ++ '\x7d' :: rest)) (by omega) ends_comma
    have others := scanFields_dumps (next :: fields) (by simp) h.2 n rest
      (seen ++ [(name, value)]) hnodup (by omega)
    simp only [dumpsFields, List.append_assoc, List.cons_append]
    rw [scanFields_next float (skip_dumps float h.1) first (skip_dumpsFields (by simp)),
      setField_fresh fresh, others, ← List.append_cons]

end

/-- **What is written reads back.** -/
theorem loads_dumps {value : Json} (h : Readable float value) :
    loads float (dumps value) = some value := by
  have scan := scanOnce_dumps float value h ((dumps value).length + 1) [] (Nat.le_succ _) nofun
  have start := @skip_dumps float [] value h
  rw [List.append_nil] at scan start
  rw [loads, start, scan]
  rfl

/-! ## 7. What is written has no control character -/

theorem escape_plain : ∀ d ∈ escape c, 32 ≤ d.toNat := by
  intro d hd
  rcases escape_spec c with ⟨heq, -, -, hcontrol⟩ | ⟨shown, heq, -, hplain⟩
  · rw [heq, List.mem_singleton] at hd
    exact hd ▸ Nat.not_lt.mp hcontrol
  · rw [heq] at hd
    rcases List.mem_cons.mp hd with rfl | hd
    · decide
    · exact hplain d hd

theorem dumpsString_plain (value : String) : ∀ d ∈ dumpsString value, 32 ≤ d.toNat := by
  unfold dumpsString
  rw [List.forall_mem_append, List.forall_mem_cons]
  refine ⟨⟨by simp, fun d hd => ?_⟩, by simp⟩
  obtain ⟨c, -, hd⟩ := List.mem_flatMap.mp hd
  exact escape_plain d hd

theorem dumpsInt_plain (value : Int) : ∀ d ∈ dumpsInt value, 32 ≤ d.toNat := by
  have digits : ∀ n, ∀ d ∈ Nat.toDigits 10 n, 32 ≤ d.toNat := by
    intro n d hd
    have hdigit := Nat.isDigit_of_mem_toDigits (by decide) (by decide) hd
    simp only [Char.isDigit, Bool.and_eq_true, decide_eq_true_eq] at hdigit
    exact Nat.le_trans (by decide) hdigit.1
  cases value with
  | ofNat n => exact digits n
  | negSucc n => exact List.forall_mem_cons.mpr ⟨by simp, digits (n + 1)⟩

mutual

/-- **What is written is a line.** -/
theorem dumps_plain : (value : Json) → Readable float value → ∀ d ∈ dumps value, 32 ≤ d.toNat
  | .null, _ => by simp [dumps]
  | .bool true, _ => by simp [dumps]
  | .bool false, _ => by simp [dumps]
  | .int value, _ => dumpsInt_plain value
  | .float _, h => dumpsFloat_plain float h
  | .str value, _ => dumpsString_plain value
  | .arr items, h => by
    rw [dumps, List.forall_mem_append, List.forall_mem_cons]
    exact ⟨⟨by simp, dumpsItems_plain items h⟩, by simp⟩
  | .obj fields, h => by
    rw [dumps, List.forall_mem_append, List.forall_mem_cons]
    exact ⟨⟨by simp, dumpsFields_plain fields h.2⟩, by simp⟩

theorem dumpsItems_plain : (items : List Json) → ReadableItems float items →
    ∀ d ∈ dumpsItems items, 32 ≤ d.toNat
  | [], _ => nofun
  | [item], h => dumps_plain item h.1
  | item :: next :: items, h => by
    rw [dumpsItems, List.forall_mem_append, List.forall_mem_cons]
    · exact ⟨dumps_plain item h.1, by simp, dumpsItems_plain (next :: items) h.2⟩
    · simp

theorem dumpsFields_plain : (fields : JsonObject) → ReadableFields float fields →
    ∀ d ∈ dumpsFields fields, 32 ≤ d.toNat
  | [], _ => nofun
  | [(name, value)], h => by
    rw [dumpsFields, List.forall_mem_append, List.forall_mem_cons]
    exact ⟨dumpsString_plain name, by simp, dumps_plain value h.1⟩
  | (name, value) :: next :: fields, h => by
    rw [dumpsFields, List.forall_mem_append, List.forall_mem_append, List.forall_mem_cons,
      List.forall_mem_cons]
    · exact ⟨⟨dumpsString_plain name, by simp, dumps_plain value h.1⟩, by decide,
        dumpsFields_plain (next :: fields) h.2⟩
    · simp

end

end Data.Json

namespace Data

/-! ## 8. Text as bytes -/

/-- `text.encode("utf-8")`. -/
def utf8 (text : List Char) : List UInt8 := text.flatMap String.utf8EncodeChar

/-- `raw.decode("utf-8")`: `none` where it raises. -/
def decodeUtf8 (raw : List UInt8) : Option (List Char) :=
  raw.toByteArray.utf8Decode?.map Array.toList

variable {text : List Char} {c : Char}

theorem decodeUtf8_utf8 : decodeUtf8 (utf8 text) = some text := by
  have same : (utf8 text).toByteArray = text.utf8Encode := rfl
  rw [decodeUtf8, same, List.utf8Decode?_utf8Encode]
  rfl

theorem utf8EncodeChar_plain (h : 32 ≤ c.toNat) : ∀ b ∈ String.utf8EncodeChar c, 0x20 ≤ b.toNat := by
  have hc : 0x20 ≤ c.val.toNat := h
  simp only [String.utf8EncodeChar]
  generalize c.val.toNat = v at hc
  -- one case for each length of a character
  split_ifs <;> simp only [List.forall_mem_cons, UInt8.toNat_ofNat', List.not_mem_nil,
    IsEmpty.forall_iff, implies_true, and_true] <;> omega

/-- A text without control characters has no byte that is one. -/
theorem utf8_plain (h : ∀ c ∈ text, 32 ≤ c.toNat) : ∀ b ∈ utf8 text, 0x20 ≤ b.toNat := by
  intro b hb
  obtain ⟨c, hc, hb⟩ := List.mem_flatMap.mp hb
  exact utf8EncodeChar_plain (h c hc) b hb

end Data
