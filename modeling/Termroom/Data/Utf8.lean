import Mathlib
import Termroom.Data.JsonText

/-!
# UTF-8 in parts

A text that is cut anywhere: which bytes a character starts with, how an incremental decoder goes
over the bytes (`accept`), and what it makes of a slice of a text (`feed_slice`). A slice can start
inside a character, with up to three continuation bytes, and it can end inside one.
-/

set_option autoImplicit false

namespace Data.Utf8

/-! ## 1. Bytes -/

/-- A byte that no character starts with. -/
def isContinuation (b : UInt8) : Bool := 0x80 ≤ b.toNat && b.toNat ≤ 0xBF

/-- How many of the first bytes, up to a limit, are continuation bytes. -/
def leadingContinuations : (limit : Nat) → List UInt8 → Nat
  | 0, _ | _, [] => 0
  | limit + 1, b :: raw => if isContinuation b then leadingContinuations limit raw + 1 else 0

/-! ## 2. The incremental decoder -/

/-- What is left of a character: the continuation bytes that are owed, the range of the next one,
    and the value so far. -/
structure Decoder where
  owed : Nat
  low : Nat
  high : Nat
  value : Nat
  deriving DecidableEq, Repr

/-- Between two characters. -/
def Decoder.start : Decoder := ⟨0, 0, 0, 0⟩

/-- The first byte of a character; the range of the second excludes the longer spellings of a
    shorter character, the surrogates and what lies beyond the last character. -/
def acceptFirst (b : Nat) : Option (Decoder × List Char) :=
  if b < 0x80 then some (.start, [Char.ofNat b])
  else if 0xC2 ≤ b ∧ b < 0xE0 then some (⟨1, 0x80, 0xBF, b - 0xC0⟩, [])
  else if 0xE0 ≤ b ∧ b < 0xF0 then
    some (⟨2, if b = 0xE0 then 0xA0 else 0x80, if b = 0xED then 0x9F else 0xBF, b - 0xE0⟩, [])
  else if 0xF0 ≤ b ∧ b < 0xF5 then
    some (⟨3, if b = 0xF0 then 0x90 else 0x80, if b = 0xF4 then 0x8F else 0xBF, b - 0xF0⟩, [])
  else none

/-- One byte: `none` where the decoder raises. -/
def accept (d : Decoder) (b : Nat) : Option (Decoder × List Char) :=
  if d.owed = 0 then acceptFirst b
  else if d.low ≤ b ∧ b ≤ d.high then
    let value := d.value * 64 + (b - 0x80)
    if d.owed = 1 then some (.start, [Char.ofNat value])
    else some (⟨d.owed - 1, 0x80, 0xBF, value⟩, [])
  else none

/-- All bytes in turn, and the characters that they complete. -/
def feed (d : Decoder) : List UInt8 → Option (Decoder × List Char)
  | [] => some (d, [])
  | b :: raw => do
    let (d, first) ← accept d b.toNat
    let (d, rest) ← feed d raw
    return (d, first ++ rest)

/-- `decoder.decode(raw, final=final)` of a new decoder: what is left over is kept for later,
    unless there is no later. -/
def decode (final : Bool) (raw : List UInt8) : Option (List Char) := do
  let (d, text) ← feed .start raw
  if final ∧ d.owed ≠ 0 then none else return text

/-! ## 3. One character -/

variable {c : Char} {b : UInt8} {raw more p q : List UInt8} {d d' : Decoder}
  {text rest out out' : List Char} {i j k n pos limit : Nat}

theorem feed_cons (h : accept d b.toNat = some (d', out)) :
    feed d (b :: raw) = (feed d' raw).map fun r => (r.1, out ++ r.2) := by
  rw [feed, h, Option.bind_eq_bind, Option.bind_some]
  dsimp only
  cases feed d' raw <;> rfl

theorem feed_cons_iff : feed d (b :: raw) = some (d', out) ↔ ∃ d₁ first rest,
    accept d b.toNat = some (d₁, first) ∧ feed d₁ raw = some (d', rest) ∧ out = first ++ rest := by
  rw [feed]
  simp only [Option.bind_eq_bind, Option.bind_eq_some_iff, Option.pure_def, Option.some.injEq,
    Prod.mk.injEq, Prod.exists]
  constructor
  · rintro ⟨d₁, first, haccept, d₂, rest, hfeed, rfl, rfl⟩
    exact ⟨d₁, first, rest, haccept, hfeed, rfl⟩
  · rintro ⟨d₁, first, rest, haccept, hfeed, rfl⟩
    exact ⟨d₁, first, haccept, d', rest, hfeed, rfl, rfl⟩

theorem feed_append_iff : feed d (raw ++ more) = some (d', out) ↔ ∃ d₁ first rest,
    feed d raw = some (d₁, first) ∧ feed d₁ more = some (d', rest) ∧ out = first ++ rest := by
  induction raw generalizing d out with
  | nil => simp [feed]
  | cons b raw ih =>
    simp only [List.cons_append, feed_cons_iff, ih]
    constructor
    · rintro ⟨d₁, first, -, haccept, ⟨d₂, second, rest, hfeed, hmore, rfl⟩, rfl⟩
      exact ⟨d₂, first ++ second, rest, ⟨d₁, first, second, haccept, hfeed, rfl⟩, hmore,
        (List.append_assoc _ _ _).symm⟩
    · rintro ⟨d₂, -, rest, ⟨d₁, first, second, haccept, hfeed, rfl⟩, hmore, rfl⟩
      exact ⟨d₁, first, second ++ rest, haccept, ⟨d₂, second, rest, hfeed, hmore, rfl⟩,
        List.append_assoc _ _ _⟩

/-- How a value is spelled: in one, two, three or four bytes. -/
inductive Spelling (v : Nat) : List UInt8 → Prop
  | one {a : UInt8} (small : v < 0x80) (first : a.toNat = v) : Spelling v [a]
  | two {a b : UInt8} (range : 0x80 ≤ v ∧ v < 0x800) (first : a.toNat = 0xC0 + v / 64)
      (second : b.toNat = 0x80 + v % 64) : Spelling v [a, b]
  | three {a b c : UInt8} (range : 0x800 ≤ v ∧ v < 0x10000) (first : a.toNat = 0xE0 + v / 4096)
      (second : b.toNat = 0x80 + v / 64 % 64) (third : c.toNat = 0x80 + v % 64) :
      Spelling v [a, b, c]
  | four {a b c d : UInt8} (range : 0x10000 ≤ v ∧ v < 0x110000)
      (first : a.toNat = 0xF0 + v / 262144) (second : b.toNat = 0x80 + v / 4096 % 64)
      (third : c.toNat = 0x80 + v / 64 % 64) (fourth : d.toNat = 0x80 + v % 64) :
      Spelling v [a, b, c, d]

/-- A character is no surrogate. -/
theorem toNat_scalar (c : Char) :
    c.val.toNat < 0xD800 ∨ 0xDFFF < c.val.toNat ∧ c.val.toNat < 0x110000 := c.valid

theorem spelling (c : Char) : Spelling c.val.toNat (String.utf8EncodeChar c) := by
  have hscalar := toNat_scalar c
  unfold String.utf8EncodeChar
  generalize c.val.toNat = v at hscalar
  dsimp only
  split_ifs with h1 h2 h3
  · exact .one (by omega) (by rw [UInt8.toNat_ofNat']; omega)
  · apply Spelling.two ⟨by omega, by omega⟩ <;> rw [UInt8.toNat_ofNat'] <;> omega
  · apply Spelling.three ⟨by omega, by omega⟩ <;> rw [UInt8.toNat_ofNat'] <;> omega
  · apply Spelling.four ⟨by omega, by omega⟩ <;> rw [UInt8.toNat_ofNat'] <;> omega

theorem accept_last {low high value byte : Nat} (range : low ≤ byte ∧ byte ≤ high) :
    accept ⟨1, low, high, value⟩ byte =
      some (.start, [Char.ofNat (value * 64 + (byte - 0x80))]) := by
  simp [accept, range]

theorem accept_next {owed low high value byte : Nat} (range : low ≤ byte ∧ byte ≤ high) :
    accept ⟨owed + 2, low, high, value⟩ byte =
      some (⟨owed + 1, 0x80, 0xBF, value * 64 + (byte - 0x80)⟩, []) := by
  simp [accept, range]

theorem accept_one {byte : Nat} (h : byte < 0x80) :
    accept .start byte = some (.start, [Char.ofNat byte]) := by
  simp [accept, acceptFirst, Decoder.start, h]

theorem accept_two {byte : Nat} (h : 0xC2 ≤ byte ∧ byte < 0xE0) :
    accept .start byte = some (⟨1, 0x80, 0xBF, byte - 0xC0⟩, []) := by
  have large : ¬byte < 0x80 := by omega
  simp [accept, acceptFirst, Decoder.start, h, large]

theorem accept_three {byte : Nat} (h : 0xE0 ≤ byte ∧ byte < 0xF0) :
    accept .start byte = some (⟨2, if byte = 0xE0 then 0xA0 else 0x80,
      if byte = 0xED then 0x9F else 0xBF, byte - 0xE0⟩, []) := by
  have large : ¬byte < 0x80 := by omega
  have longer : ¬(0xC2 ≤ byte ∧ byte < 0xE0) := by omega
  simp only [accept, acceptFirst, Decoder.start, h, large, longer, if_true, if_false, and_self]

theorem accept_four {byte : Nat} (h : 0xF0 ≤ byte ∧ byte < 0xF5) :
    accept .start byte = some (⟨3, if byte = 0xF0 then 0x90 else 0x80,
      if byte = 0xF4 then 0x8F else 0xBF, byte - 0xF0⟩, []) := by
  have large : ¬byte < 0x80 := by omega
  have longer : ¬(0xC2 ≤ byte ∧ byte < 0xE0) := by omega
  have longest : ¬(0xE0 ≤ byte ∧ byte < 0xF0) := by omega
  simp only [accept, acceptFirst, Decoder.start, h, large, longer, longest, if_true, if_false,
    and_self]

/-- **A character is decoded** from its bytes. -/
theorem feed_char (c : Char) :
    feed .start (String.utf8EncodeChar c) = some (.start, [c]) := by
  have hscalar := toNat_scalar c
  have hvalue : Char.ofNat c.val.toNat = c := Char.ofNat_toNat c
  have hspelling := spelling c
  generalize String.utf8EncodeChar c = bytes at hspelling ⊢
  generalize c.val.toNat = v at hscalar hvalue hspelling
  cases hspelling with
  | one small first => rw [feed_cons (accept_one (by omega)), first, hvalue]; rfl
  | two range first second =>
    rw [feed_cons (accept_two (by omega)), feed_cons (accept_last (by omega)), first, second]
    have : (0xC0 + v / 64 - 0xC0) * 64 + (0x80 + v % 64 - 0x80) = v := by omega
    rw [this, hvalue]
    rfl
  | three range first second third =>
    rw [feed_cons (accept_three (by omega)), feed_cons (accept_next (by split_ifs <;> omega)),
      feed_cons (accept_last (by omega)), first, second, third]
    have : ((0xE0 + v / 4096 - 0xE0) * 64 + (0x80 + v / 64 % 64 - 0x80)) * 64 +
        (0x80 + v % 64 - 0x80) = v := by omega
    rw [this, hvalue]
    rfl
  | four range first second third fourth =>
    rw [feed_cons (accept_four (by omega)), feed_cons (accept_next (by split_ifs <;> omega)),
      feed_cons (accept_next (by omega)), feed_cons (accept_last (by omega)), first, second, third,
      fourth]
    have : (((0xF0 + v / 262144 - 0xF0) * 64 + (0x80 + v / 4096 % 64 - 0x80)) * 64 +
        (0x80 + v / 64 % 64 - 0x80)) * 64 + (0x80 + v % 64 - 0x80) = v := by omega
    rw [this, hvalue]
    rfl

/-- A character starts with a byte that is no continuation, and all others are. -/
theorem char_shape (c : Char) : ∃ a more, String.utf8EncodeChar c = a :: more ∧
    isContinuation a = false ∧ (∀ b ∈ more, isContinuation b = true) ∧ more.length ≤ 3 := by
  have hscalar := toNat_scalar c
  have hspelling := spelling c
  generalize String.utf8EncodeChar c = bytes at hspelling ⊢
  generalize c.val.toNat = v at hscalar hspelling
  cases hspelling with
  | one small first =>
    refine ⟨_, _, rfl, ?_, by simp, by simp⟩
    simp [isContinuation]
    omega
  | two range first second =>
    refine ⟨_, _, rfl, ?_, ?_, by simp⟩
    · simp [isContinuation]
      omega
    · simp [isContinuation]
      omega
  | three range first second third =>
    refine ⟨_, _, rfl, ?_, ?_, by simp⟩
    · simp [isContinuation]
      omega
    · simp [isContinuation]
      omega
  | four range first second third fourth =>
    refine ⟨_, _, rfl, ?_, ?_, by simp⟩
    · simp [isContinuation]
      omega
    · simp [isContinuation]
      omega

/-! ## 4. A part of a text -/

/-- Nothing is owed only where a character has just been completed. -/
theorem accept_completes {byte : Nat} (h : accept d byte = some (d', out)) (hd : d'.owed = 0) :
    out ≠ [] := by
  rintro rfl
  unfold accept acceptFirst at h
  dsimp only at h
  split_ifs at h
  all_goals cases h
  all_goals simp only [Nat.succ_ne_self, OfNat.ofNat_ne_zero] at hd
  -- one byte less is owed, and there was more than one
  omega

theorem feed_completes (h : feed d raw = some (d', out)) (hne : raw ≠ []) (hd : d'.owed = 0) :
    out ≠ [] := by
  induction raw generalizing d out with
  | nil => exact absurd rfl hne
  | cons b raw ih =>
    obtain ⟨d₁, first, rest, haccept, hfeed, rfl⟩ := feed_cons_iff.mp h
    cases raw with
    | nil =>
      obtain ⟨rfl, rfl⟩ := Prod.mk.inj (Option.some.inj hfeed)
      have := accept_completes haccept hd
      simpa using this
    | cons b' raw =>
      have := ih hfeed (List.cons_ne_nil _ _)
      simp [this]

/-- The first bytes of a character complete nothing, and are refused nowhere. -/
theorem feed_part (h : String.utf8EncodeChar c = p ++ q) (hq : q ≠ []) :
    ∃ d, feed .start p = some (d, []) := by
  have whole := feed_char c
  rw [h] at whole
  obtain ⟨d, first, rest, hp, hrest, htext⟩ := feed_append_iff.mp whole
  have hne := feed_completes hrest hq rfl
  -- the one character is what the rest completes
  cases first with
  | nil => exact ⟨d, hp⟩
  | cons c' first =>
    have hlength := congrArg List.length htext
    have hpos := List.length_pos_iff.mpr hne
    simp only [List.length_cons, List.length_nil, List.length_append] at hlength
    omega

/-- The characters of a text that lie in the bytes from `i` to `j`; the text starts at `pos`. -/
def within (i j : Nat) : (pos : Nat) → List Char → List Char
  | _, [] => []
  | pos, c :: text =>
    let next := pos + (String.utf8EncodeChar c).length
    if i ≤ pos ∧ next ≤ j then c :: within i j next text else within i j next text

theorem char_length_pos (c : Char) : 0 < (String.utf8EncodeChar c).length := by
  obtain ⟨a, more, hbytes, -⟩ := char_shape c
  rw [hbytes]
  exact Nat.succ_pos _

theorem within_shift : within i j (pos + n) text = within (i - n) (j - n) pos text := by
  induction text generalizing pos with
  | nil => rfl
  | cons c text ih =>
    have hpos := char_length_pos c
    have hnext : pos + n + (String.utf8EncodeChar c).length =
        pos + (String.utf8EncodeChar c).length + n := by omega
    have inside : (i ≤ pos + n ∧ pos + (String.utf8EncodeChar c).length + n ≤ j) ↔
        (i - n ≤ pos ∧ pos + (String.utf8EncodeChar c).length ≤ j - n) := by omega
    simp only [within, hnext, inside, ih]

/-- No character lies in bytes that end where the text starts. -/
theorem within_end (h : j ≤ pos) : within i j pos text = [] := by
  induction text generalizing pos with
  | nil => rfl
  | cons c text ih =>
    have hpos := char_length_pos c
    have outside : ¬(i ≤ pos ∧ pos + (String.utf8EncodeChar c).length ≤ j) := by omega
    simp only [within, outside, if_false]
    exact ih (by omega)

theorem utf8_cons : utf8 (c :: text) = String.utf8EncodeChar c ++ utf8 text := by
  rw [utf8, List.flatMap_cons]
  rfl

/-- **The first bytes of a text.** -/
theorem feed_take : ∃ d, feed .start ((utf8 text).take j) = some (d, within 0 j 0 text) ∧
    ((utf8 text).length ≤ j → d.owed = 0) := by
  induction text generalizing j with
  | nil => exact ⟨.start, by simp [utf8, feed, within], fun _ => rfl⟩
  | cons c text ih =>
    have hnext : within 0 j (0 + (String.utf8EncodeChar c).length) text =
        within 0 (j - (String.utf8EncodeChar c).length) 0 text := by
      rw [within_shift, Nat.zero_sub]
    simp only [within, Nat.le_refl, true_and]
    rw [hnext, Nat.zero_add, utf8_cons, List.take_append]
    by_cases hfits : (String.utf8EncodeChar c).length ≤ j
    · obtain ⟨d, hfeed, howed⟩ := @ih (j - (String.utf8EncodeChar c).length)
      refine ⟨d, ?_, ?_⟩
      · rw [if_pos hfits, List.take_of_length_le hfits]
        exact feed_append_iff.mpr ⟨_, _, _, feed_char c, hfeed, rfl⟩
      · intro hall
        rw [List.length_append] at hall
        exact howed (by omega)
    · -- the cut lies inside the character
      have hcut : (String.utf8EncodeChar c).drop j ≠ [] := by
        rw [ne_eq, List.drop_eq_nil_iff]
        exact hfits
      obtain ⟨d, hfeed⟩ := feed_part (List.take_append_drop j _).symm hcut
      have hzero : j - (String.utf8EncodeChar c).length = 0 := by omega
      refine ⟨d, ?_, ?_⟩
      · rw [if_neg hfits, hzero, List.take_zero, List.append_nil, within_end (Nat.le_refl 0)]
        exact hfeed
      · intro hall
        rw [List.length_append] at hall
        exact absurd (Nat.le_trans (Nat.le_add_right _ _) hall) hfits

/-! ## 5. A part that starts anywhere -/

theorem leading_take : leadingContinuations limit ((utf8 text).take k) = 0 := by
  cases text with
  | nil => cases limit <;> simp [utf8, leadingContinuations]
  | cons c text =>
    obtain ⟨a, more, hbytes, hfirst, -⟩ := char_shape c
    rw [utf8_cons, hbytes, List.cons_append]
    cases limit with
    | zero => rfl
    | succ limit =>
      cases k with
      | zero => rfl
      | succ k => simp [leadingContinuations, hfirst]

theorem leading_utf8 : leadingContinuations limit (utf8 text) = 0 := by
  have h := @leading_take text (utf8 text).length limit
  rwa [List.take_length] at h

/-- All of the continuation bytes in front are counted, as far as the limit goes. -/
theorem leading_append (hraw : ∀ b ∈ raw, isContinuation b = true) (hlimit : raw.length ≤ limit) :
    leadingContinuations limit (raw ++ more) =
      raw.length + leadingContinuations (limit - raw.length) more := by
  induction raw generalizing limit with
  | nil => simp
  | cons b raw ih =>
    obtain ⟨hb, hraw⟩ := List.forall_mem_cons.mp hraw
    cases limit with
    | zero => exact absurd hlimit (by simp)
    | succ limit =>
      have hlimit : raw.length ≤ limit := by simpa using hlimit
      rw [List.cons_append, leadingContinuations, if_pos hb, ih hraw hlimit, List.length_cons,
        Nat.add_sub_add_right]
      omega

/-- What is left of a slice without the continuation bytes that it starts with. -/
def dropLeading (limit : Nat) (raw : List UInt8) : List UInt8 :=
  raw.drop (leadingContinuations limit raw)

theorem dropLeading_append (hraw : ∀ b ∈ raw, isContinuation b = true)
    (hlimit : raw.length ≤ limit) :
    dropLeading limit (raw ++ (utf8 text).take k) = (utf8 text).take k := by
  rw [dropLeading, leading_append hraw hlimit, leading_take, Nat.add_zero, List.drop_left]

/-- **A slice of a text**, less the rest of the character that it starts in. -/
theorem feed_slice (hlimit : 3 ≤ limit) :
    ∃ d, feed .start (dropLeading limit (((utf8 text).drop i).take (j - i))) =
        some (d, within i j 0 text) ∧
      ((utf8 text).length ≤ j → d.owed = 0) := by
  induction text generalizing i j with
  | nil => exact ⟨.start, by simp [utf8, dropLeading, feed, within], fun _ => rfl⟩
  | cons c text ih =>
    obtain ⟨a, more, hbytes, -, hmore, hlength⟩ := char_shape c
    have hn : (String.utf8EncodeChar c).length = more.length + 1 := by rw [hbytes]; rfl
    by_cases hzero : i = 0
    · -- nothing is cut off in front
      subst hzero
      rw [List.drop_zero, Nat.sub_zero, dropLeading, leading_take, List.drop_zero]
      exact feed_take
    have skipped : within i j 0 (c :: text) =
        within (i - (String.utf8EncodeChar c).length) (j - (String.utf8EncodeChar c).length) 0
          text := by
      have outside : ¬(i ≤ 0 ∧ 0 + (String.utf8EncodeChar c).length ≤ j) := by omega
      simp only [within, outside, if_false]
      exact within_shift
    have all (d : Decoder) (h : (utf8 text).length ≤ j - (String.utf8EncodeChar c).length →
        d.owed = 0) : (utf8 (c :: text)).length ≤ j → d.owed = 0 := by
      intro hall
      rw [utf8_cons, List.length_append] at hall
      exact h (by omega)
    rw [skipped, utf8_cons, List.drop_append]
    by_cases hbehind : (String.utf8EncodeChar c).length ≤ i
    · obtain ⟨d, hfeed, howed⟩ := @ih (i - (String.utf8EncodeChar c).length)
        (j - (String.utf8EncodeChar c).length)
      have hsame : j - i = j - (String.utf8EncodeChar c).length -
          (i - (String.utf8EncodeChar c).length) := by omega
      refine ⟨d, ?_, all d howed⟩
      rw [List.drop_eq_nil_of_le hbehind, List.nil_append, hsame]
      exact hfeed
    · -- the slice starts inside the character
      have hfront : i - (String.utf8EncodeChar c).length = 0 := by omega
      have hrest : ((String.utf8EncodeChar c).drop i).length =
          (String.utf8EncodeChar c).length - i := List.length_drop
      have hcontinued : ∀ b ∈ ((String.utf8EncodeChar c).drop i).take (j - i),
          isContinuation b = true := by
        intro b hb
        have hb := List.mem_of_mem_take hb
        rw [hbytes] at hb
        obtain ⟨i, rfl⟩ := Nat.exists_eq_succ_of_ne_zero hzero
        exact hmore b (List.mem_of_mem_drop hb)
      have hshort : (((String.utf8EncodeChar c).drop i).take (j - i)).length ≤ limit := by
        rw [List.length_take, hrest]
        omega
      have hend : j - i - ((String.utf8EncodeChar c).drop i).length =
          j - (String.utf8EncodeChar c).length := by omega
      obtain ⟨d, hfeed, howed⟩ := @feed_take text (j - (String.utf8EncodeChar c).length)
      refine ⟨d, ?_, all d howed⟩
      rw [hfront, List.drop_zero, List.take_append, dropLeading_append hcontinued hshort, hend]
      exact hfeed

/-! ## 6. Where the characters start -/

/-- A character of the text starts at this byte, or the text ends there. -/
def Boundary (text : List Char) (i : Nat) : Prop :=
  ∃ before after, text = before ++ after ∧ (utf8 before).length = i

theorem boundary_zero : Boundary text 0 := ⟨[], text, rfl, rfl⟩

theorem Boundary.cons (h : Boundary text i) :
    Boundary (c :: text) (i + (String.utf8EncodeChar c).length) := by
  obtain ⟨before, after, rfl, rfl⟩ := h
  refine ⟨c :: before, after, rfl, ?_⟩
  rw [utf8_cons, List.length_append, Nat.add_comm]

/-- **Behind the continuation bytes there is a boundary**, wherever the text is cut. -/
theorem boundary_leading (hi : i ≤ (utf8 text).length) (hlimit : 3 ≤ limit) :
    Boundary text (i + leadingContinuations limit ((utf8 text).drop i)) := by
  induction text generalizing i with
  | nil =>
    obtain rfl : i = 0 := Nat.le_zero.mp hi
    cases limit <;> exact boundary_zero
  | cons c text ih =>
    obtain ⟨a, more, hbytes, -, hmore, hlength⟩ := char_shape c
    have hn : (String.utf8EncodeChar c).length = more.length + 1 := by rw [hbytes]; rfl
    rw [utf8_cons, List.length_append] at hi
    by_cases hzero : i = 0
    · subst hzero
      rw [List.drop_zero, leading_utf8]
      exact boundary_zero
    · rw [utf8_cons, List.drop_append]
      by_cases hbehind : (String.utf8EncodeChar c).length ≤ i
      · have hrest := (@ih (i - (String.utf8EncodeChar c).length) (by omega)).cons (c := c)
        rw [List.drop_eq_nil_of_le hbehind, List.nil_append]
        convert hrest using 1
        omega
      · -- the rest of the character is what is skipped
        have hcontinued : ∀ b ∈ (String.utf8EncodeChar c).drop i, isContinuation b = true := by
          intro b hb
          rw [hbytes] at hb
          obtain ⟨i, rfl⟩ := Nat.exists_eq_succ_of_ne_zero hzero
          exact hmore b (List.mem_of_mem_drop hb)
        have hrest : ((String.utf8EncodeChar c).drop i).length =
            (String.utf8EncodeChar c).length - i := List.length_drop
        have hfront : i - (String.utf8EncodeChar c).length = 0 := by omega
        rw [hfront, List.drop_zero, leading_append hcontinued (by omega), leading_utf8, hrest]
        convert (@boundary_zero text).cons (c := c) using 1
        omega

theorem leading_take_self : leadingContinuations limit (raw.take limit) =
    leadingContinuations limit raw := by
  induction raw generalizing limit with
  | nil => simp
  | cons b raw ih =>
    cases limit with
    | zero => rfl
    | succ limit => simp [leadingContinuations, ih]

theorem leading_le : leadingContinuations limit raw ≤ raw.length := by
  induction raw generalizing limit with
  | nil => cases limit <;> exact Nat.le_refl 0
  | cons b raw ih =>
    cases limit with
    | zero => exact Nat.zero_le _
    | succ limit =>
      rw [leadingContinuations, List.length_cons]
      split
      · exact Nat.succ_le_succ ih
      · exact Nat.zero_le _

/-- The decoder raises nowhere on it, if more may come or the end of the text is reached. -/
theorem decode_of_feed {final : Bool} (h : feed .start raw = some (d, text))
    (howed : final = true → d.owed = 0) : decode final raw = some text := by
  rw [decode, h, Option.bind_eq_bind, Option.bind_some]
  apply if_neg
  intro hleft
  exact hleft.2 (howed hleft.1)

end Data.Utf8
