import Mathlib

/-!
# Bytes as characters of an alphabet

The bits of some bytes, cut into digits of `k` bits each, the last one filled up with zeros; a
digit is a character of an alphabet. With `k = 6` this is base64, with `k = 5` base32. Reading
takes the bits of the digits and drops those that fill no byte, so that whatever is written is read
back (`octets_digits`).

The padding at the end is that of base64. `decode` is the one reader, with its strict form and the
one that skips what is not of the alphabet.
-/

set_option autoImplicit false

namespace Data.Base64

/-! ## 1. Bits -/

/-- The last `w` bits of a number, the highest first. -/
def bitsOf : (w : Nat) → Nat → List Bool
  | 0, _ => []
  | w + 1, n => n.testBit w :: bitsOf w n

def ofBits (bits : List Bool) : Nat := bits.foldl (fun n b => 2 * n + b.toNat) 0

/-- Groups of `k` bits, the last one filled up. -/
def groups (k : Nat) : (count : Nat) → List Bool → List (List Bool)
  | 0, _ => []
  | count + 1, bits =>
    (bits ++ List.replicate k false).take k :: groups k count (bits.drop k)

variable {k w n count : Nat} {b : Bool} {bits more : List Bool}

@[simp] theorem length_bitsOf : (bitsOf w n).length = w := by
  induction w with
  | zero => rfl
  | succ w ih => rw [bitsOf, List.length_cons, ih]

theorem foldl_bits (start : Nat) :
    bits.foldl (fun n b => 2 * n + b.toNat) start = 2 ^ bits.length * start + ofBits bits := by
  induction bits generalizing start with
  | nil => simp [ofBits]
  | cons b bits ih =>
    unfold ofBits
    rw [List.foldl_cons, List.foldl_cons, ih, ih (2 * 0 + b.toNat), List.length_cons, pow_succ]
    ring

theorem ofBits_cons : ofBits (b :: bits) = 2 ^ bits.length * b.toNat + ofBits bits := by
  have := @foldl_bits bits b.toNat
  simpa [ofBits] using this

theorem ofBits_lt : ofBits bits < 2 ^ bits.length := by
  induction bits with
  | nil => decide
  | cons b bits ih =>
    rw [ofBits_cons, List.length_cons, pow_succ]
    cases b <;> simp <;> omega

theorem ofBits_bitsOf : ofBits (bitsOf w n) = n % 2 ^ w := by
  induction w with
  | zero => simp [bitsOf, ofBits, Nat.mod_one]
  | succ w ih =>
    rw [bitsOf, ofBits_cons, length_bitsOf, ih, Nat.mod_pow_succ, Nat.toNat_testBit, Nat.add_comm]

theorem bitsOf_add (a : Nat) : bitsOf w (2 ^ w * a + n) = bitsOf w n := by
  have low : ∀ i, i ≤ w → bitsOf i (2 ^ w * a + n) = bitsOf i n := by
    intro i hi
    induction i with
    | zero => rfl
    | succ i ih =>
      have hbit : (2 ^ w * a + n).testBit i = n.testBit i := by
        have hpow : 2 ^ w * a = 2 ^ (i + 1) * (2 ^ (w - (i + 1)) * a) := by
          rw [← Nat.mul_assoc, ← pow_add]
          congr 2
          omega
        have hmod : (2 ^ w * a + n) % 2 ^ (i + 1) = n % 2 ^ (i + 1) := by
          rw [hpow, Nat.mul_add_mod]
        have hlow : ∀ m : Nat, m.testBit i = (m % 2 ^ (i + 1)).testBit i := fun m => by
          rw [Nat.testBit_mod_two_pow]
          simp
        rw [hlow, hmod, ← hlow]
      rw [bitsOf, bitsOf, hbit, ih (by omega)]
  exact low w le_rfl

theorem bitsOf_ofBits : bitsOf bits.length (ofBits bits) = bits := by
  induction bits with
  | nil => rfl
  | cons b bits ih =>
    have hbit : (2 ^ bits.length * b.toNat + ofBits bits).testBit bits.length = b := by
      rw [Nat.testBit_two_pow_mul_add _ ofBits_lt, if_neg (Nat.lt_irrefl _), Nat.sub_self]
      cases b <;> rfl
    rw [ofBits_cons, List.length_cons, bitsOf, hbit, bitsOf_add, ih]

theorem length_of_mem_groups {group : List Bool} (h : group ∈ groups k count bits) :
    group.length = k := by
  induction count generalizing bits with
  | zero => cases h
  | succ count ih =>
    rcases List.mem_cons.mp h with rfl | h
    · rw [List.length_take, List.length_append, List.length_replicate]
      omega
    · exact ih h

@[simp] theorem length_groups : (groups k count bits).length = count := by
  induction count generalizing bits with
  | zero => rfl
  | succ count ih => rw [groups, List.length_cons, ih]

/-- The groups are the bits, and what fills up the last one. -/
theorem flatten_groups (h : bits.length ≤ count * k) :
    (groups k count bits).flatten =
      bits ++ List.replicate (count * k - bits.length) false := by
  induction count generalizing bits with
  | zero =>
    rw [Nat.zero_mul, Nat.le_zero, List.length_eq_zero_iff] at h
    rw [h, Nat.zero_mul]
    rfl
  | succ count ih =>
    have hrest : (bits.drop k).length ≤ count * k := by
      rw [List.length_drop]
      rw [Nat.succ_mul] at h
      omega
    rw [groups, List.flatten_cons, ih hrest, List.length_drop]
    by_cases hk : k ≤ bits.length
    · rw [List.take_append_of_le_length hk, ← List.append_assoc, List.take_append_drop]
      congr 2
      rw [Nat.succ_mul]
      omega
    · rw [List.drop_eq_nil_of_le (by omega), List.take_append, List.take_of_length_le (by omega),
        List.take_replicate, List.nil_append, List.append_assoc, List.replicate_append_replicate]
      congr 2
      rw [Nat.succ_mul]
      omega

/-- Groups that are full are read off one after the other. -/
theorem groups_flatten {parts : List (List Bool)} (full : ∀ part ∈ parts, part.length = k) :
    groups k parts.length (parts.flatten ++ more) = parts := by
  induction parts with
  | nil => rfl
  | cons part parts ih =>
    have hpart := full part List.mem_cons_self
    have hassoc : part ++ parts.flatten ++ more = part ++ (parts.flatten ++ more) :=
      List.append_assoc ..
    rw [List.length_cons, groups, List.flatten_cons, hassoc, List.append_assoc,
      List.take_left' hpart, List.drop_left' hpart,
      ih fun other h => full other (List.mem_cons_of_mem _ h)]

/-! ## 2. Digits -/

def byteBits (bytes : List UInt8) : List Bool := bytes.flatMap fun byte => bitsOf 8 byte.toNat

/-- How many digits of `k` bits some bytes make. -/
def digitCount (k : Nat) (bytes : List UInt8) : Nat := (bytes.length * 8 + k - 1) / k

def digits (k : Nat) (bytes : List UInt8) : List Nat :=
  (groups k (digitCount k bytes) (byteBits bytes)).map ofBits

/-- The bytes that are filled by the bits. -/
def octets (bits : List Bool) : List UInt8 :=
  (groups 8 (bits.length / 8) bits).map fun group => UInt8.ofNat (ofBits group)

def digitBits (k : Nat) (digits : List Nat) : List Bool := digits.flatMap (bitsOf k)

variable {bytes : List UInt8}

theorem length_byteBits : (byteBits bytes).length = bytes.length * 8 := by
  induction bytes with
  | nil => rfl
  | cons byte bytes ih =>
    unfold byteBits at ih ⊢
    rw [List.flatMap_cons, List.length_append, length_bitsOf, ih, List.length_cons]
    omega

@[simp] theorem length_digits : (digits k bytes).length = digitCount k bytes := by
  unfold digits
  rw [List.length_map, length_groups]

theorem digits_lt {d : Nat} (h : d ∈ digits k bytes) : d < 2 ^ k := by
  obtain ⟨group, hgroup, rfl⟩ := List.mem_map.mp h
  rw [← length_of_mem_groups hgroup]
  exact ofBits_lt

theorem digitBits_digits : digitBits k (digits k bytes) =
    (groups k (digitCount k bytes) (byteBits bytes)).flatten := by
  have same : ∀ parts : List (List Bool), (∀ part ∈ parts, part.length = k) →
      digitBits k (parts.map ofBits) = parts.flatten := by
    intro parts full
    induction parts with
    | nil => rfl
    | cons part parts ih =>
      have hpart : bitsOf k (ofBits part) = part := by
        rw [← full part List.mem_cons_self]
        exact bitsOf_ofBits
      unfold digitBits at ih ⊢
      rw [List.map_cons, List.flatMap_cons, List.flatten_cons, hpart,
        ih fun other h => full other (List.mem_cons_of_mem _ h)]
  exact same _ fun part h => length_of_mem_groups h

/-- The digits have room for the bits, and less than a byte more. -/
theorem digitCount_mul (hk : 0 < k) (hk8 : k ≤ 8) :
    bytes.length * 8 ≤ digitCount k bytes * k ∧ digitCount k bytes * k < bytes.length * 8 + 8 := by
  unfold digitCount
  have hdiv := Nat.div_add_mod (bytes.length * 8 + k - 1) k
  have hmod := Nat.mod_lt (bytes.length * 8 + k - 1) hk
  rw [Nat.mul_comm] at hdiv
  omega

/-- **What is written is read back.** -/
theorem octets_digits (hk : 0 < k) (hk8 : k ≤ 8) :
    octets (digitBits k (digits k bytes)) = bytes := by
  obtain ⟨hroom, hfill⟩ := @digitCount_mul k bytes hk hk8
  rw [← length_byteBits] at hroom hfill
  rw [digitBits_digits, flatten_groups hroom]
  unfold octets
  have hcount : (byteBits bytes ++
      List.replicate (digitCount k bytes * k - (byteBits bytes).length) false).length / 8 =
        (bytes.map fun byte => bitsOf 8 byte.toNat).length := by
    rw [List.length_append, List.length_replicate, List.length_map]
    have := @length_byteBits bytes
    omega
  have hbits : byteBits bytes = (bytes.map fun byte => bitsOf 8 byte.toNat).flatten := rfl
  rw [hcount, hbits, groups_flatten, List.map_map]
  · refine (List.map_congr_left fun byte _ => ?_).trans (List.map_id _)
    rw [Function.comp_apply, ofBits_bitsOf, Nat.mod_eq_of_lt (UInt8.toNat_lt byte)]
    exact UInt8.ofNat_toNat
  · intro part hpart
    obtain ⟨byte, -, rfl⟩ := List.mem_map.mp hpart
    exact length_bitsOf

/-! ## 3. Characters -/

/-- A character for each digit of `k` bits. -/
structure Alphabet (k : Nat) where
  characters : List Char
  size : characters.length = 2 ^ k
  distinct : characters.Nodup
  ascii : (characters.all fun c => decide (c.toNat < 128) && decide (c ≠ '=')) = true

namespace Alphabet

variable (alphabet : Alphabet k)

def char (d : Nat) : Char := alphabet.characters.getD d '='

def digit (c : Char) : Option Nat :=
  if c ∈ alphabet.characters then some (alphabet.characters.idxOf c) else none

/-- The digits of some bytes, without padding. -/
def write (bytes : List UInt8) : List Char := (digits k bytes).map alphabet.char

variable {alphabet} {d : Nat} {c : Char} {other : List UInt8}

theorem char_mem (h : d < 2 ^ k) : alphabet.char d ∈ alphabet.characters := by
  unfold char
  rw [List.getD_eq_getElem _ _ (alphabet.size.symm ▸ h)]
  exact List.getElem_mem _

theorem digit_char (h : d < 2 ^ k) : alphabet.digit (alphabet.char d) = some d := by
  have hd : d < alphabet.characters.length := alphabet.size.symm ▸ h
  unfold digit
  rw [if_pos (char_mem h)]
  unfold char
  rw [List.getD_eq_getElem _ _ hd, alphabet.distinct.idxOf_getElem]

theorem ascii_char (h : d < 2 ^ k) : (alphabet.char d).toNat < 128 ∧ alphabet.char d ≠ '=' := by
  have := List.all_eq_true.mp alphabet.ascii _ (char_mem h)
  rwa [Bool.and_eq_true, decide_eq_true_eq, decide_eq_true_eq] at this

theorem mem_write (h : c ∈ alphabet.write bytes) : c.toNat < 128 ∧ c ≠ '=' := by
  obtain ⟨d, hd, rfl⟩ := List.mem_map.mp h
  exact ascii_char (digits_lt hd)

theorem filterMap_write : (alphabet.write bytes).filterMap alphabet.digit = digits k bytes := by
  unfold write
  rw [List.filterMap_map]
  refine (List.filterMap_congr fun d hd => ?_).trans List.filterMap_some
  exact digit_char (digits_lt hd)

/-- Different bytes are written differently. -/
theorem write_injective (hk : 0 < k) (hk8 : k ≤ 8)
    (h : alphabet.write bytes = alphabet.write other) : bytes = other := by
  rw [← @octets_digits k bytes hk hk8, ← @octets_digits k other hk hk8, ← filterMap_write, h,
    filterMap_write]

end Alphabet

def base64 : Alphabet 6 where
  characters := "ABCDEFGHIJKLMNOPQRSTUVWXYZabcdefghijklmnopqrstuvwxyz0123456789+/".toList
  size := rfl
  distinct := by decide
  ascii := by decide

def base32 : Alphabet 5 where
  characters := "ABCDEFGHIJKLMNOPQRSTUVWXYZ234567".toList
  size := rfl
  distinct := by decide
  ascii := by decide

/-! ## 4. Padding -/

/-- `text + "=" * (-len(text) % unit)`. -/
def pad (unit : Nat) (text : List Char) : List Char :=
  text ++ List.replicate ((unit - text.length % unit) % unit) '='

/-- `text.rstrip("=")`. -/
def stripPad (text : List Char) : List Char := text.rdropWhile (· = '=')

/-- `base64.b64encode`. -/
def b64encode (bytes : List UInt8) : List Char := pad 4 (base64.write bytes)

/-- `base64.b32encode`. -/
def b32encode (bytes : List UInt8) : List Char := pad 8 (base32.write bytes)

/-- `binascii.a2b_base64`: the digits that are read, up to the padding that ends them. What is not
    of the alphabet is skipped, unless `strict`, where the padding must be as it should and last. -/
def scan (strict : Bool) (seen : List Nat) (pads : Nat) (padded : Bool) :
    List Char → Option (List Nat)
  | [] => if seen.length % 4 = 0 then some seen else none
  | c :: rest =>
    let quad := seen.length % 4
    if c = '=' then
      if strict ∧ quad = 0 then none
      else if quad < 2 then scan strict seen pads true rest
      else if 4 ≤ quad + pads + 1 then
        if strict ∧ rest ≠ [] then none else some seen
      else scan strict seen (pads + 1) true rest
    else
      match base64.digit c with
      | none => if strict then none else scan strict seen pads padded rest
      | some d => if strict ∧ padded then none else scan strict (seen ++ [d]) 0 padded rest

/-- `base64.b64decode` of a text, `none` where it raises, as it does for what is not ASCII. -/
def b64decode (strict : Bool) (text : List Char) : Option (List UInt8) :=
  if text.all fun c => c.toNat < 128 then
    (scan strict [] 0 false text).map fun seen => octets (digitBits 6 seen)
  else none

variable {unit : Nat} {text rest : List Char} {seen : List Nat} {strict : Bool}

theorem stripPad_pad (h : ∀ c ∈ text, c ≠ '=') : stripPad (pad unit text) = text := by
  unfold pad
  generalize (unit - text.length % unit) % unit = count
  unfold stripPad
  induction count with
  | zero =>
    rw [List.replicate_zero, List.append_nil]
    refine List.rdropWhile_eq_self_iff.mpr fun hne => ?_
    simpa using h _ (List.getLast_mem hne)
  | succ count ih =>
    rw [List.replicate_succ', ← List.append_assoc, List.rdropWhile_concat_pos _ _ _ (by simp), ih]

theorem map_pad {f : Char → Char} (h : f '=' = '=') :
    (pad unit text).map f = pad unit (text.map f) := by
  unfold pad
  rw [List.map_append, List.map_replicate, h, List.length_map]

theorem length_pad_le (h : 0 < unit) : (pad unit text).length < text.length + unit := by
  unfold pad
  rw [List.length_append, List.length_replicate]
  have := Nat.mod_lt (unit - text.length % unit) h
  omega

/-- How long the text of some bytes is at most. -/
theorem length_b64encode : (b64encode bytes).length ≤ (bytes.length * 8 + 5) / 6 + 3 := by
  have := @length_pad_le 4 (base64.write bytes) (by decide)
  unfold b64encode
  unfold Alphabet.write at this ⊢
  rw [List.length_map, length_digits] at this
  unfold digitCount at this
  omega

theorem mem_b64encode {c : Char} (h : c ∈ b64encode bytes) : c ∈ base64.characters ∨ c = '=' := by
  rcases List.mem_append.mp h with h | h
  · obtain ⟨d, hd, rfl⟩ := List.mem_map.mp h
    exact .inl (Alphabet.char_mem (digits_lt hd))
  · exact .inr (List.eq_of_mem_replicate h)

theorem scan_write (h : ∀ d ∈ seen, d < 2 ^ 6) (before : List Nat) :
    scan strict before 0 false (seen.map base64.char ++ rest) =
      scan strict (before ++ seen) 0 false rest := by
  induction seen generalizing before with
  | nil => simp
  | cons d seen ih =>
    have hd := h d List.mem_cons_self
    have hchar := (@Alphabet.ascii_char 6 base64 d hd).2
    rw [List.map_cons, List.cons_append, scan]
    simp only [hchar, if_false, Alphabet.digit_char hd, Bool.false_eq_true, and_false]
    rw [ih fun e he => h e (List.mem_cons_of_mem _ he), List.append_assoc, List.singleton_append]

/-- **What is written is read back**, by the strict reader and by the other. -/
theorem b64decode_b64encode : b64decode strict (b64encode bytes) = some bytes := by
  have hascii : (b64encode bytes).all (fun c => decide (c.toNat < 128)) = true := by
    unfold b64encode pad
    rw [List.all_append, Bool.and_eq_true, List.all_eq_true, List.all_eq_true]
    refine ⟨fun c hc => decide_eq_true (Alphabet.mem_write hc).1, fun c hc => ?_⟩
    rw [List.eq_of_mem_replicate hc]
    rfl
  have hcount : digitCount 6 bytes % 4 ≠ 1 := by
    unfold digitCount
    omega
  have hscan : scan strict [] 0 false (b64encode bytes) = some (digits 6 bytes) := by
    unfold b64encode pad Alphabet.write
    rw [scan_write fun d hd => digits_lt hd, List.nil_append, List.length_map, length_digits]
    have hlength := @length_digits 6 bytes
    generalize digits 6 bytes = seen at *
    -- no digit is missing, or one or two
    have hmod : seen.length % 4 < 4 := Nat.mod_lt _ (by decide)
    rw [← hlength] at hcount ⊢
    interval_cases hquad : seen.length % 4
    · simp [scan, hquad]
    · exact absurd rfl hcount
    · simp [scan, hquad, List.replicate]
    · simp [scan, hquad]
  unfold b64decode
  rw [if_pos hascii, hscan, Option.map_some, octets_digits (by decide) (by decide)]

end Data.Base64
