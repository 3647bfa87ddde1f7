import Mathlib

/-!
# Numbers in double precision

A double is a rational number of 53 significant bits. A result that is none is rounded to the
nearest double, and to the even one between two that are equally near. Exponents are not bounded
here, as nothing is so large or so small that it would matter.

Rounding is known by its competitors: no double is nearer (`round_nearest`). So it leaves doubles
as they are, and keeps the order (`round_mono`).
-/

set_option autoImplicit false

namespace Data.Double

/-! ## 1. Rounding to a whole number -/

/-- The nearest whole number, the even one of two. -/
def nearestEven (x : ℚ) : ℤ :=
  if Int.fract x < 1 / 2 then ⌊x⌋
  else if 1 / 2 < Int.fract x then ⌊x⌋ + 1
  else if ⌊x⌋ % 2 = 0 then ⌊x⌋
  else ⌊x⌋ + 1

/-- It is one of the two around the number, and not the farther one. -/
theorem nearestEven_cases (x : ℚ) :
    nearestEven x = ⌊x⌋ ∧ Int.fract x ≤ 1 / 2 ∨ nearestEven x = ⌊x⌋ + 1 ∧ 1 / 2 ≤ Int.fract x := by
  unfold nearestEven
  split_ifs with hbelow habove heven
  · exact .inl ⟨rfl, hbelow.le⟩
  · exact .inr ⟨rfl, habove.le⟩
  · exact .inl ⟨rfl, not_lt.mp habove⟩
  · exact .inr ⟨rfl, not_lt.mp hbelow⟩

theorem nearestEven_nearest (x : ℚ) (m : ℤ) : |x - nearestEven x| ≤ |x - m| := by
  have hx : x = ⌊x⌋ + Int.fract x := (Int.floor_add_fract x).symm
  have hfract := Int.fract_nonneg x
  have hfract' := Int.fract_lt_one x
  -- below the number or above it, no whole number is nearer than the two around it
  have hm : Int.fract x ≤ |x - m| ∨ 1 - Int.fract x ≤ |x - m| := by
    rcases le_or_gt m ⌊x⌋ with h | h
    · have h : (m : ℚ) ≤ ⌊x⌋ := Int.cast_le.mpr h
      left
      exact le_trans (by linarith) (le_abs_self _)
    · have h : (⌊x⌋ : ℚ) + 1 ≤ m := by exact_mod_cast h
      right
      exact le_trans (by linarith) (neg_le_abs _)
  rcases nearestEven_cases x with ⟨hround, hhalf⟩ | ⟨hround, hhalf⟩
  · have hdistance : |x - ⌊x⌋| = Int.fract x := by
      rw [Int.self_sub_floor, abs_of_nonneg hfract]
    rw [hround, hdistance]
    rcases hm with hm | hm <;> linarith
  · have hdistance : |x - (⌊x⌋ + 1 : ℤ)| = 1 - Int.fract x := by
      rw [abs_of_nonpos (by push_cast; linarith)]
      push_cast
      linarith
    rw [hround, hdistance]
    rcases hm with hm | hm <;> linarith

/-! ## 2. Rounding to a double -/

/-- A number of 53 significant bits. -/
def Representable (x : ℚ) : Prop := ∃ m e : ℤ, |m| < 2 ^ 53 ∧ x = m * 2 ^ e

/-- The exponent of the last of the 53 bits. -/
def exponent (x : ℚ) : ℤ := Int.log 2 |x| - 52

/-- **The double nearest to a number.** -/
def round (x : ℚ) : ℚ := nearestEven (x / 2 ^ exponent x) * 2 ^ exponent x

section rounding

variable {x y : ℚ}

theorem scaled (x : ℚ) : x / 2 ^ exponent x * 2 ^ exponent x = x :=
  div_mul_cancel₀ x (zpow_ne_zero _ two_ne_zero)

/-- A number lies between two powers of two. -/
theorem pow_le_abs (h : x ≠ 0) : 2 ^ (exponent x + 52) ≤ |x| := by
  have := Int.zpow_log_le_self (R := ℚ) one_lt_two (abs_pos.mpr h)
  unfold exponent
  rw [sub_add_cancel]
  exact_mod_cast this

theorem abs_lt_pow (x : ℚ) : |x| < 2 ^ (exponent x + 53) := by
  have := Int.lt_zpow_succ_log_self (R := ℚ) one_lt_two |x|
  unfold exponent
  rw [show Int.log 2 |x| - 52 + 53 = Int.log 2 |x| + 1 by ring]
  exact_mod_cast this

/-- No multiple of the last bit is nearer. -/
theorem round_nearest_multiple (x : ℚ) (m : ℤ) : |x - round x| ≤ |x - m * 2 ^ exponent x| := by
  have hpos : (0 : ℚ) < 2 ^ exponent x := zpow_pos two_pos _
  have hscaled : ∀ n : ℤ, |x - n * 2 ^ exponent x| =
      |x / 2 ^ exponent x - n| * 2 ^ exponent x := by
    intro n
    rw [← abs_of_pos hpos, ← abs_mul, abs_of_pos hpos, sub_mul, scaled]
  unfold round
  rw [hscaled, hscaled]
  exact mul_le_mul_of_nonneg_right (nearestEven_nearest _ m) hpos.le

theorem pow_representable (e : ℤ) : Representable (2 ^ e) := ⟨1, e, by norm_num, by simp⟩

theorem representable_neg (h : Representable y) : Representable (-y) := by
  obtain ⟨m, e, hm, rfl⟩ := h
  exact ⟨-m, e, by rwa [abs_neg], by push_cast; ring⟩

theorem representable_abs_lt {m e : ℤ} (hm : |m| < 2 ^ 53) : |(m : ℚ) * 2 ^ e| < 2 ^ (e + 53) := by
  have hpos : (0 : ℚ) < 2 ^ e := zpow_pos two_pos _
  have hm : |(m : ℚ)| < 2 ^ 53 := by exact_mod_cast hm
  rw [abs_mul, abs_of_pos hpos, zpow_add₀ two_ne_zero, mul_comm]
  exact mul_lt_mul_of_pos_left (by exact_mod_cast hm) hpos

/-- **No double is nearer** than the one a number is rounded to. -/
theorem round_nearest (h : Representable y) : |x - round x| ≤ |x - y| := by
  obtain ⟨m, e, hm, rfl⟩ := h
  rcases le_or_gt (exponent x) e with he | he
  · -- a multiple of the last bit
    have hmultiple : (m : ℚ) * 2 ^ e = (m * 2 ^ (e - exponent x).toNat : ℤ) * 2 ^ exponent x := by
      have hpow : (2 : ℚ) ^ e = 2 ^ (e - exponent x).toNat * 2 ^ exponent x := by
        rw [← zpow_natCast, Int.toNat_of_nonneg (by omega), ← zpow_add₀ two_ne_zero, sub_add_cancel]
      push_cast
      rw [hpow]
      ring
    rw [hmultiple]
    exact round_nearest_multiple x _
  · -- finer than that, it is smaller than the power of two below the number
    rcases eq_or_ne x 0 with rfl | hx
    · have hzero : round 0 = 0 := by simp [round, nearestEven]
      rw [hzero, sub_zero, abs_zero]
      exact abs_nonneg _
    have hsmall : |(m : ℚ) * 2 ^ e| < 2 ^ (exponent x + 52) :=
      (representable_abs_lt hm).trans_le (zpow_le_zpow_right₀ one_le_two (by omega))
    have hpow := pow_le_abs hx
    have hpos : (0 : ℚ) < 2 ^ (exponent x + 52) := zpow_pos two_pos _
    have hsplit : (2 : ℚ) ^ (exponent x + 52) = (2 ^ 52 : ℤ) * 2 ^ exponent x := by
      rw [zpow_add₀ two_ne_zero, mul_comm]
      norm_num
    obtain ⟨hlow, hhigh⟩ := abs_lt.mp hsmall
    rcases lt_or_gt_of_ne hx with hneg | hpositive
    · have := round_nearest_multiple x (-2 ^ 52)
      rw [abs_of_neg hneg] at hpow
      apply this.trans
      rw [show ((-2 ^ 52 : ℤ) : ℚ) * 2 ^ exponent x = -2 ^ (exponent x + 52) by
        rw [hsplit]; push_cast; ring]
      rw [abs_of_nonpos (by linarith), abs_of_neg (by linarith)]
      linarith
    · have := round_nearest_multiple x (2 ^ 52)
      rw [abs_of_pos hpositive] at hpow
      apply this.trans
      rw [← hsplit, abs_of_nonneg (by linarith), abs_of_pos (by linarith)]
      linarith

/-- What is rounded is a double, also where it is carried into the next bit. -/
theorem representable_round (x : ℚ) : Representable (round x) := by
  have hpos : (0 : ℚ) < 2 ^ exponent x := zpow_pos two_pos _
  have hq : |x / 2 ^ exponent x| < 2 ^ 53 := by
    rw [abs_div, abs_of_pos hpos, div_lt_iff₀ hpos]
    have := abs_lt_pow x
    rwa [zpow_add₀ two_ne_zero, mul_comm] at this
  obtain ⟨hlow, hhigh⟩ := abs_lt.mp hq
  have hfloor : -2 ^ 53 ≤ ⌊x / 2 ^ exponent x⌋ := by
    rw [Int.le_floor]
    push_cast
    exact hlow.le
  have hfloor' : ⌊x / 2 ^ exponent x⌋ < 2 ^ 53 := by
    rw [Int.floor_lt]
    push_cast
    exact hhigh
  have hbounds : |nearestEven (x / 2 ^ exponent x)| ≤ 2 ^ 53 := by
    rw [abs_le]
    rcases nearestEven_cases (x / 2 ^ exponent x) with ⟨h, -⟩ | ⟨h, -⟩ <;> omega
  rcases hbounds.lt_or_eq with hlt | heq
  · exact ⟨_, _, hlt, rfl⟩
  -- the carry: a power of two, up to its sign
  have hcarry : Representable ((2 ^ 53 : ℤ) * 2 ^ exponent x) := by
    have hpow : (2 : ℚ) ^ (53 + exponent x) = (2 ^ 53 : ℤ) * 2 ^ exponent x := by
      rw [zpow_add₀ two_ne_zero]
      norm_num
    exact hpow ▸ pow_representable _
  unfold round
  rcases (abs_eq (by norm_num)).mp heq with h | h
  · rw [h]
    exact hcarry
  · rw [h, Int.cast_neg, neg_mul]
    exact representable_neg hcarry

/-- A double that is not small has no small bits. -/
theorem representable_multiple {k : ℤ} (h : Representable x) (hk : 2 ^ k ≤ |x|) :
    ∃ n : ℤ, x = n * 2 ^ (k - 52) := by
  obtain ⟨m, e, hm, rfl⟩ := h
  have hlt : (2 : ℚ) ^ k < 2 ^ (e + 53) := hk.trans_lt (representable_abs_lt hm)
  have he : k < e + 53 := (zpow_lt_zpow_iff_right₀ one_lt_two).mp hlt
  refine ⟨m * 2 ^ (e - (k - 52)).toNat, ?_⟩
  have hpow : (2 : ℚ) ^ e = 2 ^ (e - (k - 52)).toNat * 2 ^ (k - 52) := by
    rw [← zpow_natCast, Int.toNat_of_nonneg (by omega), ← zpow_add₀ two_ne_zero, sub_add_cancel]
  push_cast
  rw [hpow]
  ring

/-- A double needs no rounding. -/
theorem round_of_representable (h : Representable x) : round x = x := by
  have := round_nearest (x := x) h
  rw [sub_self, abs_zero] at this
  exact (sub_eq_zero.mp (abs_nonpos_iff.mp this)).symm

/-- What is lost by rounding is not more than half of the last bit. -/
theorem round_error (x : ℚ) : |x - round x| ≤ |x| / 2 ^ 53 := by
  rcases eq_or_ne x 0 with rfl | hx
  · simp [round, nearestEven]
  have hpos : (0 : ℚ) < 2 ^ exponent x := zpow_pos two_pos _
  have hhalf : |x / 2 ^ exponent x - nearestEven (x / 2 ^ exponent x)| ≤ 1 / 2 := by
    have hfloor := Int.self_sub_floor (x / 2 ^ exponent x)
    have hnonneg := Int.fract_nonneg (x / 2 ^ exponent x)
    have hlt := Int.fract_lt_one (x / 2 ^ exponent x)
    rcases nearestEven_cases (x / 2 ^ exponent x) with ⟨hround, hfract⟩ | ⟨hround, hfract⟩
    · rw [hround, hfloor, abs_of_nonneg hnonneg]
      exact hfract
    · rw [hround, abs_of_nonpos (by push_cast; linarith)]
      push_cast
      linarith
  have herror : |x - round x| ≤ 1 / 2 * 2 ^ exponent x := by
    have hscaled : x - round x =
        (x / 2 ^ exponent x - nearestEven (x / 2 ^ exponent x)) * 2 ^ exponent x := by
      rw [sub_mul, scaled]
      rfl
    rw [hscaled, abs_mul, abs_of_pos hpos]
    exact mul_le_mul_of_nonneg_right hhalf hpos.le
  have hbits := pow_le_abs hx
  rw [zpow_add₀ two_ne_zero] at hbits
  have hpow : (2 : ℚ) ^ (52 : ℤ) = 2 ^ 52 := by norm_num
  rw [hpow] at hbits
  rw [le_div_iff₀ (by positivity)]
  calc |x - round x| * 2 ^ 53 ≤ 1 / 2 * 2 ^ exponent x * 2 ^ 53 :=
        mul_le_mul_of_nonneg_right herror (by positivity)
    _ = 2 ^ exponent x * 2 ^ 52 := by ring
    _ ≤ |x| := hbits

/-- Of two numbers a number is not farther from the greater one only on its side of the middle. -/
theorem middle_le {a b : ℚ} (hab : a < b) (h : |x - b| ≤ |x - a|) : a + b ≤ 2 * x := by
  have := sq_le_sq.mpr h
  nlinarith

/-- **Rounding keeps the order.** -/
theorem round_mono (h : x ≤ y) : round x ≤ round y := by
  by_contra hnot
  have hlt : round y < round x := not_le.mp hnot
  -- each is nearer to the double of the other one, so that there is nothing between them
  have hx := middle_le hlt (round_nearest (representable_round y))
  have hy : |-y - -round y| ≤ |-y - -round x| := by
    rw [neg_sub_neg, neg_sub_neg, abs_sub_comm, abs_sub_comm (round x)]
    exact round_nearest (representable_round x)
  have hy := middle_le (neg_lt_neg hlt) hy
  have heq : x = y := by linarith
  rw [heq] at hlt
  exact lt_irrefl _ hlt

end rounding

/-! ## 3. Doubles -/

end Data.Double

namespace Data

structure Double where
  value : ℚ
  representable : Double.Representable value

namespace Double

/-- A double by its bits. -/
def ofBits (m e : ℤ) (h : |m| < 2 ^ 53) : Double := ⟨m * 2 ^ e, m, e, h, rfl⟩

def ofRat (x : ℚ) : Double := ⟨round x, representable_round x⟩

theorem ext_value {x y : Double} (h : x.value = y.value) : x = y := by
  obtain ⟨x, hx⟩ := x
  obtain ⟨y, hy⟩ := y
  cases h
  rfl

instance : LinearOrder Double := LinearOrder.lift' value fun _ _ => ext_value

instance : Sub Double := ⟨fun x y => ofRat (x.value - y.value)⟩

instance : Mul Double := ⟨fun x y => ofRat (x.value * y.value)⟩

instance : Div Double := ⟨fun x y => ofRat (x.value / y.value)⟩

variable {x y : Double}

end Double

end Data
