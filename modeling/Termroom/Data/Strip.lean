import Mathlib.Data.List.DropRight

/-!
# White space around a text

The characters of `str.isspace`, and a text without those at its two ends. To strip a text twice
is to strip it once.
-/

set_option autoImplicit false

namespace Data

/-- `str.isspace`, for a character. -/
def isSpace (c : Char) : Bool :=
  let n := c.toNat
  (9 ≤ n && n ≤ 13) || (28 ≤ n && n ≤ 32) || n = 0x85 || n = 0xa0 || n = 0x1680 ||
    (0x2000 ≤ n && n ≤ 0x200a) || n = 0x2028 || n = 0x2029 || n = 0x202f || n = 0x205f ||
    n = 0x3000

/-- `str.strip`. -/
def strip (text : List Char) : List Char := (text.dropWhile isSpace).rdropWhile isSpace

variable (text : List Char)

theorem dropWhile_strip : (strip text).dropWhile isSpace = strip text := by
  cases h : strip text with
  | nil => rfl
  | cons c rest =>
    -- what stands first is what stood first before the end was stripped
    obtain ⟨dropped, hdropped⟩ := List.rdropWhile_prefix isSpace (text.dropWhile isSpace)
    have head : text.dropWhile isSpace = c :: (rest ++ dropped) := by
      rw [← hdropped]
      show strip text ++ dropped = _
      rw [h, List.cons_append]
    have again : (c :: (rest ++ dropped)).dropWhile isSpace = c :: (rest ++ dropped) := by
      rw [← head]
      exact List.dropWhile_idempotent _ _
    have apart : ¬ isSpace c = true := List.dropWhile_eq_self_iff.mp again (Nat.succ_pos _)
    exact List.dropWhile_cons_of_neg apart

theorem strip_strip : strip (strip text) = strip text := by
  show ((strip text).dropWhile isSpace).rdropWhile isSpace = strip text
  rw [dropWhile_strip]
  exact List.rdropWhile_idempotent _ _

theorem strip_subset : strip text ⊆ text := by
  intro c hc
  have first := List.rdropWhile_prefix isSpace (text.dropWhile isSpace)
  exact (List.dropWhile_suffix isSpace).subset (first.subset hc)

end Data
