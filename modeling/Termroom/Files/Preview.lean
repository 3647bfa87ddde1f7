import Mathlib
import Termroom.Data.Utf8

/-!
# The preview of a text file

`read_text_preview` shows a part of a file: its head, its tail or a range. The part is a slice of
bytes, and the cuts can lie inside a character. `decode_utf8_preview` takes what is left of these
characters off, so that the preview of a text has exactly the characters that lie in the slice
(`decodeUtf8Preview_exact`).
-/

set_option autoImplicit false

namespace Termroom.Files

open Data

/-! ## 1. Decoding -/

/-- `decode_utf8_preview`: `none` where it raises `UnicodeDecodeError`. -/
def decodeUtf8Preview (raw : List UInt8) (allowPartialStart final : Bool) : Option (List Char) :=
  let skip := if allowPartialStart then Utf8.leadingContinuations 3 raw else 0
  Utf8.decode final (raw.drop skip)

/-- What the callers make of a slice: a cut in front where it does not start with the file, and
    one behind where it does not end with it. -/
def decodeSlice (size start : Nat) (raw : List UInt8) : Option (List Char) :=
  decodeUtf8Preview raw (start > 0) (start + raw.length ≥ size)

/-! ## 2. The preview -/

inductive PreviewError where
  | value (message : String)
  /-- `UnsupportedFileError`. -/
  | unsupportedFile (message : String)
  deriving DecidableEq, Repr

structure TextPreview where
  relativePath : String
  content : List Char
  size : Nat
  mtimeNs : Int
  mode : String
  truncated : Bool
  offset : Nat := 0
  bytesRead : Nat := 0
  deriving DecidableEq, Repr

/-- A file, as `stat` and the read find it. -/
structure RegularFile where
  relativePath : String
  size : Nat
  mtimeNs : Int
  content : List UInt8
  deriving DecidableEq, Repr

def previewLimit (maxBytes : Int) : Nat := (max 4096 (min maxBytes (1024 * 1024))).toNat

def previewStart (size limit : Nat) (mode : String) (offset : Int) : Nat :=
  if mode = "tail" then size - limit
  else if mode = "range" then (max 0 (min offset size)).toNat
  else 0

/-- What follows the first newline, if there is one. -/
def dropPartialLine (content : List Char) : List Char :=
  match content.dropWhile (· ≠ '\n') with
  | [] => content
  | _ :: remainder => remainder

/-- `read_text_preview`. -/
def readTextPreview (file : RegularFile) (mode : String) (offset maxBytes : Int) :
    Except PreviewError TextPreview :=
  let limit := previewLimit maxBytes
  if mode ≠ "head" ∧ mode ≠ "tail" ∧ mode ≠ "range" then
    .error (.value "Preview mode must be head, tail, or range")
  else
    let start := previewStart file.size limit mode offset
    let raw := (file.content.drop start).take limit
    if 0 ∈ raw then .error (.unsupportedFile "Binary files cannot be shown as text")
    else
      match decodeSlice file.size start raw with
      | none => .error (.unsupportedFile "Only UTF-8 text can be previewed")
      | some content =>
        .ok {
          relativePath := file.relativePath
          content := if start > 0 then dropPartialLine content else content
          size := file.size, mtimeNs := file.mtimeNs, mode
          truncated := start > 0 ∨ start + raw.length < file.size
          offset := start, bytesRead := raw.length }

/-! ## 3. The slices of a text -/

variable {text : List Char}

theorem decodeSlice_within (i j : Nat) :
    decodeSlice (utf8 text).length i (((utf8 text).drop i).take (j - i)) =
      some (Utf8.within i j 0 text) := by
  obtain ⟨d, hfeed, howed⟩ := @Utf8.feed_slice text i j 3 (Nat.le_refl 3)
  unfold decodeSlice decodeUtf8Preview
  by_cases hstart : i > 0
  · simp only [hstart, decide_true, if_true]
    apply Utf8.decode_of_feed hfeed
    intro hfinal
    have hfinal := of_decide_eq_true hfinal
    rw [List.length_take, List.length_drop] at hfinal
    by_cases hend : (utf8 text).length ≤ j
    · exact howed hend
    · -- the slice starts behind the text
      have hbehind : (utf8 text).drop i = [] := List.drop_eq_nil_of_le (by omega)
      rw [hbehind, List.take_nil] at hfeed
      obtain ⟨rfl, -⟩ := Prod.mk.inj (Option.some.inj hfeed)
      rfl
  · obtain rfl : i = 0 := by omega
    obtain ⟨d, hfeed, howed⟩ := @Utf8.feed_take text j
    simp only [gt_iff_lt, Nat.lt_irrefl, decide_false, Bool.false_eq_true, if_false,
      List.drop_zero, Nat.sub_zero, Nat.zero_add]
    apply Utf8.decode_of_feed hfeed
    intro hfinal
    have hfinal := of_decide_eq_true hfinal
    rw [List.length_take] at hfinal
    exact howed (by omega)

/-- **A slice of a text decodes** to the characters that lie in it, with the flags of its cuts. -/
theorem decodeUtf8Preview_exact (text : List Char) (i j : Nat) :
    let raw := ((utf8 text).drop i).take (j - i)
    decodeUtf8Preview raw (i > 0) (i + raw.length ≥ (utf8 text).length) =
      some (Utf8.within i j 0 text) := decodeSlice_within i j

/-- Slices inside a character, and one from the end of a character to the start of another. -/
example : decodeSlice 6 1 [0x82] = some [] ∧ decodeSlice 6 1 [0x82, 0xAC] = some [] ∧
    decodeSlice 6 2 [0xAC, 0x61, 0xC3] = some ['a'] := by decide +kernel

theorem nul_mem (h : 0 ∈ utf8 text) : '\x00' ∈ text := by
  obtain ⟨c, hc, hzero⟩ := List.mem_flatMap.mp h
  have hspelling := Utf8.spelling c
  suffices c.val.toNat = 0 by
    have hnul : c = '\x00' := Char.toNat_inj.mp this
    exact hnul ▸ hc
  generalize String.utf8EncodeChar c = bytes at hspelling hzero
  generalize c.val.toNat = v at hspelling ⊢
  have zero : (0 : UInt8).toNat = 0 := rfl
  cases hspelling with
  | one small first =>
    obtain rfl := List.mem_singleton.mp hzero
    omega
  | two range first second =>
    simp only [List.mem_cons, List.not_mem_nil, or_false] at hzero
    rcases hzero with rfl | rfl <;> omega
  | three range first second third =>
    simp only [List.mem_cons, List.not_mem_nil, or_false] at hzero
    rcases hzero with rfl | rfl | rfl <;> omega
  | four range first second third fourth =>
    simp only [List.mem_cons, List.not_mem_nil, or_false] at hzero
    rcases hzero with rfl | rfl | rfl | rfl <;> omega

/-- **A text file is previewed**, in every mode and from every offset. -/
theorem readTextPreview_text {file : RegularFile} {mode : String} {offset maxBytes : Int}
    (hmode : mode = "head" ∨ mode = "tail" ∨ mode = "range")
    (hcontent : file.content = utf8 text) (hsize : file.size = (utf8 text).length)
    (plain : '\x00' ∉ text) : ∃ preview,
      readTextPreview file mode offset maxBytes = .ok preview ∧
      let start := previewStart file.size (previewLimit maxBytes) mode offset
      let shown := Utf8.within start (start + previewLimit maxBytes) 0 text
      preview.content = (if start > 0 then dropPartialLine shown else shown) ∧
      preview.size = file.size ∧ preview.offset = start ∧
      preview.bytesRead = min (previewLimit maxBytes) (file.size - start) := by
  have known : ¬(mode ≠ "head" ∧ mode ≠ "tail" ∧ mode ≠ "range") := by
    intro ⟨hhead, htail, hrange⟩
    rcases hmode with h | h | h
    · exact hhead h
    · exact htail h
    · exact hrange h
  unfold readTextPreview
  dsimp only
  rw [if_neg known]
  generalize previewStart file.size (previewLimit maxBytes) mode offset = start
  generalize previewLimit maxBytes = limit
  have decoded := @decodeSlice_within text start (start + limit)
  rw [Nat.add_sub_cancel_left] at decoded
  have printable : ¬0 ∈ ((utf8 text).drop start).take limit := by
    intro hzero
    exact plain (nul_mem (List.mem_of_mem_drop (List.mem_of_mem_take hzero)))
  rw [hcontent, if_neg printable, hsize, decoded]
  refine ⟨_, rfl, rfl, rfl, rfl, ?_⟩
  rw [List.length_take, List.length_drop]

end Termroom.Files
