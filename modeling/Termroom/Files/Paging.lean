import Mathlib
import Termroom.Files.Preview

/-!
# Paging through a text file

The file view shows the head of a file and a link to what follows, a range from the offset where
the page ends; following these links leads to the end of the file. A character that a page ends in
is on no page, and a range does not show the line that it begins in, which may have begun on the
page before. What is behind the first line feed of a page is shown (`followPages_shows`).
-/

set_option autoImplicit false

namespace Termroom.Files

open Data

/-! ## 1. The pages -/

/-- A file and its attributes, as SFTP shows them. -/
structure SftpFile where
  relativePath : String
  stSize : Option Nat
  stMtime : Option Nat
  isRegular : Bool
  content : List UInt8
  deriving DecidableEq, Repr

/-- `SSHBackend.read_text_preview`, which repeats the local one. -/
def sshReadTextPreview (remote : SftpFile) (mode : String) (offset maxBytes : Int) :
    Except PreviewError TextPreview :=
  if ¬remote.isRegular then .error (.unsupportedFile "Only regular files can be previewed")
  else
    readTextPreview {
      relativePath := remote.relativePath
      size := remote.stSize.getD 0
      mtimeNs := remote.stMtime.getD 0 * 1000000000
      content := remote.content } mode offset maxBytes

def previewNextOffset (preview : TextPreview) : Nat :=
  min preview.size (preview.offset + preview.bytesRead)

/-- The page of a request and those that its link leads to: `none` where a page cannot be shown,
    and where more requests are needed to reach the size. -/
def followPages (read : String → Int → Except PreviewError TextPreview) :
    (requests : Nat) → (mode : String) → (offset : Nat) → Option (List TextPreview)
  | 0, _, _ => none
  | requests + 1, mode, offset =>
    match read mode offset with
    | .error _ => none
    | .ok page =>
      if previewNextOffset page < page.size then
        (followPages read requests "range" (previewNextOffset page)).map (page :: ·)
      else some [page]

/-! ## 2. What a page shows -/

/-- A page shows of the characters inside it: all of them if it is the first page, or has no line
    feed, and else at least what is behind its first line feed. -/
structure ShowsPage (first : Prop) (inside content : List Char) : Prop where
  only : content <:+ inside
  whole : first ∨ '\n' ∉ inside → content = inside
  behind : ∀ line rest, inside = line ++ '\n' :: rest → '\n' ∉ line → rest <:+ content

/-- The pages of a text: its bytes are divided among them. -/
structure ShowsPages (text : List Char) (limit : Nat) (pages : List TextPreview) : Prop where
  reach : (utf8 text).length ≤ pages.length * limit
  shows : ∀ k page, pages[k]? = some page →
    ShowsPage (k = 0) (Utf8.within (k * limit) (k * limit + limit) 0 text) page.content

section

variable {text : List Char} {limit k : Nat} {page : TextPreview}

theorem ShowsPage.all (first : Prop) (inside : List Char) : ShowsPage first inside inside where
  only := List.suffix_rfl
  whole _ := rfl
  behind line rest h _ := ⟨line ++ ['\n'], by simp [h]⟩

theorem dropPartialLine_line {line rest : List Char} (hline : '\n' ∉ line) :
    dropPartialLine (line ++ '\n' :: rest) = rest := by
  have hdrop : (line ++ '\n' :: rest).dropWhile (· ≠ '\n') = '\n' :: rest := by
    rw [List.dropWhile_append_of_pos]
    · simp
    · intro c hc
      simpa using fun heq : c = '\n' => hline (heq ▸ hc)
  rw [dropPartialLine, hdrop]

theorem dropPartialLine_shows (inside : List Char) :
    ShowsPage False inside (dropPartialLine inside) := by
  by_cases hfeed : '\n' ∈ inside
  · obtain ⟨line, remainder, rfl, hline⟩ := List.eq_append_cons_of_mem hfeed
    rw [dropPartialLine_line hline]
    refine ⟨⟨line ++ ['\n'], by simp⟩, ?_, ?_⟩
    · rintro (h | h)
      · exact h.elim
      · exact absurd hfeed h
    · intro line' rest h hline'
      have := congrArg dropPartialLine h
      rw [dropPartialLine_line hline, dropPartialLine_line hline'] at this
      exact this ▸ List.suffix_rfl
  · have hdrop : inside.dropWhile (· ≠ '\n') = [] := by
      rw [List.dropWhile_eq_nil_iff]
      intro c hc
      simpa using fun heq : c = '\n' => hfeed (heq ▸ hc)
    have hall : dropPartialLine inside = inside := by rw [dropPartialLine, hdrop]
    rw [hall]
    exact .all _ _

/-! ## 3. From page to page -/

/-- What the code shows of a page. -/
def shown (limit : Nat) (text : List Char) (start : Nat) : List Char :=
  let inside := Utf8.within start (start + limit) 0 text
  if start > 0 then dropPartialLine inside else inside

theorem shown_shows (start : Nat) :
    ShowsPage (start = 0) (Utf8.within start (start + limit) 0 text) (shown limit text start) := by
  unfold shown
  by_cases hzero : start = 0
  · subst hzero
    exact ShowsPage.all _ _
  · rw [if_pos (Nat.pos_of_ne_zero hzero)]
    simpa [hzero] using dropPartialLine_shows _

/-- What is read of a text, from an offset that the requests lead to. -/
def Reads (read : String → Int → Except PreviewError TextPreview) (text : List Char)
    (limit : Nat) : Prop :=
  ∀ mode start, mode = "head" ∧ start = 0 ∨ mode = "range" ∧ start ≤ (utf8 text).length →
    ∃ page, read mode (start : Nat) = .ok page ∧
      page.content = shown limit text start ∧ page.size = (utf8 text).length ∧
      page.offset = start ∧ page.bytesRead = min limit ((utf8 text).length - start)

theorem readTextPreview_reads {file : RegularFile} (hcontent : file.content = utf8 text)
    (hsize : file.size = (utf8 text).length) (plain : '\x00' ∉ text) (maxBytes : Int) :
    Reads (readTextPreview file · · maxBytes) text (previewLimit maxBytes) := by
  intro mode start hmode
  have known : mode = "head" ∨ mode = "tail" ∨ mode = "range" := by
    rcases hmode with ⟨h, -⟩ | ⟨h, -⟩
    · exact .inl h
    · exact .inr (.inr h)
  have hstart : previewStart file.size (previewLimit maxBytes) mode start = start := by
    rcases hmode with ⟨rfl, rfl⟩ | ⟨rfl, hle⟩
    · rfl
    · rw [hsize]
      simp [previewStart]
      omega
  obtain ⟨page, hread, hshown, hpage, hoffset, hbytes⟩ :=
    @readTextPreview_text text file mode start maxBytes known hcontent hsize plain
  rw [hstart] at hshown hoffset hbytes
  exact ⟨page, hread, hshown, hpage.trans hsize, hoffset, hsize ▸ hbytes⟩

variable {read : String → Int → Except PreviewError TextPreview} {mode : String} {start : Nat}

theorem followPages_succ {requests : Nat} (hread : read mode start = .ok page) :
    followPages read (requests + 1) mode start =
      if previewNextOffset page < page.size then
        (followPages read requests "range" (previewNextOffset page)).map (page :: ·)
      else some [page] := by
  rw [followPages, hread]

theorem last_shown (hshown : page.content = shown limit text start) :
    ∀ k page', [page][k]? = some page' → page'.content = shown limit text (start + k * limit) := by
  intro k page' hk
  cases k with
  | zero =>
    cases hk
    simpa using hshown
  | succ k => cases hk

theorem followPages_from (h : Reads read text limit) (hlimit : 0 < limit) {n : Nat}
    (hmode : mode = "head" ∧ start = 0 ∨ mode = "range" ∧ start ≤ (utf8 text).length)
    (hn : (utf8 text).length ≤ start + n) : ∃ pages,
      (∀ requests, n ≤ requests → followPages read (requests + 1) mode start = some pages) ∧
      (utf8 text).length ≤ start + pages.length * limit ∧
      ∀ k page, pages[k]? = some page → page.content = shown limit text (start + k * limit) := by
  induction n generalizing mode start with
  | zero =>
    obtain ⟨page, hread, hshown, hsize, hoffset, hbytes⟩ := h mode start hmode
    have hlast : ¬previewNextOffset page < page.size := by
      unfold previewNextOffset
      omega
    refine ⟨[page], ?_, by omega, last_shown hshown⟩
    intro requests _
    rw [followPages_succ hread, if_neg hlast]
  | succ n ih =>
    obtain ⟨page, hread, hshown, hsize, hoffset, hbytes⟩ := h mode start hmode
    by_cases hnext : previewNextOffset page < page.size
    · have heq : previewNextOffset page = start + limit := by
        unfold previewNextOffset at hnext ⊢
        omega
      obtain ⟨pages, hpages, hreach, hall⟩ := @ih "range" (start + limit)
        (.inr ⟨rfl, by omega⟩) (by omega)
      refine ⟨page :: pages, ?_, ?_, ?_⟩
      · intro requests hrequests
        obtain ⟨requests, rfl⟩ : ∃ m, requests = m + 1 := ⟨requests - 1, by omega⟩
        rw [followPages_succ hread, if_pos hnext, heq, hpages requests (by omega)]
        rfl
      · rw [List.length_cons, Nat.succ_mul]
        omega
      · intro k page' hk
        cases k with
        | zero =>
          cases hk
          simpa using hshown
        | succ k =>
          have hk := hall k page' hk
          rwa [Nat.add_assoc, Nat.add_comm limit, ← Nat.succ_mul] at hk
    · refine ⟨[page], ?_, ?_, last_shown hshown⟩
      · intro requests _
        rw [followPages_succ hread, if_neg hnext]
      · unfold previewNextOffset at hnext
        rw [List.length_singleton, Nat.one_mul]
        omega

/-- The pages of a file, however many requests may follow. -/
def Pages (read : String → Int → Except PreviewError TextPreview) (pages : List TextPreview) :
    Prop :=
  ∃ enough, ∀ requests, enough ≤ requests → followPages read (requests + 1) "head" 0 = some pages

theorem Reads.pages (h : Reads read text limit) (hlimit : 0 < limit) : ∃ pages, Pages read pages ∧
      (utf8 text).length ≤ pages.length * limit ∧
      ∀ k page, pages[k]? = some page → page.content = shown limit text (k * limit) := by
  obtain ⟨pages, hpages, hreach, hall⟩ :=
    followPages_from h hlimit (.inl ⟨rfl, rfl⟩) (Nat.zero_add _).ge
  rw [Nat.zero_add] at hreach
  simp only [Nat.zero_add] at hall
  exact ⟨pages, ⟨_, hpages⟩, hreach, hall⟩

theorem Reads.shows (h : Reads read text limit) (hlimit : 0 < limit) :
    ∃ pages, Pages read pages ∧ ShowsPages text limit pages := by
  obtain ⟨pages, hpages, hreach, hall⟩ := h.pages hlimit
  refine ⟨pages, hpages, hreach, ?_⟩
  intro k page hk
  rw [hall k page hk]
  have hshows := @shown_shows text limit (k * limit)
  refine ⟨hshows.only, ?_, hshows.behind⟩
  rintro (rfl | hline)
  · exact hshows.whole (.inl (Nat.zero_mul _))
  · exact hshows.whole (.inr hline)

theorem Pages.unique {pages others : List TextPreview} (h : Pages read pages)
    (hothers : Pages read others) : pages = others := by
  obtain ⟨n, h⟩ := h
  obtain ⟨m, hothers⟩ := hothers
  have := h (max n m) (Nat.le_max_left _ _)
  rw [hothers (max n m) (Nat.le_max_right _ _)] at this
  exact (Option.some.inj this).symm

theorem previewLimit_pos (maxBytes : Int) : 0 < previewLimit maxBytes := by
  unfold previewLimit
  omega

/-- **The pages of a text show it**, on the local and on the SSH backend: each of its bytes is in a
    page, and of the characters that are whole in a page only a first line may be left out. -/
theorem followPages_shows (text : List Char) (plain : '\x00' ∉ text) (relativePath : String)
    (mtimeNs maxBytes : Int) (stMtime : Option Nat) :
    (∃ pages, Pages (readTextPreview
        { relativePath, size := (utf8 text).length, mtimeNs, content := utf8 text } · · maxBytes)
        pages ∧ ShowsPages text (previewLimit maxBytes) pages) ∧
    ∃ pages, Pages (sshReadTextPreview
        { relativePath, stSize := some (utf8 text).length, stMtime, isRegular := true,
          content := utf8 text } · · maxBytes)
        pages ∧ ShowsPages text (previewLimit maxBytes) pages := by
  have hlimit := previewLimit_pos maxBytes
  constructor
  · exact (readTextPreview_reads rfl rfl plain maxBytes).shows hlimit
  · apply Reads.shows _ hlimit
    -- the SSH backend reads a regular file as the local one does
    exact readTextPreview_reads rfl rfl plain maxBytes

/-- A page that shows a text with a Euro sign, on both backends. -/
theorem followPages_shows_euro :
    ∃ pages, Pages (sshReadTextPreview
        { relativePath := "price.txt", stSize := some (utf8 ['5', '€', '\n']).length,
          stMtime := none, isRegular := true, content := utf8 ['5', '€', '\n'] } · · 512)
        pages ∧ ShowsPages ['5', '€', '\n'] (previewLimit 512) pages :=
  (followPages_shows ['5', '€', '\n'] (by decide) "price.txt" 0 512 none).2

/-! ## 4. What is not shown -/

theorem within_append {i j pos : Nat} {more : List Char} :
    Utf8.within i j pos (text ++ more) =
      Utf8.within i j pos text ++ Utf8.within i j (pos + (utf8 text).length) more := by
  induction text generalizing pos with
  | nil => rfl
  | cons c text ih =>
    rw [Utf8.utf8_cons, List.length_append, ← Nat.add_assoc]
    simp only [List.cons_append, Utf8.within, ih]
    split_ifs with h
    · rfl
    · rfl

theorem within_subset {i j pos : Nat} : Utf8.within i j pos text ⊆ text := by
  induction text generalizing pos with
  | nil => exact List.Subset.refl _
  | cons c text ih =>
    rw [Utf8.within]
    split_ifs with h
    · exact List.cons_subset_cons _ ih
    · exact List.subset_cons_of_subset _ ih

/-- A page and the rest of the line that it ends in. -/
def brokenLine (n : Nat) : List Char := List.replicate n 'a' ++ ['b', '\n', 'c']

theorem brokenLine_inside {n i j : Nat} : ∃ page, '\n' ∉ page ∧ 'b' ∉ page ∧
    Utf8.within i j 0 (brokenLine n) = page ++ Utf8.within (i - n) (j - n) 0 ['b', '\n', 'c'] := by
  refine ⟨Utf8.within i j 0 (List.replicate n 'a'), ?_, ?_, ?_⟩
  · exact fun h => absurd (List.eq_of_mem_replicate (within_subset h)) (by decide)
  · exact fun h => absurd (List.eq_of_mem_replicate (within_subset h)) (by decide)
  · have hlength : (utf8 (List.replicate n 'a')).length = n := by
      have hbytes : (String.utf8EncodeChar 'a').length = 1 := by decide
      induction n with
      | zero => rfl
      | succ n ih => rw [List.replicate_succ, Utf8.utf8_cons, List.length_append, ih, hbytes,
          Nat.add_comm]
    rw [brokenLine, within_append, hlength, Utf8.within_shift]

theorem brokenLine_shown {n : Nat} (hn : 3 ≤ n) (k : Nat) :
    'b' ∉ shown n (brokenLine n) (k * n) := by
  obtain ⟨page, hline, hb, hinside⟩ := @brokenLine_inside n (k * n) (k * n + n)
  unfold shown
  dsimp only
  rw [hinside]
  cases k with
  | zero =>
    rw [Nat.zero_mul, Nat.zero_add, Nat.sub_self, Utf8.within_end (Nat.le_refl 0),
      List.append_nil]
    exact hb
  | succ k =>
    have hpos : (k + 1) * n > 0 := Nat.mul_pos (Nat.succ_pos _) (by omega)
    have hi : (k + 1) * n - n = k * n := by rw [Nat.succ_mul, Nat.add_sub_cancel]
    have hj : (k + 1) * n + n - n = (k + 1) * n := Nat.add_sub_cancel _ _
    rw [if_pos hpos, hi, hj]
    cases k with
    | zero =>
      -- the page begins in the broken line
      have hall : Utf8.within (0 * n) ((0 + 1) * n) 0 ['b', '\n', 'c'] = ['b', '\n', 'c'] := by
        have hb : (String.utf8EncodeChar 'b').length = 1 := by decide
        have hfeed : (String.utf8EncodeChar '\n').length = 1 := by decide
        have hc : (String.utf8EncodeChar 'c').length = 1 := by decide
        have h1 : 1 ≤ n := by omega
        have h2 : 2 ≤ n := by omega
        simp [Utf8.within, hb, hfeed, hc, hn, h1, h2]
      rw [hall, ← List.singleton_append, ← List.append_assoc, dropPartialLine_line]
      · decide
      · simpa using hline
    | succ k =>
      -- the page begins behind the text
      have hbehind : ¬(k + 1) * n ≤ 0 :=
        Nat.not_le_of_lt (Nat.mul_pos (Nat.succ_pos k) (show 0 < n by omega))
      intro h
      rcases List.mem_append.mp ((dropPartialLine_shows _).only.subset h) with h | h
      · exact hb h
      · rw [Utf8.within, if_neg (fun h => hbehind h.1)] at h
        exact absurd (within_subset h) (by decide)

/-- **Text is lost** between the pages: the line that a page ends in is not shown on the next. -/
theorem followPages_lossy : ¬∀ (text : List Char) (maxBytes : Int), '\x00' ∉ text → ∃ pages,
    Pages (readTextPreview
      { relativePath := "notes.txt", size := (utf8 text).length, mtimeNs := 0,
        content := utf8 text } · · maxBytes) pages ∧
    ∀ c ∈ text, ∃ page ∈ pages, c ∈ page.content := by
  intro claim
  obtain ⟨n, hlimit, hn⟩ : ∃ n, previewLimit 4096 = n ∧ 3 ≤ n := ⟨4096, by decide, by omega⟩
  have plain : '\x00' ∉ brokenLine n := by
    unfold brokenLine
    simp
  obtain ⟨pages, hpages, hall⟩ := claim (brokenLine n) 4096 plain
  obtain ⟨others, hothers, -, hshown⟩ := Reads.pages
    (@readTextPreview_reads (brokenLine n) ⟨"notes.txt", _, 0, _⟩ rfl rfl plain 4096)
    (previewLimit_pos 4096)
  obtain rfl := hpages.unique hothers
  obtain ⟨page, hpage, hb⟩ := hall 'b' (List.mem_append_right _ List.mem_cons_self)
  obtain ⟨k, hk⟩ := List.mem_iff_getElem?.mp hpage
  rw [hshown k page hk, hlimit] at hb
  exact brokenLine_shown hn k hb

end

end Termroom.Files
