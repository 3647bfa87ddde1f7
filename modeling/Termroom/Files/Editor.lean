import Mathlib
import Termroom.Data.JsonText

/-!
# The line endings of an edited file

The editor of a file is an HTML form, and a browser submits its lines with endings of its own. The
form carries what the file ended its lines with, and `normalize_editor_newlines` restores it: a file
whose lines all end the same way keeps its bytes if its lines are the same, and new lines get the
ending of the file (`editor_round_trip`).

A text is submitted here as the lines of the editor with any endings. What an HTML parser does to
the text of the form before it is shown, such as dropping a line feed in front, is not modelled.
-/

set_option autoImplicit false

namespace Termroom.Files

open Data

/-! ## 1. The code -/

/-- `content.replace("\r\n", new)`. -/
def replaceCrlf (new : List Char) : List Char → List Char
  | '\r' :: '\n' :: content => new ++ replaceCrlf new content
  | c :: content => c :: replaceCrlf new content
  | [] => []

/-- `content.replace(c, new)` of one character. -/
def replaceChar (c : Char) (new content : List Char) : List Char :=
  content.flatMap fun d => if d = c then new else [d]

def editorNewlineStyle (content : List Char) : String :=
  let withoutCrlf := replaceCrlf [] content
  if ['\r', '\n'] <:+: content ∧ '\n' ∉ withoutCrlf then "crlf" else "lf"

def normalizeEditorNewlines (content : List Char) (style : String) : List Char :=
  let normalized := replaceChar '\r' ['\n'] (replaceCrlf ['\n'] content)
  if style = "crlf" then replaceChar '\n' ['\r', '\n'] normalized else normalized

/-- What the editor shows of a file, and the hidden field of its form. -/
structure EditorPage where
  content : List Char
  newlineStyle : String
  deriving DecidableEq, Repr

/-- `read_text`, of a regular file that does not change: its text, or the message of
    `UnsupportedFileError`. -/
def readText (maxEditBytes : Nat) (raw : List UInt8) : Except String (List Char) :=
  if maxEditBytes < raw.length then .error "File exceeds the editable size limit"
  else if 0 ∈ raw then .error "Binary files cannot be edited"
  else
    match decodeUtf8 raw with
    | some content => .ok content
    | none => .error "Only UTF-8 text files can be edited"

/-- `editor`. -/
def openEditor (maxEditBytes : Nat) (raw : List UInt8) : Except String EditorPage := do
  let content ← readText maxEditBytes raw
  return { content, newlineStyle := editorNewlineStyle content }

/-- The fields of the form that the text is saved from. -/
structure EditorForm where
  content : Option (List Char)
  newline : Option String
  deriving DecidableEq, Repr

/-- What `save_file` writes. -/
def savedFile (form : EditorForm) : List UInt8 :=
  utf8 (normalizeEditorNewlines (form.content.getD []) (form.newline.getD "lf"))

example : savedFile ⟨some "after\r\nline\r\n".toList, some "lf"⟩ = utf8 "after\nline\n".toList ∧
    savedFile ⟨some "after\nline\r\n".toList, some "crlf"⟩ = utf8 "after\r\nline\r\n".toList := by
  decide +kernel

/-! ## 2. Lines -/

inductive LineEnding where
  | lf
  | crlf
  deriving DecidableEq, Repr

def LineEnding.text : LineEnding → List Char
  | .lf => ['\n']
  | .crlf => ['\r', '\n']

/-- The lines of a text, of which the last one has no ending. -/
structure Document where
  lines : List (List Char)
  nonempty : lines ≠ []
  plain : ∀ line ∈ lines, '\r' ∉ line ∧ '\n' ∉ line

/-- Lines with an ending between each two. -/
def weave (endings : Nat → List Char) : List (List Char) → List Char
  | [] => []
  | [line] => line
  | line :: lines => line ++ endings 0 ++ weave (fun n => endings (n + 1)) lines

/-- A text with one line ending. -/
def Document.text (document : Document) (ending : LineEnding) : List Char :=
  weave (fun _ => ending.text) document.lines

/-- A text as a browser may submit it. -/
def Document.submitted (document : Document) (endings : Nat → LineEnding) : List Char :=
  weave (fun n => (endings n).text) document.lines

/-- The line ending of a file; a file of one line has none, and is edited with line feeds. -/
def Document.ownEnding (document : Document) (ending : LineEnding) : LineEnding :=
  if document.lines.length = 1 then .lf else ending

/-- The contents with one line ending, character by character. -/
inductive Uniform (ending : LineEnding) : List Char → Prop
  | nil : Uniform ending []
  | char {c : Char} {content : List Char} (plain : c ≠ '\r' ∧ c ≠ '\n')
      (rest : Uniform ending content) : Uniform ending (c :: content)
  | ending {content : List Char} (rest : Uniform ending content) :
      Uniform ending (ending.text ++ content)

/-! ## 3. What the replacements do to lines -/

variable {lines : List (List Char)} {line content new : List Char} {c : Char}
  {ending : LineEnding}

theorem weave_cons {endings : Nat → List Char} (h : lines ≠ []) : weave endings (line :: lines) =
    line ++ endings 0 ++ weave (fun n => endings (n + 1)) lines := by
  cases lines with
  | nil => exact absurd rfl h
  | cons next lines => rfl

theorem mem_weave {endings : Nat → List Char} (h : c ∈ weave endings lines) :
    (∃ line ∈ lines, c ∈ line) ∨ ∃ n, c ∈ endings n := by
  induction lines generalizing endings with
  | nil => cases h
  | cons line lines ih =>
    by_cases hlines : lines = []
    · subst hlines
      exact .inl ⟨line, List.mem_cons_self, h⟩
    · rw [weave_cons hlines, List.mem_append, List.mem_append] at h
      rcases h with (h | h) | h
      · exact .inl ⟨line, List.mem_cons_self, h⟩
      · exact .inr ⟨0, h⟩
      · rcases ih h with ⟨line', hline', hc⟩ | ⟨n, hn⟩
        · exact .inl ⟨line', List.mem_cons_of_mem _ hline', hc⟩
        · exact .inr ⟨n + 1, hn⟩

theorem replaceCrlf_cons (h : c ≠ '\r') :
    replaceCrlf new (c :: content) = c :: replaceCrlf new content := by
  rw [replaceCrlf]
  rintro _ rfl _
  exact h rfl

theorem replaceCrlf_line (h : '\r' ∉ line) :
    replaceCrlf new (line ++ content) = line ++ replaceCrlf new content := by
  induction line with
  | nil => rfl
  | cons c line ih =>
    obtain ⟨hc, hline⟩ := List.ne_and_not_mem_of_not_mem_cons h
    rw [List.cons_append, replaceCrlf_cons fun heq => hc heq.symm, ih hline, List.cons_append]

/-- What becomes of a line ending. -/
theorem replaceCrlf_ending : replaceCrlf new (ending.text ++ content) =
    (if ending = .crlf then new else ['\n']) ++ replaceCrlf new content := by
  cases ending with
  | lf => exact replaceCrlf_cons (by decide)
  | crlf => rfl

theorem replaceCrlf_weave {endings : Nat → LineEnding} (plain : ∀ line ∈ lines, '\r' ∉ line) :
    replaceCrlf new (weave (fun n => (endings n).text) lines) =
      weave (fun n => if endings n = .crlf then new else ['\n']) lines := by
  induction lines generalizing endings with
  | nil => rfl
  | cons line lines ih =>
    obtain ⟨hline, hrest⟩ := List.forall_mem_cons.mp plain
    by_cases hlines : lines = []
    · subst hlines
      have := @replaceCrlf_line line [] new hline
      simpa [weave, replaceCrlf] using this
    · rw [weave_cons hlines, weave_cons hlines, List.append_assoc, replaceCrlf_line hline,
        replaceCrlf_ending, ih hrest, List.append_assoc]

theorem replaceChar_line (h : c ∉ line) : replaceChar c new line = line := by
  induction line with
  | nil => rfl
  | cons d line ih =>
    obtain ⟨hd, hline⟩ := List.ne_and_not_mem_of_not_mem_cons h
    have hrest := ih hline
    unfold replaceChar at hrest ⊢
    rw [List.flatMap_cons, if_neg fun heq => hd heq.symm, hrest]
    rfl

theorem replaceChar_weave {endings : Nat → List Char} (plain : ∀ line ∈ lines, c ∉ line) :
    replaceChar c new (weave endings lines) =
      weave (fun n => replaceChar c new (endings n)) lines := by
  induction lines generalizing endings with
  | nil => rfl
  | cons line lines ih =>
    obtain ⟨hline, hrest⟩ := List.forall_mem_cons.mp plain
    by_cases hlines : lines = []
    · subst hlines
      exact replaceChar_line hline
    · have hsame := @replaceChar_line line new c hline
      have htail := @ih (fun n => endings (n + 1)) hrest
      rw [weave_cons hlines, weave_cons hlines, ← htail]
      unfold replaceChar at hsame ⊢
      rw [List.flatMap_append, List.flatMap_append, hsame]

/-- **A submitted text is normalized** to the ending that is asked for. -/
theorem normalizeEditorNewlines_submitted (document : Document) (endings : Nat → LineEnding)
    (style : String) : normalizeEditorNewlines (document.submitted endings) style =
      document.text (if style = "crlf" then .crlf else .lf) := by
  have carriage : ∀ line ∈ document.lines, '\r' ∉ line := fun line h => (document.plain line h).1
  have feed : ∀ line ∈ document.lines, '\n' ∉ line := fun line h => (document.plain line h).2
  have normalized : replaceChar '\r' ['\n'] (replaceCrlf ['\n'] (document.submitted endings)) =
      weave (fun _ => ['\n']) document.lines := by
    rw [Document.submitted, replaceCrlf_weave carriage, replaceChar_weave carriage]
    simp only [ite_self]
    rfl
  unfold normalizeEditorNewlines
  rw [normalized]
  split_ifs
  · rw [replaceChar_weave feed]
    rfl
  · rfl

/-- A file has no other ending than its own. -/
theorem text_ownEnding (document : Document) (ending : LineEnding) :
    document.text (document.ownEnding ending) = document.text ending := by
  unfold Document.ownEnding
  split_ifs with hlength
  · obtain ⟨line, hline⟩ := List.length_eq_one_iff.mp hlength
    unfold Document.text
    rw [hline]
    rfl
  · rfl

theorem notMem_text_lf (document : Document) : '\r' ∉ document.text .lf := by
  intro h
  rcases mem_weave h with ⟨line, hline, hc⟩ | ⟨-, hn⟩
  · exact (document.plain line hline).1 hc
  · exact absurd hn (by decide)

/-- **The style of a file** is its own line ending. -/
theorem editorNewlineStyle_text (document : Document) (ending : LineEnding) :
    editorNewlineStyle (document.text ending) =
      if document.ownEnding ending = .crlf then "crlf" else "lf" := by
  have carriage : ∀ line ∈ document.lines, '\r' ∉ line := fun line h => (document.plain line h).1
  have feed : ∀ line ∈ document.lines, '\n' ∉ line := fun line h => (document.plain line h).2
  unfold editorNewlineStyle
  by_cases hcrlf : document.ownEnding ending = .crlf
  · unfold Document.ownEnding at hcrlf
    split_ifs at hcrlf with hlength
    subst hcrlf
    have hpair : ['\r', '\n'] <:+: document.text .crlf := by
      unfold Document.text
      cases hlines : document.lines with
      | nil => exact absurd hlines document.nonempty
      | cons line lines =>
        have hne : lines ≠ [] := by
          rintro rfl
          exact hlength (by rw [hlines]; rfl)
        rw [weave_cons hne]
        exact List.infix_append _ _ _
    have hwithout : '\n' ∉ replaceCrlf [] (document.text .crlf) := by
      unfold Document.text
      rw [replaceCrlf_weave carriage]
      intro h
      rcases mem_weave h with ⟨line, hline, hc⟩ | ⟨n, hn⟩
      · exact feed line hline hc
      · cases hn
    rw [if_pos ⟨hpair, hwithout⟩]
    unfold Document.ownEnding
    rw [if_neg hlength, if_pos rfl]
  · have hlf : document.ownEnding ending = .lf := by
      cases h : document.ownEnding ending with
      | lf => rfl
      | crlf => exact absurd h hcrlf
    rw [if_neg hcrlf, ← text_ownEnding, hlf, if_neg]
    rintro ⟨hpair, -⟩
    exact notMem_text_lf document (hpair.subset List.mem_cons_self)

/-! ## 4. Through the editor -/

/-- A text is opened as it is, unless it is too long or has a NUL. -/
theorem openEditor_utf8 {maxEditBytes : Nat} {page : EditorPage} :
    openEditor maxEditBytes (utf8 content) = .ok page ↔
      (utf8 content).length ≤ maxEditBytes ∧ 0 ∉ utf8 content ∧
        page = ⟨content, editorNewlineStyle content⟩ := by
  unfold openEditor readText
  rw [decodeUtf8_utf8]
  split_ifs with hlength hnul
  · simp [hlength.not_ge, bind, Except.bind]
  · simp [hnul, bind, Except.bind]
  · simp [Nat.le_of_not_lt hlength, hnul, bind, Except.bind, pure, Except.pure, eq_comm]

/-- **Line endings survive an edit.** A file whose lines all end the same way is opened as it is,
    if it can be edited at all; whatever line endings its lines or new ones are submitted with,
    they are saved with the file's own, so that the same lines are the same bytes. -/
theorem editor_round_trip (document edited : Document) (ending : LineEnding)
    (endings : Nat → LineEnding) :
    let text := document.text ending
    let page : EditorPage := ⟨text, editorNewlineStyle text⟩
    let saved := savedFile
      { content := some (edited.submitted endings), newline := some page.newlineStyle }
    (∀ maxEditBytes opened, openEditor maxEditBytes (utf8 text) = .ok opened ↔
      (utf8 text).length ≤ maxEditBytes ∧ 0 ∉ utf8 text ∧ opened = page) ∧
    saved = utf8 (edited.text (document.ownEnding ending)) ∧
      (edited.lines = document.lines → saved = utf8 text) := by
  intro text page saved
  refine ⟨fun _ _ => openEditor_utf8, ?_⟩
  have saved : savedFile ⟨some (edited.submitted endings),
      some (editorNewlineStyle (document.text ending))⟩ =
        utf8 (edited.text (document.ownEnding ending)) := by
    unfold savedFile
    rw [Option.getD_some, Option.getD_some, normalizeEditorNewlines_submitted,
      editorNewlineStyle_text]
    cases document.ownEnding ending with
    | lf => rfl
    | crlf => rfl
  refine ⟨saved, fun hlines => saved.trans ?_⟩
  have hsame : edited.text (document.ownEnding ending) =
      document.text (document.ownEnding ending) := by rw [Document.text, hlines, Document.text]
  rw [hsame, text_ownEnding]

/-! ## 5. Which contents these are -/

theorem Uniform.append_line (h : Uniform ending content) (plain : '\r' ∉ line ∧ '\n' ∉ line) :
    Uniform ending (line ++ content) := by
  induction line with
  | nil => exact h
  | cons c line ih =>
    obtain ⟨hr, hrs⟩ := List.ne_and_not_mem_of_not_mem_cons plain.1
    obtain ⟨hn, hns⟩ := List.ne_and_not_mem_of_not_mem_cons plain.2
    exact .char ⟨hr.symm, hn.symm⟩ (ih ⟨hrs, hns⟩)

theorem uniform_weave (plain : ∀ line ∈ lines, '\r' ∉ line ∧ '\n' ∉ line) :
    Uniform ending (weave (fun _ => ending.text) lines) := by
  induction lines with
  | nil => exact .nil
  | cons line lines ih =>
    obtain ⟨hline, hrest⟩ := List.forall_mem_cons.mp plain
    by_cases hlines : lines = []
    · subst hlines
      simpa [weave] using Uniform.nil.append_line hline
    · rw [weave_cons hlines, List.append_assoc]
      exact (Uniform.ending (ih hrest)).append_line hline

/-- **The contents with one line ending** are those that are lines joined by it. -/
theorem uniform_iff : Uniform ending content ↔ ∃ document : Document,
    document.text ending = content := by
  constructor
  · intro h
    induction h with
    | nil => exact ⟨⟨[[]], by simp, by simp⟩, rfl⟩
    | @char c content plain _ ih =>
      -- the character is put in front of the first line
      obtain ⟨⟨lines, nonempty, hlines⟩, rfl⟩ := ih
      cases lines with
      | nil => exact absurd rfl nonempty
      | cons line lines =>
        obtain ⟨hline, hrest⟩ := List.forall_mem_cons.mp hlines
        refine ⟨⟨(c :: line) :: lines, by simp, ?_⟩, ?_⟩
        · apply List.forall_mem_cons.mpr ⟨?_, hrest⟩
          simp [hline.1, hline.2, plain.1.symm, plain.2.symm]
        · cases lines with
          | nil => rfl
          | cons next lines => rfl
    | ending _ ih =>
      obtain ⟨⟨lines, nonempty, hlines⟩, rfl⟩ := ih
      refine ⟨⟨[] :: lines, by simp, ?_⟩, ?_⟩
      · exact List.forall_mem_cons.mpr ⟨by simp, hlines⟩
      · unfold Document.text
        rw [weave_cons nonempty]
        rfl
  · rintro ⟨document, rfl⟩
    exact uniform_weave document.plain

end Termroom.Files
