import Mathlib
import Termroom.Terminal.CommandRecords

/-!
# The windows that tmux lists

A listing has a line for each window, whose fields are separated by bars; the name of a window is
whatever its user likes, so that the fields in front of it are taken from the left and those behind
it from the right. Bars in a name do no harm, but `splitlines` also breaks at characters that tmux
prints as they are: **a listing is read back exactly where no name has one of them**
(`parseTmuxTerminalRecords_iff`).
-/

set_option autoImplicit false

namespace Termroom.Terminal

open Conc Data
open Store.Commands (CommandError)

/-! ## 1. The parser -/

/-- `str.isdigit` and `int`, of which only ASCII digits need to be known. -/
structure Digits where
  isdigit : Char → Bool
  int : List Char → Option Nat
  ascii_isdigit : ∀ c : Char, c.isDigit = true → isdigit c = true
  ascii_int : ∀ n, int (Nat.toDigits 10 n) = some n

structure TerminalRecord where
  tmuxWindow : List Char
  tmuxSession : Option (List Char)
  activityAt : Option Nat
  name : List Char
  role : List Char
  managedRunId : Option (List Char)
  deriving DecidableEq, Repr

/-- `text.partition("|")`. -/
def partitionBar (text : List Char) : List Char × Bool × List Char :=
  match text.dropWhile (· ≠ '|') with
  | [] => (text, false, [])
  | _ :: remainder => (text.takeWhile (· ≠ '|'), true, remainder)

/-- `text.rsplit("|", n)`. -/
def rsplitMax (n : Nat) (text : List Char) : List (List Char) :=
  ((splitMax '|' n text.reverse).map List.reverse).reverse

def invalidRecord : Except CommandError TerminalRecord :=
  .error (.value "tmux exposed an invalid Terminal record")

/-- The checks of a record, and the record. -/
def terminalRecord (tmuxSession : Option (List Char)) (window : List Char)
    (activityAt : Option Nat) (separators : Bool) (remainder : List Char) :
    Except CommandError TerminalRecord :=
  match rsplitMax 2 remainder with
  | [name, role, managedRunId] =>
    if ¬separators ∨ tmuxSession = some [] ∨ window.head? ≠ some '@' then invalidRecord
    else
      .ok {
        tmuxWindow := window, tmuxSession, activityAt
        name := if name = [] then "shell".toList else name
        role := if role = [] then "shell".toList else role
        managedRunId := if managedRunId = [] then none else some managedRunId }
  | _ => invalidRecord

variable (d : Digits)

def parseTerminalLine (line : List Char) : Except CommandError TerminalRecord :=
  let (first, separator, remainder) := partitionBar line
  if first.head? = some '@' then terminalRecord none first none separator remainder
  else
    let (window, windowSeparator, remainder) := partitionBar remainder
    let (activityRaw, activitySeparator, remainder) := partitionBar remainder
    if activityRaw = [] ∨ ¬activityRaw.all d.isdigit then invalidRecord
    else
      match d.int activityRaw with
      | none => .error (.value "invalid literal for int() with base 10")
      | some activityAt =>
        terminalRecord (some first) window (some activityAt)
          (separator && windowSeparator && activitySeparator) remainder

def parseTerminalLines : List (List Char) → Except CommandError (List TerminalRecord)
  | [] => .ok []
  | line :: lines => do
    if line = [] then parseTerminalLines lines
    else
      let record ← parseTerminalLine d line
      let records ← parseTerminalLines lines
      return record :: records

/-- `parse_tmux_terminal_records`. -/
def parseTmuxTerminalRecords (output : List Char) : Except CommandError (List TerminalRecord) :=
  parseTerminalLines d (output.splitOnP breaksLines)

/-! ## 2. The listing -/

/-- A window as tmux shows it: an option that is not set is empty. -/
structure ListedWindow where
  session : List Char
  window : Nat
  activity : Nat
  name : List Char
  role : List Char
  managedRunId : List Char
  session_ne : session ≠ []
  session_plain : '|' ∉ session ∧ session.head? ≠ some '@'
  name_ne : name ≠ []
  name_line : '\n' ∉ name
  role_plain : ∀ c ∈ role, Inline c
  managedRunId_plain : ∀ c ∈ managedRunId, Inline c

/-- `TMUX_TERMINAL_RECORD_FORMAT`. -/
def ListedWindow.line (w : ListedWindow) : List Char :=
  w.session ++ '|' :: windowText w.window ++ '|' :: Nat.toDigits 10 w.activity ++ '|' :: w.name ++
    '|' :: w.role ++ '|' :: w.managedRunId

/-- What `list-windows` prints, with every name as it is. -/
def windowListing (windows : List ListedWindow) : List Char :=
  windows.flatMap fun w => w.line ++ ['\n']

/-- The record of a window. -/
def ListedWindow.record (w : ListedWindow) : TerminalRecord where
  tmuxWindow := windowText w.window
  tmuxSession := some w.session
  activityAt := some w.activity
  name := w.name
  role := if w.role = [] then "shell".toList else w.role
  managedRunId := if w.managedRunId = [] then none else some w.managedRunId

/-- No name breaks its line. -/
def ListedWindow.Unbroken (w : ListedWindow) : Prop :=
  ∀ c ∈ w.session ++ w.name, breaksLines c = false

/-! ## 3. A line is read back -/

variable {d : Digits} {w : ListedWindow} {part rest text output : List Char} {c : Char} {n : Nat}

theorem partitionBar_part (h : '|' ∉ part) :
    partitionBar (part ++ '|' :: rest) = (part, true, rest) := by
  have differ : ∀ c ∈ part, decide (c ≠ '|') = true := by
    intro c hc
    exact decide_eq_true fun heq => h (heq ▸ hc)
  unfold partitionBar
  rw [List.dropWhile_append_of_pos differ, List.takeWhile_append_of_pos differ]
  simp

theorem rsplitMax_parts {name role managed : List Char} (hrole : '|' ∉ role)
    (hmanaged : '|' ∉ managed) :
    rsplitMax 2 (name ++ '|' :: role ++ '|' :: managed) = [name, role, managed] := by
  have hreverse : (name ++ '|' :: role ++ '|' :: managed).reverse =
      managed.reverse ++ '|' :: (role.reverse ++ '|' :: name.reverse) := by
    simp
  have hrole : '|' ∉ role.reverse := fun h => hrole (List.mem_reverse.mp h)
  have hmanaged : '|' ∉ managed.reverse := fun h => hmanaged (List.mem_reverse.mp h)
  unfold rsplitMax
  rw [hreverse, splitMax_part hmanaged, splitMax_part hrole]
  simp [splitMax]

theorem notMem_inline (h : ∀ c ∈ part, Inline c) : '|' ∉ part := fun hbar => (h _ hbar).1 rfl

/-- **A line is read back**, whatever the name is. -/
theorem parseTerminalLine_line : parseTerminalLine d w.line = .ok w.record := by
  have hwindow : '|' ∉ windowText w.window := by
    apply notMem_inline
    intro c hc
    rcases List.mem_cons.mp hc with rfl | hc
    · exact ⟨by decide, by decide⟩
    · exact inline_digits c hc
  have hactivity : '|' ∉ Nat.toDigits 10 w.activity := notMem_inline inline_digits
  have hdigits : (Nat.toDigits 10 w.activity).all d.isdigit = true := by
    rw [List.all_eq_true]
    intro c hc
    exact d.ascii_isdigit c (List.all_eq_true.mp all_digits c hc)
  have hline : w.line = w.session ++ '|' :: (windowText w.window ++ '|' ::
      (Nat.toDigits 10 w.activity ++ '|' ::
        (w.name ++ '|' :: w.role ++ '|' :: w.managedRunId))) := by
    simp [ListedWindow.line]
  have hvalid : ¬(¬(true && true && true) = true ∨ some w.session = some [] ∨
      (windowText w.window).head? ≠ some '@') := by
    rintro (h | h | h)
    · exact h rfl
    · exact w.session_ne (Option.some.inj h)
    · exact h rfl
  unfold parseTerminalLine
  rw [hline, partitionBar_part w.session_plain.1]
  dsimp only
  rw [if_neg w.session_plain.2, partitionBar_part hwindow]
  dsimp only
  rw [partitionBar_part hactivity]
  dsimp only
  rw [if_neg (by simp [hdigits]), d.ascii_int]
  dsimp only
  unfold terminalRecord
  rw [rsplitMax_parts (notMem_inline w.role_plain) (notMem_inline w.managedRunId_plain)]
  dsimp only
  rw [if_neg hvalid, if_neg w.name_ne]
  rfl

theorem line_unbroken (h : w.Unbroken) : ∀ c ∈ w.line, breaksLines c = false := by
  have hbar : breaksLines '|' = false := by decide
  have hwindow : ∀ c ∈ windowText w.window, breaksLines c = false := by
    intro c hc
    rcases List.mem_cons.mp hc with rfl | hc
    · decide
    · exact (inline_digits c hc).2
  intro c hc
  simp only [ListedWindow.line, List.mem_append, List.mem_cons] at hc
  rcases hc with ((((hc | rfl | hc) | rfl | hc) | rfl | hc) | rfl | hc) | rfl | hc
  · exact h c (List.mem_append_left _ hc)
  · exact hbar
  · exact hwindow c hc
  · exact hbar
  · exact (inline_digits c hc).2
  · exact hbar
  · exact h c (List.mem_append_right _ hc)
  · exact hbar
  · exact (w.role_plain c hc).2
  · exact hbar
  · exact (w.managedRunId_plain c hc).2

theorem parseTmuxTerminalRecords_listing {windows : List ListedWindow}
    (h : ∀ w ∈ windows, w.Unbroken) : parseTmuxTerminalRecords d (windowListing windows) =
      .ok (windows.map ListedWindow.record) := by
  unfold parseTmuxTerminalRecords
  induction windows with
  | nil => rfl
  | cons w windows ih =>
    obtain ⟨hw, hwindows⟩ := List.forall_mem_cons.mp h
    have here : windowListing (w :: windows) = w.line ++ '\n' :: windowListing windows := by
      unfold windowListing
      rw [List.flatMap_cons, List.append_assoc]
      rfl
    have nonempty : w.line ≠ [] := by
      unfold ListedWindow.line
      simp
    rw [here, List.splitOnP_append_cons_of_forall_mem (line_unbroken hw) '\n' (by decide)]
    unfold parseTerminalLines
    rw [if_neg nonempty, parseTerminalLine_line, ok_bind, ih hwindows]
    rfl

/-! ## 4. What is read comes from a line -/

theorem mem_splitMax (hpart : part ∈ splitMax '|' n text) (hc : c ∈ part) : c ∈ text := by
  induction n generalizing text with
  | zero =>
    rw [splitMax, List.mem_singleton] at hpart
    exact hpart ▸ hc
  | succ n ih =>
    unfold splitMax at hpart
    split at hpart
    · rw [List.mem_singleton] at hpart
      exact hpart ▸ hc
    · rename_i rest hrest
      rcases List.mem_cons.mp hpart with rfl | hpart
      · exact (List.takeWhile_sublist _).subset hc
      · have hmem := ih hpart
        have hsub : rest ⊆ text := by
          intro c hc
          exact (List.dropWhile_sublist _).subset (hrest ▸ List.mem_cons_of_mem _ hc)
        exact hsub hmem

theorem mem_rsplitMax (hpart : part ∈ rsplitMax n text) (hc : c ∈ part) : c ∈ text := by
  unfold rsplitMax at hpart
  obtain ⟨reversed, hreversed, rfl⟩ := List.mem_map.mp (List.mem_reverse.mp hpart)
  exact List.mem_reverse.mp (mem_splitMax hreversed (List.mem_reverse.mp hc))

theorem mem_partitionBar :
    (c ∈ (partitionBar text).1 → c ∈ text) ∧ (c ∈ (partitionBar text).2.2 → c ∈ text) := by
  unfold partitionBar
  split
  · exact ⟨id, fun h => by cases h⟩
  · rename_i rest hrest
    constructor
    · intro h
      exact (List.takeWhile_sublist _).subset h
    · intro h
      exact (List.dropWhile_sublist _).subset (hrest ▸ List.mem_cons_of_mem _ h)

/-- What a record has of a line: its session and its name, unless the name is empty. -/
def Within (text : List Char) (record : TerminalRecord) : Prop :=
  (∀ session, record.tmuxSession = some session → session ⊆ text) ∧
    (record.name = "shell".toList ∨ record.name ⊆ text)

theorem terminalRecord_ok {session : Option (List Char)} {window : List Char}
    {activity : Option Nat} {separators : Bool} {record : TerminalRecord}
    (h : terminalRecord session window activity separators rest = .ok record) :
    record.tmuxSession = session ∧ (record.name = "shell".toList ∨ record.name ⊆ rest) := by
  unfold terminalRecord at h
  split at h
  · rename_i name role managed hparts
    by_cases hinvalid : ¬separators = true ∨ session = some [] ∨ window.head? ≠ some '@'
    · rw [if_pos hinvalid] at h
      cases h
    · rw [if_neg hinvalid] at h
      obtain rfl := Except.ok.inj h
      refine ⟨rfl, ?_⟩
      dsimp only
      split_ifs with hname
      · exact .inl rfl
      · have hmem : name ∈ rsplitMax 2 rest := by
          rw [hparts]
          exact List.mem_cons_self
        exact .inr fun c hc => mem_rsplitMax hmem hc
  · cases h

theorem parseTerminalLine_within {record : TerminalRecord}
    (h : parseTerminalLine d text = .ok record) : Within text record := by
  unfold parseTerminalLine at h
  dsimp only at h
  split_ifs at h with hlegacy hactivity
  · obtain ⟨hsession, hname⟩ := terminalRecord_ok h
    refine ⟨fun session hsome => ?_, hname.imp_right fun hsub c hc => mem_partitionBar.2 (hsub hc)⟩
    rw [hsession] at hsome
    cases hsome
  · cases h
  · split at h
    · cases h
    · obtain ⟨hsession, hname⟩ := terminalRecord_ok h
      refine ⟨fun session hsome => ?_, hname.imp_right fun hsub c hc => ?_⟩
      · rw [hsession] at hsome
        obtain rfl := Option.some.inj hsome
        exact fun c hc => mem_partitionBar.1 hc
      · exact mem_partitionBar.2 (mem_partitionBar.2 (mem_partitionBar.2 (hsub hc)))

theorem parseTerminalLines_within {lines : List (List Char)} {records : List TerminalRecord}
    (h : parseTerminalLines d lines = .ok records) :
    ∀ record ∈ records, ∃ line ∈ lines, Within line record := by
  induction lines generalizing records with
  | nil =>
    obtain rfl := Except.ok.inj h
    simp
  | cons line lines ih =>
    unfold parseTerminalLines at h
    split_ifs at h with hempty
    · intro record hrecord
      obtain ⟨line', hline', hwithin⟩ := ih h record hrecord
      exact ⟨line', List.mem_cons_of_mem _ hline', hwithin⟩
    · obtain ⟨first, hfirst, h⟩ := bind_eq_ok.mp h
      obtain ⟨later, hlater, h⟩ := bind_eq_ok.mp h
      obtain rfl := Except.ok.inj h
      intro record hrecord
      rcases List.mem_cons.mp hrecord with rfl | hrecord
      · exact ⟨line, List.mem_cons_self, parseTerminalLine_within hfirst⟩
      · obtain ⟨line', hline', hwithin⟩ := ih hlater record hrecord
        exact ⟨line', List.mem_cons_of_mem _ hline', hwithin⟩

theorem notBreaks_of_mem {line : List Char} (hline : line ∈ text.splitOnP breaksLines)
    (hc : c ∈ line) : breaksLines c = false := by
  induction text generalizing line with
  | nil =>
    rw [List.splitOnP_nil, List.mem_singleton] at hline
    rw [hline] at hc
    cases hc
  | cons a text ih =>
    rw [List.splitOnP_cons_eq_if_modifyHead] at hline
    split_ifs at hline with ha
    · rcases List.mem_cons.mp hline with rfl | hline
      · cases hc
      · exact ih hline hc
    · cases hsplit : text.splitOnP breaksLines with
      | nil => exact absurd hsplit (List.splitOnP_ne_nil _ _)
      | cons head tail =>
        rw [hsplit, List.modifyHead_cons] at hline
        rcases List.mem_cons.mp hline with rfl | hline
        · rcases List.mem_cons.mp hc with rfl | hc
          · exact Bool.eq_false_iff.mpr ha
          · exact ih (hsplit ▸ List.mem_cons_self) hc
        · exact ih (hsplit ▸ List.mem_cons_of_mem _ hline) hc

theorem unbroken_of_parse {windows : List ListedWindow}
    (h : parseTmuxTerminalRecords d (windowListing windows) =
      .ok (windows.map ListedWindow.record)) : ∀ w ∈ windows, w.Unbroken := by
  intro w hw c hc
  obtain ⟨line, hline, hwithin⟩ := parseTerminalLines_within h w.record (List.mem_map_of_mem hw)
  rcases List.mem_append.mp hc with hc | hc
  · exact notBreaks_of_mem hline (hwithin.1 w.session rfl hc)
  · rcases hwithin.2 with hshell | hname
    · have hname : w.name = "shell".toList := hshell
      rw [hname] at hc
      have hplain : "shell".toList.all (fun c => breaksLines c = false) = true := by
        decide +kernel
      exact of_decide_eq_true (List.all_eq_true.mp hplain c hc)
    · exact notBreaks_of_mem hline (hname hc)

/-- **A listing is read back** exactly where no name and no session name has a character at which
    `splitlines` breaks. -/
theorem parseTmuxTerminalRecords_iff (d : Digits) (windows : List ListedWindow) :
    parseTmuxTerminalRecords d (windowListing windows) = .ok (windows.map ListedWindow.record) ↔
      ∀ w ∈ windows, ∀ c ∈ w.session ++ w.name, breaksLines c = false :=
  ⟨unbroken_of_parse, parseTmuxTerminalRecords_listing⟩

def Digits.ascii : Digits where
  isdigit := Char.isDigit
  int text := some (digitsValue text)
  ascii_isdigit _ h := h
  ascii_int _ := congrArg some digitsValue_toDigits

/-- A window whose name has a Unicode line separator. -/
def separatedWindow : ListedWindow where
  session := "tr-project-a1b2".toList
  window := 7
  activity := 1700000123
  name := ['a', '\u2028', 'b']
  role := []
  managedRunId := []
  session_ne := by decide
  session_plain := by decide
  name_ne := by decide
  name_line := by decide
  role_plain := by simp
  managedRunId_plain := by simp

/-- The listing of this window is refused, and not read back. -/
theorem separatedWindow_refused :
    ¬∀ windows : List ListedWindow, parseTmuxTerminalRecords .ascii (windowListing windows) =
      .ok (windows.map ListedWindow.record) := by
  intro claim
  have refused : parseTmuxTerminalRecords .ascii (windowListing [separatedWindow]) =
      .error (.value "tmux exposed an invalid Terminal record") := by rfl
  rw [claim] at refused
  cases refused

end Termroom.Terminal
