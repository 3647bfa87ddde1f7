import Mathlib
import Termroom.Archive.Manifest
import Termroom.Data.TopK

/-!
# The recent files of a Workspace

`recent_files` goes through the directories of a Workspace and keeps the files that were changed
last in a bounded heap. In whatever order a directory is listed, it returns the greatest of the
files that it scanned by their time and path (`recentFiles_exact`), and these are all of them
within the limits of the scan.

The directories are a tree that does not change during the scan. Each is the list of its entries in
the order in which they are scanned, up to an error of the listing or of `Path.is_symlink`.
-/

set_option autoImplicit false

namespace Termroom.Files

open Data Archive

/-! ## 1. A tree -/

inductive Item where
  | file (size : Nat) (mtimeNs : Int)
  | directory (items : List (Text × Item))
  /-- A link, and whether it leads into an excluded path. -/
  | symlink (excluded : Bool)
  | special
  /-- An entry that is gone when it is looked at. -/
  | unreadable

abbrev Items := List (Text × Item)

mutual

/-- The names of a directory are distinct, and no path. -/
def Item.WellNamed : Item → Prop
  | .directory items => (items.map Prod.fst).Nodup ∧ wellNamed items
  | _ => True

def wellNamed : Items → Prop
  | [] => True
  | (name, item) :: items => '/' ∉ name ∧ item.WellNamed ∧ wellNamed items

end

/-- The entries of a Workspace. -/
structure Workspace where
  items : Items
  well : (Item.directory items).WellNamed

/-- A file, and one of the same name in a directory. -/
example : Workspace where
  items := [(['a'], .file 2 7), (['b'], .directory [(['a'], .file 1 5)])]
  well := by simp [Item.WellNamed, wellNamed]

structure FileEntry where
  name : Text
  relativePath : Text
  isDir : Bool
  size : Nat
  mtimeNs : Int
  deriving DecidableEq, Repr

structure RecentFiles where
  entries : List FileEntry
  scannedFiles : Nat
  truncated : Bool
  deriving DecidableEq, Repr

/-- `key[:2]`: tuples are compared by their first components first. -/
def recentKey (entry : FileEntry) : ℤ ×ₗ Text := toLex (entry.mtimeNs, entry.relativePath)

/-! ## 2. What is left out -/

def DEFAULT_FILE_BROWSER_NOISE : List Text :=
  [".git", ".hg", ".svn", ".venv", "venv", "node_modules", "__pycache__", ".pytest_cache",
    ".ruff_cache", ".mypy_cache", ".cache", ".tox", ".termroom-state"].map String.toList

def DEFAULT_RECENT_EXCLUDES : List Text := DEFAULT_FILE_BROWSER_NOISE ++
  [".env", ".env.local", ".env.development", ".env.production", ".env.test"].map String.toList

def RECENT_IGNORE_FILE : Text := ".termroomignore".toList

/-- `value.removeprefix("./")`. -/
def removeDot (value : Text) : Text :=
  if "./".toList.isPrefixOf value then value.drop 2 else value

/-- `value.strip("/")`. -/
def stripSlashes (value : Text) : Text :=
  ((value.dropWhile (· = '/')).reverse.dropWhile (· = '/')).reverse

/-- `_normalize_excluded_paths`. -/
def normalizeExcludedPaths (excludedPaths : List Text) : List Text :=
  (excludedPaths.filter fun value => value ≠ [] ∧ value ≠ ['.']).map fun value =>
    stripSlashes (removeDot value)

/-- `_file_path_is_excluded`. -/
def filePathIsExcluded (relativePath : Text) (excludedPaths : List Text) : Bool :=
  excludedPaths.any fun excluded =>
    relativePath = excluded || (excluded ++ ['/']).isPrefixOf relativePath

/-- `_entry_is_excluded`. -/
def entryIsExcluded (item : Item) (relativePath : Text) (excludedPaths : List Text) : Bool :=
  filePathIsExcluded relativePath excludedPaths ||
    match item with
    | .symlink excluded => excluded
    | _ => false

/-- `recent_path_ignored`, for any meaning of the patterns. -/
def recentPathIgnored (fnmatch : Text → Text → Bool) (relativePath : Text) (patterns : List Text) :
    Bool :=
  let path := removeDot relativePath
  let name := (splitPath path).getLastD []
  patterns.any fun pattern => fnmatch path pattern || fnmatch name pattern

/-! ## 3. The scan -/

/-- What a call goes by; `late` is whether the clock is past the deadline at each look at it. -/
structure RecentCall where
  fnmatch : Text → Text → Bool
  late : Nat → Bool
  patterns : List Text
  excludes : List Text
  excludedPaths : List Text
  wanted : Nat
  scanLimit : Nat

/-- The variables of the loop; the last of `pending` comes first, and of the files that were
    scanned the code keeps the number. -/
structure RecentScan where
  pending : List (List Text × Items)
  heap : List FileEntry
  scanned : List FileEntry
  truncated : Bool
  looks : Nat

variable (call : RecentCall)

/-- `scanned >= scan_limit or monotonic() >= deadline`. -/
def RecentScan.exhausted (s : RecentScan) : Bool :=
  call.scanLimit ≤ s.scanned.length || call.late s.looks

/-- The clock is only looked at where the limit is not reached. -/
def RecentScan.looked (s : RecentScan) : RecentScan :=
  if call.scanLimit ≤ s.scanned.length then s else { s with looks := s.looks + 1 }

def RecentScan.record (s : RecentScan) (entry : FileEntry) : RecentScan :=
  { s with
    scanned := entry :: s.scanned
    heap := TopK.offer recentKey call.wanted s.heap entry }

/-- The `try` of the loop. -/
def RecentScan.visit (s : RecentScan) (directory : List Text) (name : Text) (item : Item) :
    RecentScan :=
  let relative := joinPath (directory ++ [name])
  match item with
  | .symlink _ | .special | .unreadable => s
  | .directory items =>
    if recentPathIgnored call.fnmatch relative call.patterns then s
    else if ['.'].isPrefixOf name then s
    else { s with pending := (directory ++ [name], items) :: s.pending }
  | .file size mtimeNs =>
    if recentPathIgnored call.fnmatch relative call.patterns then s
    else s.record call { name, relativePath := relative, isDir := false, size, mtimeNs }

/-- The `for` over the entries of a directory. -/
def scanDirectory (directory : List Text) : Items → RecentScan → RecentScan
  | [], s => s
  | (name, item) :: items, s =>
    if name ∈ call.excludes ∨ name = RECENT_IGNORE_FILE then scanDirectory directory items s
    else if entryIsExcluded item (joinPath (directory ++ [name])) call.excludedPaths then
      scanDirectory directory items s
    else if s.exhausted call then { s.looked call with truncated := true }
    else scanDirectory directory items ((s.looked call).visit call directory name item)

mutual

/-- How many directories there are in an entry, and in a directory with itself. -/
def Item.weight : Item → Nat
  | .directory items => itemsWeight items
  | _ => 0

def itemsWeight : Items → Nat
  | [] => 1
  | (_, item) :: items => item.weight + itemsWeight items

end

/-- The directories that are pending, whose number the scan of one lowers. -/
def weight (pending : List (List Text × Items)) : Nat := (pending.map fun d => itemsWeight d.2).sum

variable {call : RecentCall} {s : RecentScan} {directory : List Text} {name : Text} {item : Item}
  {items : Items}

@[simp]
theorem looked_pending : (s.looked call).pending = s.pending := by
  unfold RecentScan.looked
  split_ifs <;> rfl

@[simp]
theorem looked_heap : (s.looked call).heap = s.heap := by
  unfold RecentScan.looked
  split_ifs <;> rfl

@[simp]
theorem looked_scanned : (s.looked call).scanned = s.scanned := by
  unfold RecentScan.looked
  split_ifs <;> rfl

@[simp]
theorem looked_truncated : (s.looked call).truncated = s.truncated := by
  unfold RecentScan.looked
  split_ifs <;> rfl

theorem weight_visit :
    weight (s.visit call directory name item).pending ≤ weight s.pending + item.weight := by
  unfold RecentScan.visit
  cases item with
  | directory items =>
    dsimp only
    split_ifs
    · omega
    · omega
    · simp only [weight, List.map_cons, List.sum_cons, Item.weight]
      omega
  | file size mtimeNs =>
    dsimp only
    split_ifs
    · omega
    · exact Nat.le_add_right _ _
  | symlink | special | unreadable => exact Nat.le_add_right _ _

theorem itemsWeight_pos (items : Items) : 0 < itemsWeight items := by
  induction items with
  | nil => exact Nat.zero_lt_one
  | cons entry items ih =>
    rw [itemsWeight]
    omega

theorem weight_scanDirectory : weight (scanDirectory call directory items s).pending <
    weight s.pending + itemsWeight items := by
  induction items generalizing s with
  | nil => exact Nat.lt_succ_self _
  | cons entry items ih =>
    obtain ⟨name, item⟩ := entry
    unfold scanDirectory
    rw [itemsWeight]
    split_ifs
    · have := @ih s
      omega
    · have := @ih s
      omega
    · have := itemsWeight_pos items
      dsimp only
      rw [looked_pending]
      omega
    · have := @ih ((s.looked call).visit call directory name item)
      have hvisit := @weight_visit call (s.looked call) directory name item
      rw [looked_pending] at hvisit
      omega

/-- The `while` over the directories that are pending. -/
def scanPending (call : RecentCall) (s : RecentScan) : RecentScan :=
  match _h : s.pending with
  | [] => s
  | (directory, items) :: pending =>
    if s.exhausted call then { s.looked call with truncated := true }
    else scanPending call (scanDirectory call directory items { s.looked call with pending })
termination_by weight s.pending
decreasing_by
  have := @weight_scanDirectory call { s.looked call with pending } directory items
  simp only [_h, weight, List.map_cons, List.sum_cons] at this ⊢
  omega

def recentCall (fnmatch : Text → Text → Bool) (late : Nat → Bool) (patterns : List Text)
    (limit maxFiles : Int) (excludes excludedPaths : List Text) : RecentCall :=
  let wanted := (max 1 (min limit 200)).toNat
  { fnmatch, late, patterns, excludes
    excludedPaths := normalizeExcludedPaths excludedPaths
    wanted, scanLimit := (max (wanted : Int) (min maxFiles 100000)).toNat }

/-- What the loop leaves. -/
def recentScan (call : RecentCall) (workspace : Workspace) : RecentScan :=
  scanPending call ⟨[([], workspace.items)], [], [], false, 0⟩

/-- `recent_files`. -/
def recentFiles (fnmatch : Text → Text → Bool) (late : Nat → Bool) (patterns : List Text)
    (workspace : Workspace) (limit : Int := 50) (maxFiles : Int := 10000)
    (excludes : List Text := DEFAULT_RECENT_EXCLUDES) (excludedPaths : List Text := []) :
    RecentFiles :=
  let call := recentCall fnmatch late patterns limit maxFiles excludes excludedPaths
  let s := recentScan call workspace
  { entries := s.heap.mergeSort fun a b => recentKey b ≤ recentKey a
    scannedFiles := s.scanned.length, truncated := s.truncated }

/-! ## 4. The files of a Workspace -/

/-- An entry is not looked at. -/
def Hidden (call : RecentCall) (directory : List Text) (name : Text) (item : Item) : Prop :=
  name ∈ call.excludes ∨ name = RECENT_IGNORE_FILE ∨
    entryIsExcluded item (joinPath (directory ++ [name])) call.excludedPaths = true ∨
    recentPathIgnored call.fnmatch (joinPath (directory ++ [name])) call.patterns = true

instance : Decidable (Hidden call directory name item) := inferInstanceAs (Decidable (_ ∨ _))

mutual

/-- The files of an entry that is not hidden. -/
def Item.files (call : RecentCall) (directory : List Text) (name : Text) : Item → List FileEntry
  | .file size mtimeNs =>
    [{ name, relativePath := joinPath (directory ++ [name]), isDir := false, size, mtimeNs }]
  | .directory items =>
    if ['.'].isPrefixOf name then [] else filesOf call (directory ++ [name]) items
  | _ => []

/-- **The files of a directory**, less what is hidden. -/
def filesOf (call : RecentCall) (directory : List Text) : Items → List FileEntry
  | [] => []
  | (name, item) :: items =>
    (if Hidden call directory name item then [] else item.files call directory name) ++
      filesOf call directory items

end

/-! ## 5. What is scanned -/

/-- The files that were scanned or still are to be. -/
def RecentScan.account (call : RecentCall) (s : RecentScan) : List FileEntry :=
  s.scanned ++ s.pending.flatMap fun d => filesOf call d.1 d.2

@[simp]
theorem looked_account : (s.looked call).account call = s.account call := by
  simp [RecentScan.account]

/-- What a visit adds: the file, or the files of the directory for later. -/
theorem visit_account (hname : ¬(name ∈ call.excludes ∨ name = RECENT_IGNORE_FILE))
    (hpath : ¬entryIsExcluded item (joinPath (directory ++ [name])) call.excludedPaths = true) :
    ((s.visit call directory name item).account call).Perm (s.account call ++
      if Hidden call directory name item then [] else item.files call directory name) := by
  have hhidden : Hidden call directory name item ↔
      recentPathIgnored call.fnmatch (joinPath (directory ++ [name])) call.patterns = true := by
    rw [not_or] at hname
    simp [Hidden, hname.1, hname.2, hpath]
  unfold RecentScan.visit
  cases item with
  | file size mtimeNs =>
    simp only [hhidden, Item.files]
    split_ifs with hignored
    · rw [List.append_nil]
    · unfold RecentScan.account RecentScan.record
      exact List.perm_append_singleton _ _ |>.symm
  | directory items =>
    simp only [hhidden, Item.files]
    split_ifs with hignored hdot
    · rw [List.append_nil]
    · rw [List.append_nil]
    · unfold RecentScan.account
      rw [List.flatMap_cons, List.append_assoc]
      exact List.Perm.append_left _ List.perm_append_comm
  | symlink | special | unreadable =>
    simp only [Item.files, ite_self, List.append_nil]
    exact .refl _

theorem scanDirectory_account : ∃ missed,
    ((scanDirectory call directory items s).account call ++ missed).Perm
      (s.account call ++ filesOf call directory items) ∧
    ((scanDirectory call directory items s).truncated = false → missed = []) := by
  induction items generalizing s with
  | nil => exact ⟨[], .refl _, fun _ => rfl⟩
  | cons entry items ih =>
    obtain ⟨name, item⟩ := entry
    unfold scanDirectory
    split_ifs with hname hpath hexhausted
    · have hhidden : Hidden call directory name item := by
        rcases hname with h | h
        · exact .inl h
        · exact .inr (.inl h)
      rw [filesOf, if_pos hhidden]
      exact ih
    · have hhidden : Hidden call directory name item := .inr (.inr (.inl hpath))
      rw [filesOf, if_pos hhidden]
      exact ih
    · refine ⟨filesOf call directory ((name, item) :: items), ?_, fun h => absurd h (by simp)⟩
      have haccount := @looked_account call s
      exact .of_eq (congrArg (· ++ _) haccount)
    · obtain ⟨missed, hperm, hmissed⟩ :=
        @ih ((s.looked call).visit call directory name item)
      have hvisit := @visit_account call (s.looked call) directory name item hname hpath
      rw [looked_account] at hvisit
      refine ⟨missed, hperm.trans ?_, hmissed⟩
      rw [filesOf, ← List.append_assoc]
      exact hvisit.append_right _

theorem truncated_visit :
    (s.visit call directory name item).truncated = s.truncated := by
  unfold RecentScan.visit
  cases item with
  | file size mtimeNs =>
    dsimp only
    split_ifs <;> rfl
  | directory items =>
    dsimp only
    split_ifs <;> rfl
  | symlink | special | unreadable => rfl

theorem truncated_scanDirectory (h : s.truncated = true) :
    (scanDirectory call directory items s).truncated = true := by
  induction items generalizing s with
  | nil => exact h
  | cons entry items ih =>
    obtain ⟨name, item⟩ := entry
    unfold scanDirectory
    split_ifs
    · exact ih h
    · exact ih h
    · rfl
    · apply ih
      rw [truncated_visit, looked_truncated]
      exact h

theorem scanPending_cons {pending : List (List Text × Items)}
    (h : s.pending = (directory, items) :: pending) : scanPending call s =
      if s.exhausted call then { s.looked call with truncated := true }
      else
        scanPending call (scanDirectory call directory items { s.looked call with pending }) := by
  rw [scanPending]
  split
  · rename_i hnil
    rw [h] at hnil
    cases hnil
  · rename_i hcons
    rw [h] at hcons
    cases hcons
    rfl

theorem scanPending_nil (h : s.pending = []) : scanPending call s = s := by
  rw [scanPending]
  split
  · rfl
  · rename_i hcons
    rw [h] at hcons
    cases hcons

theorem truncated_scanPending (h : s.truncated = true) :
    (scanPending call s).truncated = true := by
  induction s using scanPending.induct call with
  | case1 s hpending =>
    rw [scanPending_nil hpending]
    exact h
  | case2 s directory items pending hpending hexhausted =>
    rw [scanPending_cons hpending, if_pos hexhausted]
  | case3 s directory items pending hpending hexhausted ih =>
    rw [scanPending_cons hpending, if_neg hexhausted]
    apply ih
    apply truncated_scanDirectory
    rw [← h]
    exact looked_truncated

theorem account_cons {pending : List (List Text × Items)}
    (h : s.pending = (directory, items) :: pending) : (s.account call).Perm
      (RecentScan.account call { s.looked call with pending } ++ filesOf call directory items) := by
  unfold RecentScan.account
  rw [h, List.flatMap_cons, looked_scanned, List.append_assoc]
  exact List.Perm.append_left _ List.perm_append_comm

/-- **Everything is scanned**, or the scan was cut short. -/
theorem scanPending_account : ∃ missed,
    ((scanPending call s).scanned ++ missed).Perm (s.account call) ∧
      ((scanPending call s).truncated = false → missed = []) := by
  induction s using scanPending.induct call with
  | case1 s hpending =>
    rw [scanPending_nil hpending]
    refine ⟨[], ?_, fun _ => rfl⟩
    rw [RecentScan.account, hpending]
    exact .refl _
  | case2 s directory items pending hpending hexhausted =>
    rw [scanPending_cons hpending, if_pos hexhausted]
    refine ⟨s.pending.flatMap fun d => filesOf call d.1 d.2, ?_, fun h => absurd h (by simp)⟩
    dsimp only
    rw [looked_scanned]
    exact .refl _
  | case3 s directory items pending hpending hexhausted ih =>
    rw [scanPending_cons hpending, if_neg hexhausted]
    obtain ⟨missed, hperm, hmissed⟩ := ih
    obtain ⟨skipped, hscan, hskipped⟩ :=
      @scanDirectory_account call { s.looked call with pending } directory items
    refine ⟨missed ++ skipped, ?_, ?_⟩
    · rw [← List.append_assoc]
      exact (hperm.append_right _).trans (hscan.trans (account_cons hpending).symm)
    · intro h
      have huncut : (scanDirectory call directory items { s.looked call with pending }).truncated =
          false := by
        by_contra hcut
        rw [truncated_scanPending (Bool.eq_true_of_not_eq_false hcut)] at h
        cases h
      rw [hmissed h, hskipped huncut]
      rfl

/-- The heap is that of the files that were scanned. -/
def RecentScan.Kept (call : RecentCall) (s : RecentScan) : Prop :=
  s.heap = TopK.best recentKey call.wanted s.scanned

theorem RecentScan.Kept.looked (h : s.Kept call) : (s.looked call).Kept call := by
  unfold RecentScan.Kept
  rw [looked_heap, looked_scanned]
  exact h

theorem RecentScan.Kept.visit (h : s.Kept call) :
    (s.visit call directory name item).Kept call := by
  unfold RecentScan.visit
  cases item with
  | file size mtimeNs =>
    dsimp only
    split_ifs
    · exact h
    · exact congrArg (fun heap => TopK.offer recentKey call.wanted heap _) h
  | directory items =>
    dsimp only
    split_ifs
    · exact h
    · exact h
    · exact h
  | symlink | special | unreadable => exact h

theorem RecentScan.Kept.scanDirectory (h : s.Kept call) :
    (scanDirectory call directory items s).Kept call := by
  induction items generalizing s with
  | nil => exact h
  | cons entry items ih =>
    obtain ⟨name, item⟩ := entry
    unfold Files.scanDirectory
    split_ifs
    · exact ih h
    · exact ih h
    · exact h.looked
    · exact ih h.looked.visit

theorem RecentScan.Kept.scanPending (h : s.Kept call) : (scanPending call s).Kept call := by
  induction s using scanPending.induct call with
  | case1 s hpending =>
    rw [scanPending_nil hpending]
    exact h
  | case2 s directory items pending hpending hexhausted =>
    rw [scanPending_cons hpending, if_pos hexhausted]
    exact h.looked
  | case3 s directory items pending hpending hexhausted ih =>
    rw [scanPending_cons hpending, if_neg hexhausted]
    exact ih (RecentScan.Kept.scanDirectory h.looked)

/-! ## 6. Within the limits -/

theorem not_exhausted (hlate : ∀ n, call.late n = false)
    (hlimit : (s.account call).length < call.scanLimit) : ¬s.exhausted call = true := by
  rw [RecentScan.account, List.length_append] at hlimit
  have hscanned : ¬call.scanLimit ≤ s.scanned.length := by omega
  simp [RecentScan.exhausted, hlate, hscanned]

theorem uncut_scanDirectory (hlate : ∀ n, call.late n = false)
    (hlimit : (s.account call ++ filesOf call directory items).length < call.scanLimit) :
    (scanDirectory call directory items s).truncated = s.truncated := by
  induction items generalizing s with
  | nil => rfl
  | cons entry items ih =>
    obtain ⟨name, item⟩ := entry
    rw [filesOf, List.length_append, List.length_append] at hlimit
    unfold scanDirectory
    split_ifs with hname hpath hexhausted
    · apply ih
      rw [List.length_append]
      omega
    · apply ih
      rw [List.length_append]
      omega
    · exact absurd hexhausted (not_exhausted hlate (by omega))
    · have hvisit := (@visit_account call (s.looked call) directory name item hname hpath).length_eq
      rw [looked_account, List.length_append] at hvisit
      rw [ih]
      · rw [truncated_visit, looked_truncated]
      · rw [List.length_append, hvisit]
        omega

theorem uncut_scanPending (hlate : ∀ n, call.late n = false)
    (hlimit : (s.account call).length < call.scanLimit) :
    (scanPending call s).truncated = s.truncated := by
  induction s using scanPending.induct call with
  | case1 s hpending => rw [scanPending_nil hpending]
  | case2 s directory items pending hpending hexhausted =>
    exact absurd hexhausted (not_exhausted hlate hlimit)
  | case3 s directory items pending hpending hexhausted ih =>
    rw [scanPending_cons hpending, if_neg hexhausted]
    rw [(account_cons hpending).length_eq] at hlimit
    have huncut := uncut_scanDirectory hlate hlimit
    rw [ih]
    · exact huncut.trans looked_truncated
    · obtain ⟨missed, hperm, -⟩ :=
        @scanDirectory_account call { s.looked call with pending } directory items
      have := hperm.length_eq
      rw [List.length_append] at this
      omega

/-! ## 7. Paths -/

/-- A path below an entry of a directory. -/
def Below (directory : List Text) (name relative : Text) : Prop :=
  ∃ more : List Text, relative = joinPath (directory ++ name :: more) ∧ ∀ part ∈ more, '/' ∉ part

mutual

theorem Item.files_below {directory : List Text} {name : Text} : ∀ {item : Item},
    item.WellNamed → ∀ entry ∈ item.files call directory name,
      Below directory name entry.relativePath
  | .file size mtimeNs, _, entry, h => by
    rw [Item.files, List.mem_singleton] at h
    exact ⟨[], h ▸ rfl, by simp⟩
  | .directory items, well, entry, h => by
    rw [Item.files] at h
    split_ifs at h
    · cases h
    · obtain ⟨child, hchild, hslash, more, hpath, hmore⟩ := filesOf_below well.2 entry h
      refine ⟨child :: more, ?_, ?_⟩
      · rw [hpath, List.append_assoc]
        rfl
      · exact List.forall_mem_cons.mpr ⟨hslash, hmore⟩
  | .symlink _, _, entry, h => by cases h
  | .special, _, entry, h => by cases h
  | .unreadable, _, entry, h => by cases h

theorem filesOf_below {directory : List Text} : ∀ {items : Items}, wellNamed items →
    ∀ entry ∈ filesOf call directory items,
      ∃ child ∈ items.map Prod.fst, '/' ∉ child ∧ Below directory child entry.relativePath
  | [], _, entry, h => by cases h
  | (name, item) :: items, well, entry, h => by
    obtain ⟨hname, hitem, hitems⟩ := well
    rw [filesOf] at h
    rcases List.mem_append.mp h with h | h
    · split_ifs at h
      · cases h
      · exact ⟨name, List.mem_cons_self, hname, Item.files_below hitem entry h⟩
    · obtain ⟨child, hchild, below⟩ := filesOf_below hitems entry h
      exact ⟨child, List.mem_cons_of_mem _ hchild, below⟩

end

/-- A path lies below one entry of a directory only. -/
theorem Below.unique {relative other : Text} (hdirectory : ∀ part ∈ directory, '/' ∉ part)
    (hname : '/' ∉ name) (hother : '/' ∉ other) (h : Below directory name relative)
    (h' : Below directory other relative) : name = other := by
  obtain ⟨more, hpath, hmore⟩ := h
  obtain ⟨more', hpath', hmore'⟩ := h'
  have slashless (n : Text) (rest : List Text) (hn : '/' ∉ n) (hrest : ∀ part ∈ rest, '/' ∉ part) :
      splitPath (joinPath (directory ++ n :: rest)) = directory ++ n :: rest := by
    apply splitPath_join
    · intro part hpart
      rcases List.mem_append.mp hpart with h | h
      · exact hdirectory part h
      · rcases List.mem_cons.mp h with rfl | h
        · exact hn
        · exact hrest part h
    · simp
  have heq : directory ++ name :: more = directory ++ other :: more' := by
    rw [← slashless name more hname hmore, ← slashless other more' hother hmore', ← hpath, hpath']
  exact (List.cons.inj (List.append_cancel_left heq)).1

mutual

theorem Item.files_nodup {directory : List Text} {name : Text}
    (hdirectory : ∀ part ∈ directory ++ [name], '/' ∉ part) : ∀ {item : Item}, item.WellNamed →
      ((item.files call directory name).map FileEntry.relativePath).Nodup
  | .file size mtimeNs, _ => List.nodup_singleton _
  | .directory items, well => by
    rw [Item.files]
    split_ifs
    · exact List.nodup_nil
    · exact filesOf_nodup hdirectory well.1 well.2
  | .symlink _, _ => List.nodup_nil
  | .special, _ => List.nodup_nil
  | .unreadable, _ => List.nodup_nil

theorem filesOf_nodup {directory : List Text} (hdirectory : ∀ part ∈ directory, '/' ∉ part) :
    ∀ {items : Items}, (items.map Prod.fst).Nodup → wellNamed items →
      ((filesOf call directory items).map FileEntry.relativePath).Nodup
  | [], _, _ => List.nodup_nil
  | (name, item) :: items, names, well => by
    obtain ⟨hname, hitem, hitems⟩ := well
    obtain ⟨hfresh, hnames⟩ := List.nodup_cons.mp names
    rw [filesOf]
    split_ifs
    · exact filesOf_nodup hdirectory hnames hitems
    · rw [List.map_append, List.nodup_append]
      refine ⟨Item.files_nodup ?_ hitem, filesOf_nodup hdirectory hnames hitems, ?_⟩
      · intro part hpart
        rcases List.mem_append.mp hpart with h | h
        · exact hdirectory part h
        · rw [List.mem_singleton.mp h]
          exact hname
      · intro path hpath other hother heq
        subst heq
        obtain ⟨entry, hentry, rfl⟩ := List.mem_map.mp hpath
        obtain ⟨entry', hentry', hsame⟩ := List.mem_map.mp hother
        obtain ⟨child, hchild, hslash, below⟩ := filesOf_below hitems entry' hentry'
        rw [hsame] at below
        have := (Item.files_below hitem entry hentry).unique hdirectory hname hslash below
        exact hfresh (this ▸ hchild)

end

/-! ## 8. The recent files -/

/-- The files of a Workspace. -/
def Workspace.files (workspace : Workspace) (call : RecentCall) : List FileEntry :=
  filesOf call [] workspace.items

theorem recentScan_account (workspace : Workspace) : ∃ missed,
    ((recentScan call workspace).scanned ++ missed).Perm (workspace.files call) ∧
      ((recentScan call workspace).truncated = false → missed = []) := by
  obtain ⟨missed, hperm, hmissed⟩ :=
    @scanPending_account call ⟨[([], workspace.items)], [], [], false, 0⟩
  refine ⟨missed, hperm.trans ?_, hmissed⟩
  simp [RecentScan.account, Workspace.files]

theorem scanned_distinct (workspace : Workspace) :
    ((recentScan call workspace).scanned.map recentKey).Nodup := by
  obtain ⟨missed, hperm, -⟩ := @recentScan_account call workspace
  have hfiles : ((workspace.files call).map FileEntry.relativePath).Nodup :=
    filesOf_nodup (by simp) workspace.well.1 workspace.well.2
  have hpaths := (hperm.map FileEntry.relativePath).nodup_iff.mpr hfiles
  rw [List.map_append, List.nodup_append] at hpaths
  apply List.Nodup.of_map fun key => (ofLex key).2
  rw [List.map_map]
  exact hpaths.1

/-- **The recent files** are the greatest of those that were scanned, in descending order and none
    of them twice; and all files of the Workspace are scanned within the limits. -/
theorem recentFiles_exact (fnmatch : Text → Text → Bool) (late : Nat → Bool)
    (patterns : List Text) (workspace : Workspace) (limit maxFiles : Int)
    (excludes excludedPaths : List Text) :
    let call := recentCall fnmatch late patterns limit maxFiles excludes excludedPaths
    let scanned := (recentScan call workspace).scanned
    let result := recentFiles fnmatch late patterns workspace limit maxFiles excludes excludedPaths
    TopK.Greatest recentKey call.wanted scanned result.entries ∧ result.entries.Nodup ∧
      scanned.length = result.scannedFiles ∧ scanned.Subperm (workspace.files call) ∧
      (result.truncated = false → scanned.Perm (workspace.files call)) ∧
      ((∀ n, late n = false) → (workspace.files call).length < call.scanLimit →
        result.truncated = false) := by
  intro call scanned result
  have greatest : TopK.Greatest recentKey call.wanted scanned result.entries := by
    have kept : (recentScan call workspace).Kept call := RecentScan.Kept.scanPending rfl
    apply TopK.best_greatest (scanned_distinct workspace)
    · rw [← kept]
      exact List.mergeSort_perm _ _
    · have sorted := @List.pairwise_mergeSort FileEntry (fun a b => recentKey b ≤ recentKey a)
        (by simpa using fun _ _ _ h h' => le_trans h' h) (by simpa using fun _ _ => le_total _ _)
        (recentScan call workspace).heap
      exact sorted.imp of_decide_eq_true
  obtain ⟨missed, hperm, hmissed⟩ := @recentScan_account call workspace
  refine ⟨greatest, ?_, rfl, ?_, ?_, ?_⟩
  · exact greatest.descending.imp fun h heq => absurd (congrArg recentKey heq) (ne_of_gt h)
  · exact (List.sublist_append_left _ _).subperm.trans hperm.subperm
  · intro huncut
    rw [hmissed huncut, List.append_nil] at hperm
    exact hperm
  · intro hlate hlimit
    apply uncut_scanPending hlate
    simpa [RecentScan.account, Workspace.files] using hlimit

end Termroom.Files
