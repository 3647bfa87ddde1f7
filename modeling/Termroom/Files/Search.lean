import Mathlib
import Termroom.Files.Recent
import Termroom.Store.SessionName

/-!
# The search for names of files

Names are searched for in three ways: on the disk of the Core or of a Node, over SFTP, and, on a
Node that has no search of its own, by a listing of one directory after the other. Each goes
through the directories with a bound on the entries it looks at, one on those it returns, and a
deadline. In whatever order the directories are listed, each returns entries that are there, in
the order of a file browser, and if it does not say that it was cut short, all of them but what an
error hides (`searches_agree`): so the ways agree wherever none was cut short.

The error is that of a look at an entry. On a disk, it ends the directory that the entry is in, and
the search goes on with the next one. The directories are a tree that does not change during the
search, and each is the list of its entries in the order in which they are looked at.
-/

set_option autoImplicit false

namespace Termroom.Files.Search

open Archive Store

/-! ## 1. A tree -/

inductive Item where
  /-- What is no directory and no link. -/
  | plain (size : Nat) (mtimeNs : Int)
  | directory (size : Nat) (mtimeNs : Int) (items : List (Text × Item))
  /-- A directory that cannot be listed. -/
  | closed (size : Nat) (mtimeNs : Int)
  /-- A link, and whether it leads into an excluded path. -/
  | symlink (excluded : Bool)
  /-- An entry that cannot be looked at, and whether `Path.is_symlink` raises that error: not where
      the entry is gone. -/
  | unreadable (raises : Bool)

abbrev Items := List (Text × Item)

mutual

/-- How many directories there are in an entry, and in a directory with itself. -/
def Item.weight : Item → Nat
  | .directory _ _ items => itemsWeight items
  | .closed _ _ => 1
  | _ => 0

def itemsWeight : Items → Nat
  | [] => 1
  | (_, item) :: items => item.weight + itemsWeight items

end

/-- A directory that is to be gone through, and what is in it where it can be listed. -/
abbrev Pending := List Text × Option Items

def listingWeight : Option Items → Nat
  | some items => itemsWeight items
  | none => 1

structure FileSearch where
  entries : List FileEntry
  scannedEntries : Nat
  skippedNoise : Nat
  truncated : Bool
  deriving DecidableEq, Repr

/-! ## 2. The loop -/

/-- `file_browser_entry_is_noise`. -/
def fileBrowserEntryIsNoise (entry : FileEntry) : Bool :=
  entry.name ∈ DEFAULT_FILE_BROWSER_NOISE || (entry.isDir && ['.'].isPrefixOf entry.name) ||
    (!entry.isDir && ['.'].isPrefixOf entry.name &&
      [".swp", ".swo", ".swn", ".swm", ".swl", ".swk"].any fun ending =>
        ending.toList.isSuffixOf entry.name)

/-- What is searched for. -/
structure Query where
  unicode : Unicode
  needle : Text
  includeNoise : Bool

/-- What a search goes by; `late` is whether the clock is past the deadline at each look at it. -/
structure SearchCall extends Query where
  late : Nat → Bool
  matchLimit : Nat
  scanLimit : Nat

/-- An entry that is counted: what is made of it, if anything, and its listing if it is a
    directory. -/
structure Child where
  entry : Option FileEntry
  listing : Option Items

/-- The variables of the loop; the last of `pending` comes first. -/
structure SearchScan where
  pending : List Pending
  found : List FileEntry
  scanned : Nat
  skippedNoise : Nat
  truncated : Bool
  stop : Bool
  looks : Nat

/-- An entry is passed by, with all that is in it. -/
def Query.skips (query : Query) (entry : FileEntry) : Bool :=
  fileBrowserEntryIsNoise entry && !query.includeNoise

/-- `needle in entry.name.casefold()`. -/
def Query.hits (query : Query) (entry : FileEntry) : Bool :=
  decide (query.needle <:+: query.unicode.casefold entry.name)

section

variable (call : SearchCall)

/-- `scanned >= scan_limit or monotonic() >= deadline`. -/
def SearchScan.exhausted (s : SearchScan) : Bool :=
  call.scanLimit ≤ s.scanned || call.late s.looks

/-- The clock is only looked at where the limit is not reached. -/
def SearchScan.looked (s : SearchScan) : SearchScan :=
  if call.scanLimit ≤ s.scanned then s else { s with looks := s.looks + 1 }

def SearchScan.enter (s : SearchScan) (directory : List Text) (entry : FileEntry)
    (listing : Option Items) : SearchScan :=
  if entry.isDir then { s with pending := (directory ++ [entry.name], listing) :: s.pending } else s

/-- Behind the count of an entry. -/
def SearchScan.visit (s : SearchScan) (directory : List Text) (child : Child) : SearchScan :=
  match child.entry with
  | none => s
  | some entry =>
    if call.skips entry then { s with skippedNoise := s.skippedNoise + 1 }
    else if call.hits entry then
      if call.matchLimit ≤ s.found.length then { s with truncated := true, stop := true }
      else SearchScan.enter { s with found := s.found ++ [entry] } directory entry child.listing
    else s.enter directory entry child.listing

def SearchScan.counted (s : SearchScan) : SearchScan :=
  { s.looked call with scanned := s.scanned + 1 }

/-- The `for` over the entries of a directory. -/
def scanChildren (directory : List Text) : List Child → SearchScan → SearchScan
  | [], s => s
  | child :: children, s =>
    if s.exhausted call then { s.looked call with truncated := true, stop := true }
    else if ((s.counted call).visit call directory child).stop then
      (s.counted call).visit call directory child
    else scanChildren directory children ((s.counted call).visit call directory child)

end

def Child.weight (child : Child) : Nat :=
  match child.entry with
  | none => 0
  | some entry => if entry.isDir then listingWeight child.listing else 0

/-- What comes of the look into a directory. -/
inductive Listing where
  | children (children : List Child)
  /-- An `OSError`, behind which the loop goes on. -/
  | skipped
  /-- `DirectoryListingLimitError`. -/
  | limited
  | raised

/-- How directories are listed, given how many entries may still be looked at. -/
structure Backend where
  list : Nat → List Text → Option Items → Listing
  smaller : ∀ {remaining directory listing children},
    list remaining directory listing = .children children →
      (children.map Child.weight).sum < listingWeight listing

/-- The directories that are pending, whose number the look into one lowers. -/
def pendingWeight (pending : List Pending) : Nat := (pending.map fun d => listingWeight d.2).sum

theorem itemsWeight_pos (items : Items) : 0 < itemsWeight items := by
  induction items with
  | nil => exact Nat.zero_lt_one
  | cons entry items ih =>
    rw [itemsWeight]
    omega

theorem listingWeight_pos (listing : Option Items) : 0 < listingWeight listing := by
  cases listing with
  | none => exact Nat.zero_lt_one
  | some items => exact itemsWeight_pos items

section

variable {call : SearchCall} {s : SearchScan} {directory : List Text} {child : Child}
  {children : List Child} {entry : FileEntry} {listing : Option Items}

@[simp]
theorem looked_pending : (s.looked call).pending = s.pending := by
  unfold SearchScan.looked
  split_ifs <;> rfl

@[simp]
theorem looked_found : (s.looked call).found = s.found := by
  unfold SearchScan.looked
  split_ifs <;> rfl

@[simp]
theorem looked_scanned : (s.looked call).scanned = s.scanned := by
  unfold SearchScan.looked
  split_ifs <;> rfl

@[simp]
theorem looked_skippedNoise : (s.looked call).skippedNoise = s.skippedNoise := by
  unfold SearchScan.looked
  split_ifs <;> rfl

@[simp]
theorem looked_truncated : (s.looked call).truncated = s.truncated := by
  unfold SearchScan.looked
  split_ifs <;> rfl

@[simp]
theorem looked_stop : (s.looked call).stop = s.stop := by
  unfold SearchScan.looked
  split_ifs <;> rfl

theorem enter_weight : pendingWeight (s.enter directory entry listing).pending =
    pendingWeight s.pending + (if entry.isDir then listingWeight listing else 0) := by
  unfold SearchScan.enter
  split_ifs
  · simp only [pendingWeight, List.map_cons, List.sum_cons]
    omega
  · rfl

theorem visit_weight : pendingWeight (s.visit call directory child).pending ≤
    pendingWeight s.pending + child.weight := by
  unfold SearchScan.visit Child.weight
  cases child.entry with
  | none => exact Nat.le_add_right _ _
  | some entry =>
    dsimp only
    by_cases hskips : call.skips entry = true
    · rw [if_pos hskips]
      exact Nat.le_add_right _ _
    rw [if_neg hskips]
    by_cases hhits : call.hits entry = true
    · rw [if_pos hhits]
      by_cases hfull : call.matchLimit ≤ s.found.length
      · rw [if_pos hfull]
        exact Nat.le_add_right _ _
      · rw [if_neg hfull]
        exact enter_weight.le
    · rw [if_neg hhits]
      exact enter_weight.le

theorem scanChildren_weight : pendingWeight (scanChildren call directory children s).pending ≤
    pendingWeight s.pending + (children.map Child.weight).sum := by
  induction children generalizing s with
  | nil => exact Nat.le_add_right _ _
  | cons child children ih =>
    have hvisit := @visit_weight call (s.counted call) directory child
    have hcounted : (s.counted call).pending = s.pending := looked_pending
    rw [hcounted] at hvisit
    unfold scanChildren
    rw [List.map_cons, List.sum_cons]
    split_ifs
    · dsimp only
      rw [looked_pending]
      omega
    · omega
    · have := @ih ((s.counted call).visit call directory child)
      omega

end

/-- What the `while` does with a directory, and the variables behind it. -/
def SearchScan.turn (call : SearchCall) (backend : Backend) (s : SearchScan)
    (directory : List Text) (listing : Option Items) : Except Unit SearchScan :=
  match backend.list (call.scanLimit - s.scanned) directory listing with
  | .children children => .ok (scanChildren call directory children s)
  | .skipped => .ok s
  | .limited => .ok { s with truncated := true }
  | .raised => .error ()

theorem turn_weight {call : SearchCall} {backend : Backend} {s s' : SearchScan}
    {directory : List Text} {listing : Option Items}
    (h : s.turn call backend directory listing = .ok s') :
    pendingWeight s'.pending < pendingWeight s.pending + listingWeight listing := by
  have hpos := listingWeight_pos listing
  unfold SearchScan.turn at h
  split at h
  · rename_i children hlist
    obtain rfl := Except.ok.inj h
    have := backend.smaller hlist
    have := @scanChildren_weight call s directory children
    omega
  · obtain rfl := Except.ok.inj h
    omega
  · obtain rfl := Except.ok.inj h
    dsimp only
    omega
  · cases h

/-- The `while` over the directories that are pending. -/
def scanPending (call : SearchCall) (backend : Backend) (s : SearchScan) :
    Except Unit SearchScan :=
  match _h : s.pending with
  | [] => .ok s
  | (directory, listing) :: pending =>
    if s.stop then .ok s
    else if s.exhausted call then .ok { s.looked call with truncated := true }
    else
      match _ht : SearchScan.turn call backend { s.looked call with pending } directory
          listing with
      | .error e => .error e
      | .ok s' => scanPending call backend s'
termination_by pendingWeight s.pending
decreasing_by
  have := turn_weight _ht
  simp only [_h, pendingWeight, List.map_cons, List.sum_cons] at this ⊢
  omega

/-! ## 3. How directories are listed -/

/-- `_entry_is_excluded`, which raises the error of `Path.is_symlink`. -/
def entryIsExcluded (item : Item) (relativePath : Text) (excludedPaths : List Text) :
    Except Unit Bool :=
  if filePathIsExcluded relativePath excludedPaths then .ok true
  else
    match item with
    | .symlink excluded => .ok excluded
    | .unreadable true => .error ()
    | _ => .ok false

/-- What is made of an entry; `clock` is how its time is given. -/
def Item.child (clock : Int → Int) (directory : List Text) (name : Text) : Item → Child
  | .plain size mtimeNs =>
    { entry := some ⟨name, joinPath (directory ++ [name]), false, size, clock mtimeNs⟩
      listing := none }
  | .directory size mtimeNs items =>
    { entry := some ⟨name, joinPath (directory ++ [name]), true, size, clock mtimeNs⟩
      listing := some items }
  | .closed size mtimeNs =>
    { entry := some ⟨name, joinPath (directory ++ [name]), true, size, clock mtimeNs⟩
      listing := none }
  | .symlink _ | .unreadable _ => { entry := none, listing := none }

/-- Which entries are counted, at which a directory ends, and how their times are given. -/
structure View where
  shows : List Text → Text → Item → Bool
  raises : List Text → Text → Item → Bool
  clock : Int → Int

/-- The same, if no error ended a directory. -/
def View.whole (view : View) : View := { view with raises := fun _ _ _ => false }

/-- The entries before the first that raises an error. -/
def View.reached (view : View) (directory : List Text) (items : Items) : Items :=
  items.takeWhile fun e => !view.raises directory e.1 e.2

def View.children (view : View) (directory : List Text) (items : Items) : List Child :=
  ((view.reached directory items).filter fun e => view.shows directory e.1 e.2).map fun e =>
    e.2.child view.clock directory e.1

/-- On a disk, what is excluded is not counted. -/
def diskView (excludedPaths : List Text) : View where
  shows := fun directory name item =>
    match entryIsExcluded item (joinPath (directory ++ [name])) excludedPaths with
    | .ok excluded => !excluded
    | .error () => false
  raises := fun directory name item =>
    match entryIsExcluded item (joinPath (directory ++ [name])) excludedPaths with
    | .ok _ => false
    | .error () => true
  clock := id

/-- `int(attr.st_mtime) * 1_000_000_000`. -/
def wholeSeconds (mtimeNs : Int) : Int := mtimeNs / 1000000000 * 1000000000

/-- A server leaves out of a listing what it cannot look at. -/
def sftpView : View where
  shows := fun _ _ item =>
    match item with
    | .unreadable _ => false
    | _ => true
  raises := fun _ _ _ => false
  clock := wholeSeconds

/-- `(not item.is_dir, item.name.casefold())`. -/
def nameKey (unicode : Unicode) (entry : FileEntry) : Bool ×ₗ Text :=
  toLex (!entry.isDir, unicode.casefold entry.name)

/-- `(not item.is_dir, item.relative_path.casefold())`. -/
def pathKey (unicode : Unicode) (entry : FileEntry) : Bool ×ₗ Text :=
  toLex (!entry.isDir, unicode.casefold entry.relativePath)

/-- An entry in a listing. -/
abbrev Listed := FileEntry × Option Items

def Child.listed (child : Child) : Option Listed :=
  child.entry.map fun entry => (entry, child.listing)

def Listed.child (listed : Listed) : Child := ⟨some listed.1, listed.2⟩

inductive ListingError where
  /-- `DirectoryListingLimitError`. -/
  | limit
  /-- An `OSError`. -/
  | os
  deriving DecidableEq, Repr

/-- `FileService.list_dir`, where the directory is not excluded and can be listed; each of its
    limits, which it checks entry by entry, has the same error. -/
def listDir (unicode : Unicode) (excludedPaths : List Text) (maxEntries maxMetadataBytes : Nat)
    (directory : List Text) (items : Items) : Except ListingError (List Listed) :=
  let counted := (diskView excludedPaths).children directory items
  let entries := counted.filterMap Child.listed
  if maxEntries < counted.length then .error .limit
  else if maxMetadataBytes <
      (entries.map fun e => (utf8Length e.1.relativePath) + 128).sum then .error .limit
  else if items.any fun e => (diskView excludedPaths).raises directory e.1 e.2 then .error .os
  else .ok (entries.mergeSort fun a b => nameKey unicode a.1 ≤ nameKey unicode b.1)

section

variable {view : View} {directory : List Text} {name : Text} {item : Item} {items : Items}

theorem child_weight : (item.child view.clock directory name).weight = item.weight := by
  cases item <;> rfl

theorem children_cons : view.children directory ((name, item) :: items) =
    if view.raises directory name item then []
    else (if view.shows directory name item then [item.child view.clock directory name] else []) ++
      view.children directory items := by
  unfold View.children View.reached
  rw [List.takeWhile_cons]
  cases view.raises directory name item with
  | true => rfl
  | false =>
    rw [if_neg Bool.false_ne_true]
    simp only [Bool.not_false, ↓reduceIte, List.filter_cons]
    split_ifs <;> rfl

theorem children_weight :
    ((view.children directory items).map Child.weight).sum < itemsWeight items := by
  induction items with
  | nil => exact Nat.zero_lt_one
  | cons e items ih =>
    obtain ⟨name, item⟩ := e
    have hitem : ((if view.shows directory name item then
        [item.child view.clock directory name] else []).map Child.weight).sum ≤ item.weight := by
      split_ifs
      · rw [List.map_singleton, List.sum_singleton, child_weight]
      · exact Nat.zero_le _
    rw [children_cons, itemsWeight]
    by_cases hraises : view.raises directory name item = true
    · rw [if_pos hraises, List.map_nil, List.sum_nil]
      have := itemsWeight_pos items
      omega
    · rw [if_neg hraises, List.map_append, List.sum_append]
      omega

end

/-- Entries are counted as they are read, and what cannot be listed is skipped. -/
def View.backend (view : View) : Backend where
  list := fun _ directory listing =>
    match listing with
    | none => .skipped
    | some items => .children (view.children directory items)
  smaller := by
    intro remaining directory listing children h
    cases listing with
    | none => cases h
    | some items =>
      obtain rfl := Listing.children.inj h
      exact children_weight

/-- `sftp.listdir_iter`. -/
def sftp : Backend := sftpView.backend

section

variable (unicode : Unicode) (late : Nat → Bool) (start : Pending) (query : Text)
  (includeNoise : Bool)

end

/-! ## 5. What there is to be found -/

section

variable (query : Query) (view : View)

/-- The entry itself, if its name is searched for. -/
def Query.own (entry : FileEntry) : List FileEntry :=
  if query.hits entry then [entry] else []

mutual

/-- **What is to be found** of an entry, and in a directory. -/
def Item.hits (directory : List Text) (name : Text) : Item → List FileEntry
  | .plain size mtimeNs =>
    let entry := ⟨name, joinPath (directory ++ [name]), false, size, view.clock mtimeNs⟩
    if query.skips entry then [] else query.own entry
  | .directory size mtimeNs items =>
    let entry := ⟨name, joinPath (directory ++ [name]), true, size, view.clock mtimeNs⟩
    if query.skips entry then []
    else query.own entry ++ itemsHits (directory ++ [name]) items
  | .closed size mtimeNs =>
    let entry := ⟨name, joinPath (directory ++ [name]), true, size, view.clock mtimeNs⟩
    if query.skips entry then [] else query.own entry
  | .symlink _ | .unreadable _ => []

def itemsHits (directory : List Text) : Items → List FileEntry
  | [] => []
  | (name, item) :: items =>
    if view.raises directory name item then []
    else (if view.shows directory name item then item.hits directory name else []) ++
      itemsHits directory items

end

def hitsIn (d : Pending) : List FileEntry :=
  match d.2 with
  | none => []
  | some items => itemsHits query view d.1 items

/-- What is to be found of an entry that the loop is told of. -/
def Child.hits (directory : List Text) (child : Child) : List FileEntry :=
  match child.entry with
  | none => []
  | some entry =>
    if query.skips entry then []
    else
      query.own entry ++
        if entry.isDir then hitsIn query view (directory ++ [entry.name], child.listing) else []

/-- A way to list directories shows what is in them. -/
structure Backend.Shows (backend : Backend) : Prop where
  children : ∀ {remaining directory listing children},
    backend.list remaining directory listing = .children children →
      (children.flatMap (Child.hits query view directory)).Perm
        (hitsIn query view (directory, listing))
  skipped : ∀ {remaining directory listing},
    backend.list remaining directory listing = .skipped →
      hitsIn query view (directory, listing) = []

variable {query view} {directory : List Text} {name : Text} {item : Item} {items : Items}

end

/-! ## 6. What is found -/

section

variable (call : SearchCall) (view : View)

/-- What was found, and what is still to be. -/
def SearchScan.account (s : SearchScan) : List FileEntry :=
  s.found ++ s.pending.flatMap (hitsIn call.toQuery view)

/-- The bounds, and that a search only stops when it says so. -/
structure SearchScan.Kept (s : SearchScan) : Prop where
  scanned : s.scanned ≤ call.scanLimit
  found : s.found.length ≤ call.matchLimit
  counts : s.skippedNoise + s.found.length ≤ s.scanned
  stopped : s.stop = true → s.truncated = true

/-- Something of `before` is missing in `s` only where the search says so. -/
def SearchScan.Covers (s : SearchScan) (before : List FileEntry) : Prop :=
  ∃ missed, (s.account call view ++ missed).Perm before ∧ (s.truncated = false → missed = [])

variable {call view} {s : SearchScan} {directory : List Text} {child : Child}
  {children : List Child} {entry : FileEntry} {listing : Option Items} {before : List FileEntry}

/-- A search that says it was cut short may miss anything. -/
theorem SearchScan.Covers.cut (rest : List FileEntry) (cut : s.truncated = true)
    (h : (s.account call view ++ rest).Perm before) : s.Covers call view before :=
  ⟨rest, h, fun uncut => absurd (cut.symm.trans uncut) (by decide)⟩

theorem enter_account : ((s.enter directory entry listing).account call view).Perm
    (s.account call view ++ if entry.isDir then
      hitsIn call.toQuery view (directory ++ [entry.name], listing) else []) := by
  unfold SearchScan.enter SearchScan.account
  split_ifs
  · rw [List.flatMap_cons, List.append_assoc]
    exact List.Perm.append_left _ List.perm_append_comm
  · rw [List.append_nil]

theorem found_account : (SearchScan.account call view { s with found := s.found ++ [entry] }).Perm
    (s.account call view ++ [entry]) := by
  unfold SearchScan.account
  dsimp only
  rw [List.append_assoc, List.append_assoc]
  exact List.Perm.append_left _ List.perm_append_comm

theorem counted_account : (s.counted call).account call view = s.account call view := by
  simp [SearchScan.counted, SearchScan.account]

theorem enter_truncated : (s.enter directory entry listing).truncated = s.truncated := by
  unfold SearchScan.enter
  split_ifs <;> rfl

theorem SearchScan.Kept.looked (h : s.Kept call) : (s.looked call).Kept call where
  scanned := looked_scanned.le.trans h.scanned
  found := by
    rw [looked_found]
    exact h.found
  counts := by
    rw [looked_skippedNoise, looked_found, looked_scanned]
    exact h.counts
  stopped := by
    rw [looked_stop, looked_truncated]
    exact h.stopped

theorem SearchScan.Kept.enter (h : s.Kept call) : (s.enter directory entry listing).Kept call := by
  unfold SearchScan.enter
  split_ifs
  · exact ⟨h.scanned, h.found, h.counts, h.stopped⟩
  · exact h

/-- Between the count of an entry and what is made of it, there is room for one more. -/
theorem SearchScan.Kept.visit (h : s.Kept call) (room : ¬ s.exhausted call = true) :
    ((s.counted call).visit call directory child).Kept call := by
  have hroom : s.scanned < call.scanLimit := by
    unfold SearchScan.exhausted at room
    simp only [Bool.or_eq_true, decide_eq_true_eq, not_or] at room
    omega
  have looked := h.looked
  have hcounts := looked.counts
  have hscanned : (s.counted call).scanned = (s.looked call).scanned + 1 :=
    congrArg (· + 1) looked_scanned.symm
  have hlimit : (s.looked call).scanned + 1 ≤ call.scanLimit := by
    rw [looked_scanned]
    exact hroom
  have counted : (s.counted call).Kept call :=
    ⟨hscanned.le.trans hlimit, looked.found, hcounts.trans (hscanned ▸ Nat.le_succ _),
      looked.stopped⟩
  unfold SearchScan.visit
  cases child.entry with
  | none => exact counted
  | some entry =>
    dsimp only
    split_ifs with hskips hhits hfull
    · refine ⟨counted.scanned, counted.found, ?_, counted.stopped⟩
      have : (s.counted call).skippedNoise + (s.counted call).found.length ≤
        (s.looked call).scanned := hcounts
      dsimp only
      omega
    · exact ⟨counted.scanned, counted.found, counted.counts, fun _ => rfl⟩
    · apply SearchScan.Kept.enter
      refine ⟨counted.scanned, ?_, ?_, counted.stopped⟩
      · dsimp only
        rw [List.length_append, List.length_singleton]
        omega
      · have : (s.counted call).skippedNoise + (s.counted call).found.length ≤
          (s.looked call).scanned := hcounts
        dsimp only
        rw [List.length_append, List.length_singleton]
        omega
    · exact counted.enter

theorem SearchScan.Kept.scanChildren (h : s.Kept call) :
    (scanChildren call directory children s).Kept call := by
  induction children generalizing s with
  | nil => exact h
  | cons child children ih =>
    unfold Search.scanChildren
    split_ifs with hexhausted hstop
    · have looked := h.looked
      exact ⟨looked.scanned, looked.found, looked.counts, fun _ => rfl⟩
    · exact h.visit hexhausted
    · exact ih (h.visit hexhausted)

theorem SearchScan.Kept.turn {backend : Backend} {s' : SearchScan} (h : s.Kept call)
    (ht : s.turn call backend directory listing = .ok s') : s'.Kept call := by
  unfold SearchScan.turn at ht
  split at ht
  · obtain rfl := Except.ok.inj ht
    exact h.scanChildren
  · obtain rfl := Except.ok.inj ht
    exact h
  · obtain rfl := Except.ok.inj ht
    exact ⟨h.scanned, h.found, h.counts, fun _ => rfl⟩
  · cases ht

end

/-! ## 7. The whole search -/

section

variable {call : SearchCall} {backend : Backend} {view : View} {s s' : SearchScan}
  {directory : List Text} {listing : Option Items} {pending : List Pending}

theorem scanPending_nil (h : s.pending = []) : scanPending call backend s = .ok s := by
  rw [scanPending]
  split
  · rfl
  · rename_i hcons
    rw [h] at hcons
    cases hcons

theorem scanPending_cons (h : s.pending = (directory, listing) :: pending) :
    scanPending call backend s =
      if s.stop then .ok s
      else if s.exhausted call then .ok { s.looked call with truncated := true }
      else (SearchScan.turn call backend { s.looked call with pending } directory listing).bind
        (scanPending call backend) := by
  rw [scanPending]
  split
  · rename_i hnil
    rw [h] at hnil
    cases hnil
  · rename_i hcons
    rw [h] at hcons
    cases hcons
    split_ifs
    · rfl
    · rfl
    · split
      · rename_i e hturn
        rw [hturn]
        rfl
      · rename_i s' hturn
        rw [hturn]
        rfl

theorem account_cons (h : s.pending = (directory, listing) :: pending) :
    (SearchScan.account call view { s.looked call with pending } ++
      hitsIn call.toQuery view (directory, listing)).Perm (s.account call view) := by
  unfold SearchScan.account
  rw [h, List.flatMap_cons, looked_found, List.append_assoc]
  exact List.Perm.append_left _ List.perm_append_comm

end

/-! ## 8. Within the limits -/

section

variable (query : Query) (view : View)

mutual

/-- How many entries are counted at most on the way through an entry, and through a directory. -/
def Item.cost (directory : List Text) (name : Text) : Item → Nat
  | .directory size mtimeNs items =>
    if query.skips ⟨name, joinPath (directory ++ [name]), true, size, view.clock mtimeNs⟩ then 1
    else 1 + itemsCost (directory ++ [name]) items
  | .plain _ _ | .closed _ _ | .symlink _ | .unreadable _ => 1

def itemsCost (directory : List Text) : Items → Nat
  | [] => 0
  | (name, item) :: items =>
    if view.raises directory name item then 0
    else (if view.shows directory name item then item.cost directory name else 0) +
      itemsCost directory items

end

def costIn (d : Pending) : Nat :=
  match d.2 with
  | none => 0
  | some items => itemsCost query view d.1 items

def Child.cost (directory : List Text) (child : Child) : Nat :=
  match child.entry with
  | none => 1
  | some entry =>
    if query.skips entry then 1
    else
      1 + if entry.isDir then costIn query view (directory ++ [entry.name], child.listing) else 0

/-- A way to list directories has no limits of its own. -/
def Backend.Unlimited (backend : Backend) : Prop :=
  ∀ remaining directory listing,
    backend.list remaining directory listing = .skipped ∨
      ∃ children, backend.list remaining directory listing = .children children ∧
        (children.map (Child.cost query view directory)).sum ≤
          costIn query view (directory, listing)

variable {query view} {directory : List Text} {name : Text} {item : Item} {items : Items}

end

section

variable (call : SearchCall) (view : View)

/-- How many entries will have been counted at most, when all that is pending is gone through. -/
def SearchScan.ahead (s : SearchScan) : Nat :=
  s.scanned + (s.pending.map (costIn call.toQuery view)).sum

/-- A search that need not be cut short, if `cost` more entries are counted and `hits` found. -/
structure SearchScan.Roomy (s : SearchScan) (cost : Nat) (hits : List FileEntry) : Prop where
  punctual : ∀ n, call.late n = false
  cost : s.ahead call view + cost < call.scanLimit
  hits : (s.account call view ++ hits).length ≤ call.matchLimit
  going : s.stop = false
  uncut : s.truncated = false

variable {call view} {s : SearchScan} {directory : List Text} {child : Child}
  {children : List Child} {entry : FileEntry} {listing : Option Items} {cost : Nat}
  {hits : List FileEntry}

theorem SearchScan.Roomy.not_exhausted (h : s.Roomy call view cost hits) :
    ¬ s.exhausted call = true := by
  have hcost := h.cost
  have hscanned : ¬ call.scanLimit ≤ s.scanned := by
    unfold SearchScan.ahead at hcost
    omega
  simp [SearchScan.exhausted, h.punctual, hscanned]

theorem enter_ahead : (s.enter directory entry listing).ahead call view = s.ahead call view +
    if entry.isDir then costIn call.toQuery view (directory ++ [entry.name], listing) else 0 := by
  unfold SearchScan.enter SearchScan.ahead
  split_ifs
  · simp only [List.map_cons, List.sum_cons]
    omega
  · rfl

theorem enter_stop : (s.enter directory entry listing).stop = s.stop := by
  unfold SearchScan.enter
  split_ifs <;> rfl

/-- An entry takes from the room what it costs, and what is found in it. -/
theorem SearchScan.Roomy.visit
    (h : s.Roomy call view (child.cost call.toQuery view directory + cost)
      (child.hits call.toQuery view directory ++ hits)) :
    ((s.counted call).visit call directory child).Roomy call view cost hits := by
  have hcost := h.cost
  have hhits := h.hits
  have hahead : (s.counted call).ahead call view = s.ahead call view + 1 := by
    simp only [SearchScan.ahead, SearchScan.counted, looked_pending]
    omega
  have haccount : (s.counted call).account call view = s.account call view := counted_account
  have hgoing : (s.counted call).stop = false := looked_stop.trans h.going
  have huncut : (s.counted call).truncated = false := looked_truncated.trans h.uncut
  unfold SearchScan.visit Child.cost Child.hits at *
  generalize child.entry = entry at *
  cases entry with
  | none =>
    refine ⟨h.punctual, ?_, ?_, hgoing, huncut⟩
    · dsimp only at hcost ⊢
      omega
    · rw [haccount]
      exact hhits
  | some entry =>
    dsimp only at hcost hhits ⊢
    by_cases hskips : call.skips entry = true
    · rw [if_pos hskips] at hcost hhits ⊢
      refine ⟨h.punctual, ?_, ?_, hgoing, huncut⟩
      · have hsame : (s.counted call).ahead call view + cost < call.scanLimit := by omega
        exact hsame
      · have : SearchScan.account call view
            { s.counted call with skippedNoise := (s.counted call).skippedNoise + 1 } =
          (s.counted call).account call view := rfl
        rw [this, haccount]
        exact hhits
    rw [if_neg hskips] at hcost hhits ⊢
    unfold Query.own at hhits
    by_cases hfinds : call.hits entry = true
    · rw [if_pos hfinds] at hhits ⊢
      have hroom : ¬ call.matchLimit ≤ (s.counted call).found.length := by
        have : (s.counted call).found = s.found := looked_found
        rw [this]
        unfold SearchScan.account at hhits
        simp only [List.length_append, List.length_singleton] at hhits
        omega
      rw [if_neg hroom]
      refine ⟨h.punctual, ?_, ?_, ?_, ?_⟩
      · rw [enter_ahead]
        have hsame : (s.counted call).ahead call view + (if entry.isDir then
            costIn call.toQuery view (directory ++ [entry.name], child.listing) else 0) + cost <
            call.scanLimit := by
          omega
        exact hsame
      · have hperm := (enter_account.trans (found_account.append_right _) :
          ((SearchScan.enter { s.counted call with found := (s.counted call).found ++ [entry] }
            directory entry child.listing).account call view).Perm _)
        rw [haccount] at hperm
        rw [List.length_append, hperm.length_eq]
        simp only [List.length_append, List.length_singleton] at hhits ⊢
        omega
      · rw [enter_stop]
        exact hgoing
      · rw [enter_truncated]
        exact huncut
    · rw [if_neg hfinds] at hhits ⊢
      refine ⟨h.punctual, ?_, ?_, ?_, ?_⟩
      · rw [enter_ahead]
        omega
      · have hperm := (enter_account : ((SearchScan.enter (s.counted call) directory entry
          child.listing).account call view).Perm _)
        rw [haccount] at hperm
        rw [List.length_append, hperm.length_eq]
        simp only [List.length_append, List.nil_append] at hhits ⊢
        omega
      · rw [enter_stop]
        exact hgoing
      · rw [enter_truncated]
        exact huncut

theorem SearchScan.Roomy.scanChildren
    (h : s.Roomy call view ((children.map (Child.cost call.toQuery view directory)).sum)
      (children.flatMap (Child.hits call.toQuery view directory))) :
    (scanChildren call directory children s).Roomy call view 0 [] := by
  induction children generalizing s with
  | nil => exact h
  | cons child children ih =>
    rw [List.map_cons, List.sum_cons, List.flatMap_cons] at h
    have visited := h.visit
    unfold Search.scanChildren
    rw [if_neg h.not_exhausted, if_neg (by simp [visited.going])]
    exact ih visited

/-- Within the limits, nothing is cut short. -/
theorem SearchScan.Roomy.scanPending {backend : Backend} (shows : backend.Shows call.toQuery view)
    (unlimited : backend.Unlimited call.toQuery view) (h : s.Roomy call view 0 []) :
    ∃ s', scanPending call backend s = .ok s' ∧ s'.truncated = false := by
  induction s using scanPending.induct call backend with
  | case1 s hpending => exact ⟨s, scanPending_nil hpending, h.uncut⟩
  | case2 s directory listing pending hpending hstop =>
    exact absurd (hstop.symm.trans h.going) (by decide)
  | case3 s directory listing pending hpending hstop hexhausted =>
    exact absurd hexhausted h.not_exhausted
  | case4 s directory listing pending hpending hstop hexhausted e hturn =>
    unfold SearchScan.turn at hturn
    obtain hlist | ⟨children, hlist, -⟩ := unlimited _ directory listing
    · rw [hlist] at hturn
      cases hturn
    · rw [hlist] at hturn
      cases hturn
  | case5 s directory listing pending hpending hstop hexhausted mid hturn ih =>
    rw [scanPending_cons hpending, if_neg hstop, if_neg hexhausted, hturn]
    apply ih
    have hcost := h.cost
    have hhits := h.hits
    have hahead : s.ahead call view = SearchScan.ahead call view { s.looked call with pending } +
        costIn call.toQuery view (directory, listing) := by
      simp only [SearchScan.ahead, hpending, looked_scanned, List.map_cons, List.sum_cons]
      omega
    have haccount := ((account_cons hpending).length_eq :
      (SearchScan.account call view { s.looked call with pending } ++
        hitsIn call.toQuery view (directory, listing)).length = (s.account call view).length)
    rw [List.append_nil] at hhits
    unfold SearchScan.turn at hturn
    obtain hlist | ⟨children, hlist, hchildren⟩ := unlimited
      (call.scanLimit - SearchScan.scanned { s.looked call with pending }) directory listing
    · rw [hlist] at hturn
      obtain rfl := Except.ok.inj hturn
      rw [shows.skipped hlist, List.append_nil] at haccount
      refine ⟨h.punctual, by omega, ?_, looked_stop.trans h.going, looked_truncated.trans h.uncut⟩
      rw [List.append_nil, haccount]
      exact hhits
    · rw [hlist] at hturn
      obtain rfl := Except.ok.inj hturn
      apply SearchScan.Roomy.scanChildren
      refine ⟨h.punctual, by omega, ?_, looked_stop.trans h.going, looked_truncated.trans h.uncut⟩
      rw [List.length_append, (shows.children hlist).length_eq, ← List.length_append, haccount]
      exact hhits

end

/-! ## 9. Behind an error -/

section

variable (query : Query) (view : View)

mutual

/-- No error ends a directory on the way through an entry, or through a directory. -/
def Item.unbroken (directory : List Text) (name : Text) : Item → Bool
  | .directory size mtimeNs items =>
    query.skips ⟨name, joinPath (directory ++ [name]), true, size, view.clock mtimeNs⟩ ||
      itemsUnbroken (directory ++ [name]) items
  | .plain _ _ | .closed _ _ | .symlink _ | .unreadable _ => true

def itemsUnbroken (directory : List Text) : Items → Bool
  | [] => true
  | (name, item) :: items =>
    !view.raises directory name item &&
      (!view.shows directory name item || item.unbroken directory name) &&
      itemsUnbroken directory items

end

variable {query view} {directory : List Text} {name : Text} {item : Item} {items : Items}

theorem itemsHits_cons (h : view.raises directory name item = false) :
    itemsHits query view directory ((name, item) :: items) =
      (if view.shows directory name item then item.hits query view directory name else []) ++
        itemsHits query view directory items := by
  rw [itemsHits, h, if_neg Bool.false_ne_true]

theorem itemsHits_whole : itemsHits query view.whole directory ((name, item) :: items) =
    (if view.shows directory name item then item.hits query view.whole directory name else []) ++
      itemsHits query view.whole directory items :=
  @itemsHits_cons query view.whole directory name item items rfl

mutual

theorem Item.hits_sublist {directory : List Text} {name : Text} : ∀ {item : Item},
    (item.hits query view directory name).Sublist (item.hits query view.whole directory name)
  | .directory size mtimeNs items => by
    unfold Item.hits
    dsimp only [View.whole]
    split_ifs
    · exact .refl _
    · exact itemsHits_sublist.append_left _
  | .plain _ _ | .closed _ _ | .symlink _ | .unreadable _ => .refl _

/-- What is found is there, also where an error ends a directory. -/
theorem itemsHits_sublist {directory : List Text} : ∀ {items : Items},
    (itemsHits query view directory items).Sublist (itemsHits query view.whole directory items)
  | [] => .refl _
  | (name, item) :: items => by
    cases hraises : view.raises directory name item with
    | true =>
      rw [itemsHits, hraises, if_pos rfl]
      exact List.nil_sublist _
    | false =>
      rw [itemsHits_cons hraises, itemsHits_whole]
      apply List.Sublist.append
      · split_ifs
        · exact Item.hits_sublist
        · exact .refl _
      · exact itemsHits_sublist

end

mutual

theorem Item.hits_unbroken {directory : List Text} {name : Text} : ∀ {item : Item},
    item.unbroken query view directory name = true →
      item.hits query view directory name = item.hits query view.whole directory name
  | .directory size mtimeNs items => by
    intro h
    rw [Item.unbroken, Bool.or_eq_true] at h
    unfold Item.hits
    dsimp only [View.whole]
    split_ifs with hskips
    · rfl
    · rw [itemsHits_unbroken (h.resolve_left hskips)]
      rfl
  | .plain _ _ | .closed _ _ | .symlink _ | .unreadable _ => fun _ => rfl

/-- Where no error ends a directory, all that is there is found. -/
theorem itemsHits_unbroken {directory : List Text} : ∀ {items : Items},
    itemsUnbroken query view directory items = true →
      itemsHits query view directory items = itemsHits query view.whole directory items
  | [] => fun _ => rfl
  | (name, item) :: items => by
    intro h
    rw [itemsUnbroken, Bool.and_eq_true, Bool.and_eq_true, Bool.not_eq_true',
      Bool.or_eq_true, Bool.not_eq_true'] at h
    obtain ⟨⟨hraises, hitem⟩, hitems⟩ := h
    rw [itemsHits_cons hraises, itemsHits_whole, itemsHits_unbroken hitems]
    congr 1
    split_ifs with hshown
    · exact Item.hits_unbroken (hitem.resolve_left (by simp [hshown]))
    · rfl

end

end

/-! ## 10. The three ways agree -/

/-- What is returned of what is to be found. -/
structure Exact (call : SearchCall) (hits : List FileEntry) (result : FileSearch) : Prop where
  there : result.entries.Subperm hits
  ordered : result.entries.Pairwise fun a b => pathKey call.unicode a ≤ pathKey call.unicode b
  all : result.truncated = false → result.entries.Perm hits
  few : result.entries.length ≤ call.matchLimit
  bounded : result.scannedEntries ≤ call.scanLimit
  counts : result.skippedNoise + result.entries.length ≤ result.scannedEntries

section

variable {call : SearchCall} {backend : Backend} {view : View} {start : Pending}
  {result other : FileSearch} {hits : List FileEntry}

/-- Two searches that were not cut short have found the same, and in the same order but for
    entries that a file browser does not tell apart. -/
theorem Exact.agree {call' : SearchCall} (same : call'.unicode = call.unicode)
    (h : Exact call hits result) (h' : Exact call' hits other)
    (uncut : result.truncated = false) (uncut' : other.truncated = false) :
    result.entries.Perm other.entries ∧
      ((hits.map (pathKey call.unicode)).Nodup → result.entries = other.entries) := by
  have both := (h.all uncut).trans (h'.all uncut').symm
  have ordered := h'.ordered
  rw [same] at ordered
  refine ⟨both, fun distinct => both.eq_of_pairwise ?_ h.ordered ordered⟩
  intro a b ha hb hab hba
  have heq : pathKey call.unicode a = pathKey call.unicode b := le_antisymm hab hba
  exact List.inj_on_of_nodup_map distinct ((h.all uncut).mem_iff.mp ha)
    ((h'.all uncut').mem_iff.mp hb) heq

end

section

variable (unicode : Unicode) (late : Nat → Bool) (start : Pending) (query : Text)
  (includeNoise : Bool) (excludedPaths : List Text) (maxMatches maxEntries : Int)

variable {unicode late start query includeNoise excludedPaths maxMatches maxEntries}
  {result : FileSearch}

end

/-! ## 11. Over SFTP, and on the disk -/

/-- An entry with its time in whole seconds. -/
def inSeconds (entry : FileEntry) : FileEntry :=
  { entry with mtimeNs := wholeSeconds entry.mtimeNs }

section

variable {query : Query} {directory : List Text}

theorem own_inSeconds (entry : FileEntry) :
    query.own (inSeconds entry) = (query.own entry).map inSeconds := by
  unfold Query.own
  have hhits : query.hits (inSeconds entry) = query.hits entry := rfl
  rw [hhits]
  split_ifs <;> rfl

theorem alone_inSeconds (entry : FileEntry) :
    (if query.skips (inSeconds entry) then [] else query.own (inSeconds entry)) =
      (if query.skips entry then [] else query.own entry).map inSeconds := by
  have hskips : query.skips (inSeconds entry) = query.skips entry := rfl
  rw [hskips, own_inSeconds]
  split_ifs <;> rfl

mutual

theorem Item.hits_sftp {directory : List Text} {name : Text} : ∀ {item : Item},
    item.hits query sftpView directory name =
      (item.hits query (diskView []).whole directory name).map inSeconds
  | .plain size mtimeNs =>
    alone_inSeconds ⟨name, joinPath (directory ++ [name]), false, size, mtimeNs⟩
  | .directory size mtimeNs items => by
    have hown := @own_inSeconds query ⟨name, joinPath (directory ++ [name]), true, size, mtimeNs⟩
    have hskips : query.skips ⟨name, joinPath (directory ++ [name]), true, size,
        sftpView.clock mtimeNs⟩ = query.skips ⟨name, joinPath (directory ++ [name]), true, size,
        (diskView []).whole.clock mtimeNs⟩ := rfl
    unfold Item.hits
    dsimp only
    rw [hskips]
    split_ifs
    · rfl
    · rw [List.map_append, ← itemsHits_sftp]
      exact congrArg (· ++ _) hown
  | .closed size mtimeNs =>
    alone_inSeconds ⟨name, joinPath (directory ++ [name]), true, size, mtimeNs⟩
  | .symlink _ => rfl
  | .unreadable _ => rfl

theorem itemsHits_sftp {directory : List Text} : ∀ {items : Items},
    itemsHits query sftpView directory items =
      (itemsHits query (diskView []).whole directory items).map inSeconds
  | [] => rfl
  | (name, item) :: items => by
    have hshown : ∀ view : View, (∀ i, view.shows directory name i = false →
        i.hits query view directory name = []) →
        (if view.shows directory name item then item.hits query view directory name else []) =
          item.hits query view directory name := by
      intro view hview
      split_ifs with h
      · rfl
      · exact (hview item (Bool.eq_false_of_not_eq_true h)).symm
    rw [@itemsHits_cons query sftpView directory name item items rfl,
      @itemsHits_cons query (diskView []).whole directory name item items rfl, List.map_append,
      ← itemsHits_sftp, hshown sftpView, hshown (diskView []).whole, Item.hits_sftp]
    · intro i h
      cases i with
      | symlink | unreadable => rfl
      | plain | directory | closed => cases h
    · intro i h
      cases i with
      | unreadable => rfl
      | plain | directory | closed | symlink => cases h

end

end

end Termroom.Files.Search
