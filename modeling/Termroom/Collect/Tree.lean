import Mathlib
import Termroom.Archive.Sinks
import Termroom.Sources.Manifest

/-!
# The tree of a result

The collector reads the result of a Remote Run through the listings of its backend, which answers
with whatever names, kinds and sizes it likes, and whose directories are what is listed next.
`_scan_tree` goes through them without listing one twice, and it stops within its bounds
(`Bounded`). What is bounded is how deep the directories lie; **a file may lie one level below the
deepest of them**.
-/

set_option autoImplicit false

namespace Termroom.Collect

open Conc Archive Sources

/-! ## 1. Listings -/

def MAX_RESULT_ENTRIES : Nat := 10000

def MAX_RESULT_DEPTH : Nat := 64

def MAX_RESULT_PATH_BYTES : Nat := 4096

/-- A `FileEntry` as a listing has it; a field is `none` where it is not of its type. -/
structure ListedEntry where
  name : Text
  relativePath : Option Text
  isDir : Bool
  size : Option Int
  mtimeNs : Option Int
  deriving DecidableEq, Repr

/-- A `FileEntry` that was checked. -/
structure FileEntry where
  name : Text
  relativePath : Text
  isDir : Bool
  size : Nat
  mtimeNs : Nat
  deriving DecidableEq, Repr

/-- What `list_dir` raises. -/
inductive ListError where
  | limit
  | other (exception : String)
  deriving DecidableEq, Repr

inductive CollectError where
  /-- `ResultCollectionError`. -/
  | result (message code : String)
  | listing (e : ListError)
  deriving DecidableEq, Repr

abbrev Collected := Except CollectError

def fail {α : Type} (message code : String) : Collected α := .error (.result message code)

def failWhen (p : Prop) [Decidable p] (message code : String) : Collected Unit :=
  if p then fail message code else .ok ()

/-- `PurePosixPath(path).parts` of a relative path. -/
def posixParts (path : Text) : List Text :=
  (splitPath path).filter fun part => part ≠ [] && part ≠ ['.']

/-- `PurePosixPath(...).as_posix()` of these parts. -/
def asPosix (parts : List Text) : Text := if parts = [] then ['.'] else joinPath parts

def parentPath (path : Text) : Text := asPosix (posixParts path).dropLast

/-! ## 2. The scan -/

/-- The variables of the loop; the last of `pending` comes first. -/
structure Scan where
  pending : List (Text × Nat)
  seen : List Text
  entries : List FileEntry
  totalBytes : Nat
  deriving DecidableEq, Repr

structure ScannedTree where
  entries : List FileEntry
  totalBytes : Nat
  deriving DecidableEq, Repr

section scan

variable (isalpha : Char → Bool)

/-- `type(value) is int and value >= 0`. -/
def isNatural : Option Int → Bool
  | some (.ofNat _) => true
  | _ => false

/-- The `try` of `_validate_child_entry`. -/
def normalizedChild (entry : ListedEntry) : Collected Text :=
  match entry.relativePath with
  | none => fail "Remote Run result contains an unsafe path" "result_path_invalid"
  | some value =>
    match normalizeSourceRelativePath isalpha value false true with
    | .error _ => fail "Remote Run result contains an unsafe path" "result_path_invalid"
    | .ok relative => .ok relative

/-- `_validate_child_entry`. -/
def validateChildEntry (directory : Text) (entry : ListedEntry) : Collected Text := do
  failWhen (isNatural entry.size = false) "Remote Run result contains invalid file metadata"
    "result_metadata_invalid"
  failWhen (isNatural entry.mtimeNs = false) "Remote Run result contains invalid file metadata"
    "result_metadata_invalid"
  let relative ← normalizedChild isalpha entry
  failWhen (MAX_RESULT_PATH_BYTES < utf8Length relative) "Remote Run result path is too long"
    "result_path_invalid"
  failWhen (parentPath relative ≠ directory)
    "Remote Run result listing crossed a directory boundary" "result_path_invalid"
  return relative

/-- The `canonical` entry. -/
def canonicalEntry (relative : Text) (entry : ListedEntry) : FileEntry where
  name := (posixParts relative).getLastD []
  relativePath := relative
  isDir := entry.isDir
  size := (entry.size.getD 0).toNat
  mtimeNs := (entry.mtimeNs.getD 0).toNat

/-- One turn of the loop over the children of a directory. -/
def scanChild (maxArchiveBytes : Nat) (directory : Text) (depth : Nat) (s : Scan)
    (entry : ListedEntry) : Collected Scan := do
  let relative ← validateChildEntry isalpha directory entry
  failWhen (relative ∈ s.seen) "Remote Run result contains a duplicate path"
    "result_path_duplicate"
  let seen := relative :: s.seen
  failWhen (MAX_RESULT_ENTRIES < seen.length) "Remote Run result contains too many entries"
    "result_too_many_entries"
  let canonical := canonicalEntry relative entry
  let entries := s.entries ++ [canonical]
  if canonical.isDir then
    let nextDepth := depth + 1
    failWhen (MAX_RESULT_DEPTH < nextDepth) "Remote Run result directory nesting is too deep"
      "result_too_deep"
    return { s with seen, entries, pending := (relative, nextDepth) :: s.pending }
  else
    let totalBytes := s.totalBytes + canonical.size
    failWhen (maxArchiveBytes < totalBytes) "Remote Run result exceeds the collection size limit"
      "result_too_large"
    return { s with seen, entries, totalBytes }

def scanChildren (maxArchiveBytes : Nat) (directory : Text) (depth : Nat) :
    Scan → List ListedEntry → Collected Scan
  | s, [] => .ok s
  | s, entry :: rest => do
    let s ← scanChild isalpha maxArchiveBytes directory depth s entry
    scanChildren maxArchiveBytes directory depth s rest

/-- The directories to come, and the entries that there is room for. -/
def Scan.left (s : Scan) : Nat := s.pending.length + (MAX_RESULT_ENTRIES - s.seen.length)

end scan

/-! ## 3. What an entry passes -/

section entry

variable {isalpha : Char → Bool} {maxArchiveBytes depth : Nat} {directory relative : Text}
variable {s s' : Scan} {entry : ListedEntry} {children : List ListedEntry}
variable {p : Prop} [Decidable p] {message code : String} {α : Type}

@[simp] theorem failWhen_bind_ok {f : Unit → Collected α} {a : α} :
    (failWhen p message code >>= f) = .ok a ↔ ¬p ∧ f () = .ok a := by
  unfold failWhen
  by_cases h : p
  · rw [if_pos h]
    constructor
    · intro h'
      cases h'
    · rintro ⟨hn, -⟩
      exact absurd h hn
  · rw [if_neg h]
    exact ⟨fun h' => ⟨h, h'⟩, fun h' => h'.2⟩

/-- What a path is that passed. -/
structure Child (isalpha : Char → Bool) (directory : Text) (entry : ListedEntry)
    (relative : Text) : Prop where
  listed : entry.relativePath = some relative
  normalized : normalizeSourceRelativePath isalpha relative false true = .ok relative
  parent : parentPath relative = directory
  size : ∃ n : Nat, entry.size = some (n : Int)
  mtimeNs : ∃ n : Nat, entry.mtimeNs = some (n : Int)
  short : utf8Length relative ≤ MAX_RESULT_PATH_BYTES

theorem isNatural_iff {field : Option Int} :
    isNatural field = true ↔ ∃ n : Nat, field = some (n : Int) := by
  unfold isNatural
  split
  · rename_i n
    exact ⟨fun _ => ⟨n, rfl⟩, fun _ => rfl⟩
  · rename_i other
    constructor
    · intro h
      cases h
    · rintro ⟨n, rfl⟩
      exact absurd rfl (other n)

theorem normalizedChild_ok (h : normalizedChild isalpha entry = .ok relative) :
    entry.relativePath = some relative ∧
      normalizeSourceRelativePath isalpha relative false true = .ok relative := by
  unfold normalizedChild at h
  split at h
  · cases h
  · rename_i value hlisted
    split at h
    · cases h
    · rename_i normalized hnormalized
      obtain rfl := Except.ok.inj h
      have same := (normalize_ok_iff.mp hnormalized).1
      rw [← same] at hlisted hnormalized
      exact ⟨hlisted, hnormalized⟩

theorem validateChildEntry_ok (h : validateChildEntry isalpha directory entry = .ok relative) :
    Child isalpha directory entry relative := by
  unfold validateChildEntry at h
  obtain ⟨hsize, h⟩ := failWhen_bind_ok.mp h
  obtain ⟨hmtime, h⟩ := failWhen_bind_ok.mp h
  rw [Bool.not_eq_false] at hsize hmtime
  obtain ⟨path, hpath, h⟩ := bind_eq_ok.mp h
  obtain ⟨hshort, h⟩ := failWhen_bind_ok.mp h
  obtain ⟨hparent, h⟩ := failWhen_bind_ok.mp h
  obtain rfl := Except.ok.inj h
  obtain ⟨hlisted, hnormalized⟩ := normalizedChild_ok hpath
  exact ⟨hlisted, hnormalized, not_not.mp hparent, isNatural_iff.mp hsize,
    isNatural_iff.mp hmtime, Nat.le_of_not_lt hshort⟩

/-- What a child adds to the scan. -/
structure Added (isalpha : Char → Bool) (maxArchiveBytes : Nat) (directory : Text) (depth : Nat)
    (entry : ListedEntry) (s s' : Scan) (relative : Text) : Prop where
  child : Child isalpha directory entry relative
  fresh : relative ∉ s.seen
  room : s.seen.length < MAX_RESULT_ENTRIES
  seen : s'.seen = relative :: s.seen
  entries : s'.entries = s.entries ++ [canonicalEntry relative entry]
  kind : (entry.isDir = true ∧ depth + 1 ≤ MAX_RESULT_DEPTH ∧
      s'.pending = (relative, depth + 1) :: s.pending ∧ s'.totalBytes = s.totalBytes) ∨
    (entry.isDir = false ∧ s'.pending = s.pending ∧
      s'.totalBytes = s.totalBytes + (canonicalEntry relative entry).size ∧
      s'.totalBytes ≤ maxArchiveBytes)

theorem scanChild_ok (h : scanChild isalpha maxArchiveBytes directory depth s entry = .ok s') :
    ∃ relative, Added isalpha maxArchiveBytes directory depth entry s s' relative := by
  unfold scanChild at h
  obtain ⟨relative, hrelative, h⟩ := bind_eq_ok.mp h
  obtain ⟨hfresh, h⟩ := failWhen_bind_ok.mp h
  obtain ⟨hroom, h⟩ := failWhen_bind_ok.mp h
  have child := validateChildEntry_ok hrelative
  have room : s.seen.length < MAX_RESULT_ENTRIES := Nat.le_of_not_lt hroom
  refine ⟨relative, ?_⟩
  dsimp only at h
  split at h
  · rename_i hdir
    obtain ⟨hdepth, h⟩ := failWhen_bind_ok.mp h
    obtain rfl := Except.ok.inj h
    exact ⟨child, hfresh, room, rfl, rfl, .inl ⟨hdir, Nat.le_of_not_lt hdepth, rfl, rfl⟩⟩
  · rename_i hfile
    obtain ⟨htotal, h⟩ := failWhen_bind_ok.mp h
    obtain rfl := Except.ok.inj h
    exact ⟨child, hfresh, room, rfl, rfl,
      .inr ⟨Bool.eq_false_iff.mpr hfile, rfl, rfl, Nat.le_of_not_lt htotal⟩⟩

/-- A child that is a directory is one more to come, and it takes up room. -/
theorem scanChildren_left
    (h : scanChildren isalpha maxArchiveBytes directory depth s children = .ok s') :
    s'.left ≤ s.left := by
  induction children generalizing s with
  | nil =>
    obtain rfl := Except.ok.inj h
    exact Nat.le_refl _
  | cons entry rest ih =>
    unfold scanChildren at h
    obtain ⟨next, hchild, hrest⟩ := bind_eq_ok.mp h
    obtain ⟨relative, added⟩ := scanChild_ok hchild
    apply Nat.le_trans (ih hrest)
    have room := added.room
    unfold Scan.left
    rw [added.seen, List.length_cons]
    rcases added.kind with ⟨-, -, pending, -⟩ | ⟨-, pending, -⟩
    · rw [pending, List.length_cons]
      omega
    · rw [pending]
      omega

end entry

/-! ## 4. The loop -/

/-- `remote_access.list_dir` of a directory, with the most entries that it may have. -/
structure ListOp where
  directory : Text
  maxEntries : Nat

abbrev ListAnswer := Except ListError (List ListedEntry)

abbrev ListSig : Sig := ⟨ListOp, fun _ => ListAnswer⟩

abbrev ListProg (α : Type) := Prog ListSig CollectError α

section loop

variable (isalpha : Char → Bool) (maxArchiveBytes : Nat)

/-- `while pending`. -/
def scanLoop (s : Scan) : ListProg ScannedTree :=
  match _hpending : s.pending with
  | [] => pure ⟨s.entries.insertionSort fun a b => a.relativePath ≤ b.relativePath, s.totalBytes⟩
  | (directory, depth) :: rest =>
    (@Prog.perform ListSig CollectError
      ⟨directory, MAX_RESULT_ENTRIES - s.seen.length⟩).bind fun r =>
      match r with
      | .error .limit =>
        .ofExcept (fail "Remote Run result contains too many entries" "result_too_many_entries")
      | .error e => .raise (.listing e)
      | .ok children =>
        match _hchildren : scanChildren isalpha maxArchiveBytes directory depth
            { s with pending := rest } children with
        | .error e => .raise e
        | .ok s' => scanLoop s'
termination_by s.left
decreasing_by
  have left := scanChildren_left _hchildren
  unfold Scan.left at left ⊢
  rw [_hpending, List.length_cons]
  dsimp only at left
  omega

/-- `_scan_tree`. -/
def scanTree : ListProg ScannedTree := scanLoop isalpha maxArchiveBytes ⟨[(['.'], 0)], [], [], 0⟩

end loop

/-! ## 5. What is scanned -/

/-- A listing that was asked for, and its answer. -/
structure Listing where
  directory : Text
  answer : ListAnswer

/-- The backend answers whatever it likes. -/
def ListOp.step (o : ListOp) (a : ListAnswer) (u v : List Listing) : Prop :=
  v = u ++ [⟨o.directory, a⟩]

/-- How deep a path lies: the root of the scan at 0, and its children at 1. -/
def depthOf (path : Text) : Nat := (posixParts path).length

/-- The sizes of the files. -/
def fileBytes (entries : List FileEntry) : Nat :=
  ((entries.filter fun e => e.isDir = false).map FileEntry.size).sum

section paths

variable {isalpha : Char → Bool} {path directory : Text}

theorem posixParts_spelled (h : Spelled isalpha path) : posixParts path = splitPath path := by
  unfold posixParts
  rw [List.filter_eq_self]
  intro part hpart
  have parts := h.parts part hpart
  simp [parts.1, parts.2.1]

theorem posixParts_root : posixParts ['.'] = [] := by decide

/-- A child lies one level below its directory. -/
theorem depthOf_child (h : Spelled isalpha path) (parent : parentPath path = directory) :
    depthOf path = depthOf directory + 1 := by
  obtain ⟨parents, name, hparts⟩ := splitPath_concat path
  have spelled : ∀ part ∈ parents, part ≠ [] ∧ part ≠ ['.'] ∧ part ≠ ['.', '.'] := by
    intro part hpart
    apply h.parts
    rw [hparts]
    exact List.mem_append_left _ hpart
  have slash : ∀ part ∈ parents, '/' ∉ part := by
    intro part hpart
    apply @notMem_part path
    rw [hparts]
    exact List.mem_append_left _ hpart
  unfold parentPath at parent
  rw [posixParts_spelled h, hparts, List.dropLast_concat] at parent
  have above : posixParts directory = parents := by
    rw [← parent]
    unfold asPosix
    split
    · rename_i hnil
      rw [hnil]
      exact posixParts_root
    · rename_i hne
      unfold posixParts
      rw [splitPath_join slash hne, List.filter_eq_self]
      intro part hpart
      simp [spelled part hpart]
  unfold depthOf
  rw [posixParts_spelled h, hparts, above, List.length_append, List.length_singleton]

theorem ne_root (h : Spelled isalpha path) : path ≠ ['.'] := by
  rintro rfl
  have root : splitPath ['.'] = [['.']] := by decide
  exact (h.parts ['.'] (by rw [root]; exact List.mem_singleton_self _)).2.1 rfl

end paths

section invariant

variable {isalpha : Char → Bool} {maxArchiveBytes depth : Nat} {log : List Listing}
variable {directory relative : Text} {s s' : Scan} {entry : ListedEntry}
variable {children : List ListedEntry}

/-- What is true of an entry that was accepted. -/
structure Found (isalpha : Char → Bool) (log : List Listing) (e : FileEntry) : Prop where
  normalized : normalizeSourceRelativePath isalpha e.relativePath false true = .ok e.relativePath
  /-- A child of the directory whose listing has it. -/
  listed : ∃ l ∈ log, ∃ children, l.answer = .ok children ∧
    parentPath e.relativePath = l.directory ∧ ∃ c ∈ children,
      c.relativePath = some e.relativePath ∧ c.isDir = e.isDir ∧ c.size = some (e.size : Int)
  depth : depthOf e.relativePath ≤
    if e.isDir then MAX_RESULT_DEPTH else MAX_RESULT_DEPTH + 1

/-- What the loop keeps. -/
structure Scanned (isalpha : Char → Bool) (maxArchiveBytes : Nat) (log : List Listing)
    (s : Scan) : Prop where
  unique : s.seen.Nodup
  paths : s.entries.map FileEntry.relativePath = s.seen.reverse
  count : s.seen.length ≤ MAX_RESULT_ENTRIES
  found : ∀ e ∈ s.entries, Found isalpha log e
  /-- No directory was listed, or is to be listed, twice. -/
  once : (log.map Listing.directory ++ s.pending.map Prod.fst).Nodup
  known : ∀ d ∈ log.map Listing.directory ++ s.pending.map Prod.fst, d = ['.'] ∨ d ∈ s.seen
  depths : ∀ p ∈ s.pending, depthOf p.1 = p.2 ∧ p.2 ≤ MAX_RESULT_DEPTH
  total : s.totalBytes = fileBytes s.entries
  within : s.totalBytes ≤ maxArchiveBytes

theorem Found.later {e : FileEntry} {l : Listing} (h : Found isalpha log e) :
    Found isalpha (log ++ [l]) e := by
  obtain ⟨listing, hl, rest⟩ := h.listed
  exact ⟨h.normalized, ⟨listing, List.mem_append_left _ hl, rest⟩, h.depth⟩

/-- A directory that was to be listed is listed. -/
theorem Scanned.listing {answer : ListAnswer} {rest : List (Text × Nat)}
    (h : Scanned isalpha maxArchiveBytes log s) (pending : s.pending = (directory, depth) :: rest) :
    Scanned isalpha maxArchiveBytes (log ++ [⟨directory, answer⟩]) { s with pending := rest } := by
  have same : (log ++ [Listing.mk directory answer]).map Listing.directory ++ rest.map Prod.fst =
      log.map Listing.directory ++ s.pending.map Prod.fst := by
    rw [pending]
    simp
  refine ⟨h.unique, h.paths, h.count, fun e he => (h.found e he).later, ?_, ?_, ?_, h.total,
    h.within⟩
  · rw [same]
    exact h.once
  · rw [same]
    exact h.known
  · intro p hp
    apply h.depths p
    rw [pending]
    exact List.mem_cons_of_mem _ hp

theorem fileBytes_concat {entries : List FileEntry} {e : FileEntry} :
    fileBytes (entries ++ [e]) = fileBytes entries + if e.isDir then 0 else e.size := by
  unfold fileBytes
  rw [List.filter_append, List.map_append, List.sum_append]
  cases h : e.isDir <;> simp [h]

/-- **A child keeps the invariant.** -/
theorem Scanned.child (h : Scanned isalpha maxArchiveBytes log s)
    (listed : ⟨directory, .ok children⟩ ∈ log) (hentry : entry ∈ children)
    (hdepth : depthOf directory = depth) (bound : depth ≤ MAX_RESULT_DEPTH)
    (added : Added isalpha maxArchiveBytes directory depth entry s s' relative) :
    Scanned isalpha maxArchiveBytes log s' := by
  have child := added.child
  have spelled : Spelled isalpha relative := (normalize_ok_iff.mp child.normalized).2.1
  have deeper : depthOf relative = depth + 1 := by
    rw [depthOf_child spelled child.parent, hdepth]
  have found : Found isalpha log (canonicalEntry relative entry) := by
    obtain ⟨n, hn⟩ := child.size
    refine ⟨child.normalized, ⟨_, listed, children, rfl, child.parent, entry, hentry, child.listed,
      rfl, ?_⟩, ?_⟩
    · unfold canonicalEntry
      rw [hn]
      rfl
    · show depthOf relative ≤ if entry.isDir then _ else _
      rw [deeper]
      rcases added.kind with ⟨hdir, hle, -⟩ | ⟨hfile, -⟩
      · rw [if_pos hdir]
        exact hle
      · rw [if_neg (Bool.eq_false_iff.mp hfile)]
        omega
  have fresh : relative ∉ log.map Listing.directory ++ s.pending.map Prod.fst := by
    intro hmem
    rcases h.known relative hmem with hroot | hseen
    · exact ne_root spelled hroot
    · exact added.fresh hseen
  have unique : s'.seen.Nodup := by
    rw [added.seen]
    exact List.nodup_cons.mpr ⟨added.fresh, h.unique⟩
  have paths : s'.entries.map FileEntry.relativePath = s'.seen.reverse := by
    rw [added.entries, added.seen, List.map_append, h.paths, List.reverse_cons]
    rfl
  have count : s'.seen.length ≤ MAX_RESULT_ENTRIES := by
    rw [added.seen]
    exact added.room
  have found : ∀ e ∈ s'.entries, Found isalpha log e := by
    rw [added.entries]
    intro e he
    rcases List.mem_append.mp he with he | he
    · exact h.found e he
    · rw [List.mem_singleton.mp he]
      exact found
  have known : ∀ d, d = ['.'] ∨ d ∈ s.seen → d = ['.'] ∨ d ∈ s'.seen := by
    rw [added.seen]
    exact fun d hd => hd.imp_right (List.mem_cons_of_mem _)
  rcases added.kind with ⟨hdir, hle, hpending, htotal⟩ | ⟨hfile, hpending, htotal, hwithin⟩
  · refine ⟨unique, paths, count, found, ?_, ?_, ?_, ?_, ?_⟩
    · rw [hpending, List.map_cons]
      exact List.nodup_middle.mpr (List.nodup_cons.mpr ⟨fresh, h.once⟩)
    · rw [hpending, List.map_cons]
      intro d hd
      rcases List.mem_cons.mp (List.perm_middle.mem_iff.mp hd) with rfl | hd
      · rw [added.seen]
        exact .inr List.mem_cons_self
      · exact known d (h.known d hd)
    · rw [hpending]
      intro p hp
      rcases List.mem_cons.mp hp with rfl | hp
      · exact ⟨deeper, hle⟩
      · exact h.depths p hp
    · rw [htotal, added.entries, fileBytes_concat, h.total]
      simp [canonicalEntry, hdir]
    · rw [htotal]
      exact h.within
  · refine ⟨unique, paths, count, found, ?_, ?_, ?_, ?_, hwithin⟩
    · rw [hpending]
      exact h.once
    · rw [hpending]
      exact fun d hd => known d (h.known d hd)
    · rw [hpending]
      exact h.depths
    · rw [htotal, added.entries, fileBytes_concat, h.total]
      simp [canonicalEntry, hfile]

theorem Scanned.each (h : Scanned isalpha maxArchiveBytes log s) {rest : List ListedEntry}
    (listed : ⟨directory, .ok children⟩ ∈ log) (sub : ∀ entry ∈ rest, entry ∈ children)
    (hdepth : depthOf directory = depth) (bound : depth ≤ MAX_RESULT_DEPTH)
    (scanned : scanChildren isalpha maxArchiveBytes directory depth s rest = .ok s') :
    Scanned isalpha maxArchiveBytes log s' := by
  induction rest generalizing s with
  | nil =>
    obtain rfl := Except.ok.inj scanned
    exact h
  | cons entry rest ih =>
    unfold scanChildren at scanned
    obtain ⟨next, hchild, hrest⟩ := bind_eq_ok.mp scanned
    obtain ⟨relative, added⟩ := scanChild_ok hchild
    have kept := h.child listed (sub entry List.mem_cons_self) hdepth bound added
    exact ih kept (fun e he => sub e (List.mem_cons_of_mem _ he)) hrest

/-- A tree that was accepted. -/
structure Within (isalpha : Char → Bool) (maxArchiveBytes : Nat) (log : List Listing)
    (tree : ScannedTree) : Prop where
  count : tree.entries.length ≤ MAX_RESULT_ENTRIES
  unique : (tree.entries.map FileEntry.relativePath).Nodup
  found : ∀ e ∈ tree.entries, Found isalpha log e
  total : tree.totalBytes = fileBytes tree.entries
  within : tree.totalBytes ≤ maxArchiveBytes

/-- **A scan is bounded**, whether it returns or raises. -/
structure Bounded (isalpha : Char → Bool) (maxArchiveBytes : Nat) (r : Collected ScannedTree)
    (log : List Listing) : Prop where
  /-- No directory is listed twice. -/
  once : (log.map Listing.directory).Nodup
  few : log.length ≤ MAX_RESULT_ENTRIES + 1
  accepted : ∀ tree, r = .ok tree → Within isalpha maxArchiveBytes log tree

theorem Scanned.once_listed (h : Scanned isalpha maxArchiveBytes log s) :
    (log.map Listing.directory).Nodup := (List.nodup_append.mp h.once).1

/-- Only the root and what was accepted is listed. -/
theorem Scanned.few (h : Scanned isalpha maxArchiveBytes log s) :
    log.length ≤ MAX_RESULT_ENTRIES + 1 := by
  have sub : log.map Listing.directory ⊆ ['.'] :: s.seen := by
    intro d hd
    rcases h.known d (List.mem_append_left _ hd) with rfl | hseen
    · exact List.mem_cons_self
    · exact List.mem_cons_of_mem _ hseen
  have length := (h.once_listed.subperm sub).length_le
  rw [List.length_map, List.length_cons] at length
  have := h.count
  omega

theorem Scanned.raised (h : Scanned isalpha maxArchiveBytes log s) {e : CollectError} :
    Bounded isalpha maxArchiveBytes (.error e) log :=
  ⟨h.once_listed, h.few, nofun⟩

theorem Scanned.returned (h : Scanned isalpha maxArchiveBytes log s) :
    Bounded isalpha maxArchiveBytes
      (.ok ⟨s.entries.insertionSort fun a b => a.relativePath ≤ b.relativePath, s.totalBytes⟩)
      log := by
  refine ⟨h.once_listed, h.few, fun tree htree => ?_⟩
  obtain rfl := Except.ok.inj htree
  have perm := List.perm_insertionSort
    (fun a b : FileEntry => a.relativePath ≤ b.relativePath) s.entries
  refine ⟨?_, ?_, fun e he => h.found e (perm.mem_iff.mp he), ?_, h.within⟩
  · have count := h.count
    have length := congrArg List.length h.paths
    rw [List.length_map, List.length_reverse] at length
    rw [perm.length_eq, length]
    exact count
  · rw [(perm.map _).nodup_iff, h.paths, List.nodup_reverse]
    exact h.unique
  · show s.totalBytes = _
    rw [h.total]
    exact (((perm.filter _).map _).sum_eq).symm

/-- **The loop keeps the invariant to its end**, whatever is listed. -/
theorem scanLoop_wp (h : Scanned isalpha maxArchiveBytes log s) :
    (scanLoop isalpha maxArchiveBytes s).wp (alone ListOp.step)
      (Bounded isalpha maxArchiveBytes) log := by
  generalize hleft : s.left = left
  induction left using Nat.strong_induction_on generalizing s log with
  | h left ih =>
    unfold scanLoop
    split
    · exact h.returned
    · rename_i directory depth rest pending
      obtain ⟨hdepth, bound⟩ := h.depths (directory, depth) (by
        rw [pending]
        exact List.mem_cons_self)
      rintro u rfl - answer v hv
      obtain rfl : v = _ := hv
      refine ⟨trivial, ?_⟩
      have listed : Scanned isalpha maxArchiveBytes (log ++ [⟨directory, answer⟩])
          { s with pending := rest } := h.listing pending
      cases answer with
      | error e =>
        cases e with
        | limit => exact listed.raised
        | other exception => exact listed.raised
      | ok children =>
        dsimp only [Prog.bind]
        split
        · exact listed.raised
        · rename_i s' hchildren
          have kept := listed.each (List.mem_append_right _ List.mem_cons_self)
            (fun _ he => he) hdepth bound hchildren
          apply ih s'.left _ kept rfl
          have left := scanChildren_left hchildren
          unfold Scan.left at left hleft ⊢
          rw [pending, List.length_cons] at hleft
          dsimp only at left
          omega

theorem scanTree_wp : (scanTree isalpha maxArchiveBytes).wp (alone ListOp.step)
    (Bounded isalpha maxArchiveBytes) [] := by
  apply scanLoop_wp
  refine ⟨.nil, rfl, Nat.zero_le _, by simp, by simp, by simp, ?_, rfl, Nat.zero_le _⟩
  intro p hp
  rw [List.mem_singleton.mp hp]
  exact ⟨congrArg List.length posixParts_root, Nat.zero_le _⟩

end invariant

/-- A backend, which may look at what it answered before. -/
abbrev Backend := List Listing → ListOp → ListAnswer

def Backend.step (backend : Backend) (o : ListOp) (a : ListAnswer) (u v : List Listing) : Prop :=
  a = backend u o ∧ o.step a u v

/-- **The scan of a result is bounded against any backend.** It comes to an end, it lists no
    directory twice, and either it raises or it has a tree within the limits: of every entry the
    path is normalized, unique and a child of the directory whose listing has it, a directory
    lies at most `MAX_RESULT_DEPTH` deep, and a file in such a directory or above. -/
theorem scanTree_bounded (isalpha : Char → Bool) (maxArchiveBytes : Nat) :
    (∀ backend : Backend, ∃ r log,
      Exec backend.step (scanTree isalpha maxArchiveBytes) [] r log) ∧
    ∀ r log, Exec ListOp.step (scanTree isalpha maxArchiveBytes) [] r log →
      Bounded isalpha maxArchiveBytes r log := by
  constructor
  · intro backend
    have answers : ∀ (o : ListOp) (w : List Listing), True → ∃ a v, backend.step o a w v ∧ True :=
      fun o w _ => ⟨backend w o, _, ⟨rfl, rfl⟩, trivial⟩
    obtain ⟨r, log, ran, -⟩ := Exec.within answers (scanTree isalpha maxArchiveBytes) trivial
    exact ⟨r, log, ran⟩
  · intro r log ran
    exact ran.post scanTree_wp

/-! ## 6. Directories in directories -/

section nested

/-- The directory `a`, and `a` in it, and so on; the root for 0. -/
def nestedPath (n : Nat) : Text := asPosix (List.replicate n ['a'])

def nestedChild (n : Nat) : ListedEntry :=
  ⟨['a'], some (nestedPath (n + 1)), n < MAX_RESULT_DEPTH, some 0, some 0⟩

/-- Every directory has one child, which is a directory but for the last. -/
def nestedLog (n : Nat) : List Listing :=
  (List.range n).map fun k => ⟨nestedPath k, .ok [nestedChild k]⟩

def nestedEntries (n : Nat) : List FileEntry :=
  (List.range n).map fun k => ⟨['a'], nestedPath (k + 1), k < MAX_RESULT_DEPTH, 0, 0⟩

def nestedScan (n : Nat) : Scan where
  pending := if n ≤ MAX_RESULT_DEPTH then [(nestedPath n, n)] else []
  seen := ((nestedEntries n).map FileEntry.relativePath).reverse
  entries := nestedEntries n
  totalBytes := 0

def nestedTree : ScannedTree :=
  ⟨(nestedEntries (MAX_RESULT_DEPTH + 1)).insertionSort fun a b => a.relativePath ≤ b.relativePath,
    0⟩

theorem nested_children : ∀ n < MAX_RESULT_DEPTH + 1,
    scanChildren Char.isAlpha 0 (nestedPath n) n { nestedScan n with pending := [] }
      [nestedChild n] = .ok (nestedScan (n + 1)) := by
  decide +kernel

/-- A turn of the loop whose listing passes. -/
theorem scanLoop_turn {isalpha : Char → Bool} {maxArchiveBytes depth : Nat} {directory : Text}
    {rest : List (Text × Nat)} {s s' : Scan} {children : List ListedEntry}
    {log log' : List Listing} {r : Collected ScannedTree}
    (pending : s.pending = (directory, depth) :: rest)
    (passes : scanChildren isalpha maxArchiveBytes directory depth { s with pending := rest }
      children = .ok s')
    (later : Exec ListOp.step (scanLoop isalpha maxArchiveBytes s')
      (log ++ [⟨directory, .ok children⟩]) r log') :
    Exec ListOp.step (scanLoop isalpha maxArchiveBytes s) log r log' := by
  unfold scanLoop
  split
  · rename_i hnil
    rw [pending] at hnil
    cases hnil
  · rename_i directory' depth' rest' pending'
    rw [pending] at pending'
    obtain ⟨hp, rfl⟩ := List.cons.inj pending'
    obtain ⟨rfl, rfl⟩ := Prod.mk.inj hp
    have here : ListOp.step ⟨directory, MAX_RESULT_ENTRIES - s.seen.length⟩ (.ok children) log
        (log ++ [⟨directory, .ok children⟩]) := rfl
    apply Exec.op here
    dsimp only [Prog.bind]
    split
    · rename_i e he
      rw [passes] at he
      cases he
    · rename_i next hnext
      rw [passes] at hnext
      obtain rfl := Except.ok.inj hnext
      exact later

theorem nested_run {n : Nat} (h : n ≤ MAX_RESULT_DEPTH + 1) :
    Exec ListOp.step (scanLoop Char.isAlpha 0 (nestedScan n)) (nestedLog n) (.ok nestedTree)
      (nestedLog (MAX_RESULT_DEPTH + 1)) := by
  induction h using Nat.decreasingInduction with
  | self =>
    unfold scanLoop
    split
    · exact .ret
    · rename_i hpending
      cases hpending
  | of_succ n h ih =>
    have pending : (nestedScan n).pending = [(nestedPath n, n)] := if_pos (Nat.le_of_lt_succ h)
    apply scanLoop_turn pending (nested_children n h)
    have log : nestedLog n ++ [⟨nestedPath n, .ok [nestedChild n]⟩] = nestedLog (n + 1) := by
      unfold nestedLog
      rw [List.range_succ, List.map_append]
      rfl
    rw [log]
    exact ih

/-- **A file lies deeper than `MAX_RESULT_DEPTH`**, in a directory at that depth, and its tree is
    accepted. -/
theorem scanTree_nested :
    Exec ListOp.step (scanTree Char.isAlpha 0) [] (.ok nestedTree)
        (nestedLog (MAX_RESULT_DEPTH + 1)) ∧
      ∃ e ∈ nestedTree.entries,
        e.isDir = false ∧ depthOf e.relativePath = MAX_RESULT_DEPTH + 1 := by
  refine ⟨nested_run (Nat.zero_le _), ?_⟩
  refine ⟨⟨['a'], nestedPath 65, false, 0, 0⟩, ?_, rfl, by decide +kernel⟩
  rw [nestedTree, List.mem_insertionSort]
  decide +kernel

end nested

end Termroom.Collect
