import Termroom.Sources.Manifest

/-!
# Exclusions

What a Workspace Source leaves out is decided in several places. The scans of a tree
(`scan_local_workspace`, and the one over SFTP) leave out a directory with all that is below
it. The Node opens a file by its path (`_workspace_source_file`), and the collector of results
tells by its path whether a file is left out (`collectorExcludes`); both look at that path and at
no directory above it.

A directory name such as `node_modules` excludes a path wherever it stands in it. A file name
such as `.env` or `*.pem` does so at the end only. So a directory that has such a name is where
the scans and the others part ways: they agree exactly if it hides no file
(`exclusions_agree_iff`).
-/

set_option autoImplicit false

namespace Termroom.Sources

open Conc Archive
open Data (RawText)

/-! ## 1. Names -/

def defaultExcludedDirectoryNames : List Text :=
  [".git", ".hg", ".svn", ".venv", "venv", "node_modules", "__pycache__", ".pytest_cache",
    ".ruff_cache", ".mypy_cache", ".tox", ".cache", ".uv-cache"].map String.toList

def defaultExcludedFileNames : List Text :=
  [".env", ".env.local", ".env.development", ".env.production", ".env.test", "id_dsa", "id_ecdsa",
    "id_ed25519", "id_rsa"].map String.toList

def privateKeySuffixes : List Text := [".key", ".p12", ".pfx", ".pem"].map String.toList

/-- What is excluded as the last part of a path. -/
def excludedFileName (name : Text) : Bool :=
  defaultExcludedFileNames.contains name || ".env.".toList.isPrefixOf name ||
    privateKeySuffixes.any fun suffix => suffix.isSuffixOf (casefold name)

/-- What `is_default_workspace_excluded` says of a path that it accepts. -/
def defaultExcluded (path : Text) : Bool :=
  (splitPath path).any (fun part => defaultExcludedDirectoryNames.contains part) ||
    excludedFileName ((splitPath path).getLastD [])

/-- `path.startswith(directory + "/")`. -/
def below (directory path : Text) : Bool := (directory ++ ['/']).isPrefixOf path

/-- `_is_related_to_explicit_include`, `_workspace_source_related` and `_related`. -/
def related (path : Text) (includes : List Text) : Bool :=
  includes.any fun i => path = i || below i path || below path i

/-- The path is a boundary, or below one. -/
def within (path : Text) (boundaries : List Text) : Bool :=
  boundaries.any fun boundary => path = boundary || below boundary path

/-- `is_mandatory_excluded`, and `_is_excluded_result_path` of the collector. -/
def isMandatoryExcluded (path : Text) (boundaries : List Text) : Bool :=
  (splitPath path).contains ".termroom".toList || within path boundaries

variable (isalpha : Char → Bool)

def isDefaultWorkspaceExcluded (relativePath : Text) : Checked Bool := do
  let path ← normalizeSourceRelativePath isalpha relativePath
  return defaultExcluded path

/-! ## 2. Trees -/

/-- What is in a directory, and is none itself. The target of a link is any bytes, as
    `os.readlink` decodes them; a name that is no UTF-8 is refused wherever one is met. -/
inductive Leaf where
  | file (size : Nat) (mtimeNs : Int) (executable : Bool)
  | symlink (mtimeNs : Int) (target : RawText)
  | special
  deriving DecidableEq, Repr

/-- A directory, as `sorted(os.scandir())` lists it. -/
inductive Listing where
  | nil
  | leaf (name : Text) (node : Leaf) (rest : Listing)
  | directory (name : Text) (mtimeNs : Int) (children rest : Listing)
  deriving DecidableEq, Repr

namespace Listing

def names : Listing → List Text
  | nil => []
  | leaf name _ rest | directory name _ _ rest => name :: rest.names

/-- The names are file names, and no two of a directory are the same. -/
def Sound : Listing → Prop
  | nil => True
  | leaf name _ rest => name ≠ [] ∧ '/' ∉ name ∧ name ∉ rest.names ∧ rest.Sound
  | directory name _ children rest =>
    name ≠ [] ∧ '/' ∉ name ∧ name ∉ rest.names ∧ children.Sound ∧ rest.Sound

/-- `lstat` along real directories: `none` for a directory. -/
def lstat : Listing → List Text → Option (Option Leaf)
  | _, [] => none
  | nil, _ => none
  | leaf name node rest, part :: more =>
    if part = name then if more = [] then some (some node) else none else rest.lstat (part :: more)
  | directory name _ children rest, part :: more =>
    if part = name then if more = [] then some none else children.lstat more
    else rest.lstat (part :: more)

end Listing

/-- The tree of a Source. -/
structure SourceTree where
  listing : Listing
  sound : listing.Sound

/-! ## 3. The scans -/

/-- `f"{prefix}/{child.name}" if prefix else child.name`. -/
def child (parent name : Text) : Text := if parent = [] then name else parent ++ '/' :: name

/-- What a scan collects of a child that is not left out. -/
def collectLeaf (stamp : Int → Int) (special : String) (relative : Text) :
    Leaf → Checked WorkspaceEntry
  | .file size mtimeNs executable =>
    .ok { relativePath := relative, kind := .file, size := size, mtimeNs := stamp mtimeNs, executable }
  | .symlink mtimeNs target => do
    let _ ← validateContainedSymlinkTarget isalpha relative target
    return { relativePath := relative, kind := .symlink, mtimeNs := stamp mtimeNs,
             linkTarget := target }
  | .special => .error ⟨special ++ String.ofList relative, "source_special_file", relative⟩

/-- The recursion of a scan. `visit` gives the relative path of a child, or leaves it out. -/
def walk (visit : Text → Text → Checked (Option Text)) (stamp : Int → Int) (special : String) :
    (parent : Text) → Listing → Checked (List WorkspaceEntry)
  | _, .nil => .ok []
  | parent, .leaf name node rest => do
    match ← visit parent name with
    | none => walk visit stamp special parent rest
    | some relative =>
      let entry ← collectLeaf isalpha stamp special relative node
      let later ← walk visit stamp special parent rest
      return entry :: later
  | parent, .directory name mtimeNs children rest => do
    match ← visit parent name with
    | none => walk visit stamp special parent rest
    | some relative =>
      let inner ← walk visit stamp special relative children
      let later ← walk visit stamp special parent rest
      return { relativePath := relative, kind := .directory, mtimeNs := stamp mtimeNs } ::
        (inner ++ later)

/-- A child of the Local scan. -/
def visitLocal (mandatoryRelative includes : List Text) (parent name : Text) :
    Checked (Option Text) := do
  let relative ← normalizeSourceRelativePath isalpha (child parent name) false true
  if isMandatoryExcluded relative mandatoryRelative then return none
  let excluded ← isDefaultWorkspaceExcluded isalpha relative
  if excluded ∧ ¬related relative includes then return none
  return some relative

/-- A child of the scan over SFTP. -/
def visitRemote (exclusions includes : List Text) (parent name : Text) :
    Checked (Option Text) := do
  if name = ".termroom".toList then return none
  let relative ← normalizeSourceRelativePath isalpha (child parent name)
  if within relative exclusions then return none
  let excluded ← isDefaultWorkspaceExcluded isalpha relative
  if excluded ∧ ¬related relative includes then return none
  return some relative

/-- `_WorkspaceSourceContext`, with the private boundaries of the runtime: resolved paths, by
    their parts. -/
structure SourceContext where
  sourceRoot : List Text
  boundaries : List (List Text)
  explicitlyIncluded : List Text
  parts : ∀ boundary ∈ boundaries, ∀ part ∈ boundary, '/' ∉ part

/-- `mandatory_relative`. -/
def SourceContext.mandatoryRelative (context : SourceContext) : List Text :=
  (context.boundaries.filter fun boundary => context.sourceRoot.isPrefixOf boundary).map
    fun boundary => joinPath (boundary.drop context.sourceRoot.length)

def scanLocalWorkspace (context : SourceContext) (tree : SourceTree) :
    Checked WorkspaceManifest := do
  refuse (∃ boundary ∈ context.boundaries, boundary <+: context.sourceRoot)
    "The selected Workspace is inside Termroom's private state boundary" "source_private_boundary"
    ('/' :: joinPath context.sourceRoot)
  let includes ← context.explicitlyIncluded.mapM fun p => normalizeSourceRelativePath isalpha p
  let collected ← walk isalpha (visitLocal isalpha context.mandatoryRelative includes) id
    "Unsupported special file in Workspace Source: " [] tree.listing
  buildWorkspaceManifest isalpha collected context.mandatoryRelative

/-- `_SSHRemoteWorkspaceSnapshotSource`: its times are whole seconds. -/
def scanRemoteWorkspace (exclusions explicitlyIncluded : List Text) (tree : SourceTree) :
    Checked WorkspaceManifest := do
  let exclusions ← exclusions.mapM fun p => normalizeSourceRelativePath isalpha p
  let includes ← explicitlyIncluded.mapM fun p => normalizeSourceRelativePath isalpha p
  let collected ← walk isalpha (visitRemote isalpha exclusions includes)
    (fun mtimeNs => mtimeNs / 10 ^ 9 * 10 ^ 9) "Unsupported special file in remote Workspace: " []
    tree.listing
  buildWorkspaceManifest isalpha collected exclusions

/-! ## 4. The Node's reader and the collector -/

/-- `_workspace_source_file`; what it opens is the file that it answers. -/
def workspaceSourceFile (context : SourceContext) (tree : SourceTree) (relativePath : Text) :
    Checked WorkspaceEntry := do
  let relative ← normalizeSourceRelativePath isalpha relativePath
  let excluded ← isDefaultWorkspaceExcluded isalpha relative
  refuse (excluded ∧ ¬related relative context.explicitlyIncluded)
    "The requested file is excluded from the Workspace Source" "source_excluded" relative
  match tree.listing.lstat (splitPath relative) with
  | none | some (some (.symlink _ _)) =>
    .error ⟨"Cannot inspect Workspace file: " ++ String.ofList relative, "source_read_failed",
      relative⟩
  | some found =>
    refuse (∃ boundary ∈ context.boundaries,
        boundary <+: context.sourceRoot ++ splitPath relative)
      "The requested file is inside Termroom's private state boundary" "source_private_boundary"
      relative
    match found with
    | some (.file size mtimeNs executable) =>
      return { relativePath := relative, kind := .file, size := size, mtimeNs := mtimeNs, executable }
    | _ =>
      .error ⟨"Workspace path is no longer a regular file", "source_entry_type", relative⟩

/-- What `_build_plan` leaves out of a result, by its path and the baseline. -/
def collectorExcludes (baseline : WorkspaceManifest) (path : Text) : Bool :=
  isMandatoryExcluded path baseline.excludedPrefixes ||
    (baseline.entries.all fun e => e.relativePath ≠ path) && defaultExcluded path

/-! ## 5. Paths above a path -/

variable {isalpha} {path directory name parent : Text} {includes boundaries : List Text}

theorem below_eq_true : below directory path = true ↔ Below directory path := by
  simp [below, Below]

/-- A private directory is private with all that is below it. -/
theorem mandatory_below (h : isMandatoryExcluded directory boundaries = true)
    (habove : Below directory path) : isMandatoryExcluded path boundaries = true := by
  unfold isMandatoryExcluded within at h ⊢
  simp only [Bool.or_eq_true, List.any_eq_true, decide_eq_true_eq, below_eq_true,
    List.contains_iff_mem] at h ⊢
  rcases h with h | ⟨boundary, hboundary, h⟩
  · obtain ⟨more, -, hparts⟩ := below_iff.mp habove
    exact .inl (hparts ▸ List.mem_append_left _ h)
  · refine .inr ⟨boundary, hboundary, .inr ?_⟩
    rcases h with rfl | h
    · exact habove
    · exact h.trans habove

/-! ## 6. Which files a walk lists -/

namespace Listing

/-- There is a regular file at the path. -/
def FileAt (tree : Listing) (parts : List Text) : Prop :=
  ∃ size mtimeNs executable, tree.lstat parts = some (some (.file size mtimeNs executable))

variable {tree rest children : Listing} {parts : List Text} {node : Leaf} {mtimeNs : Int}

theorem not_fileAt_nil : ¬FileAt tree [] := by
  intro ⟨_, _, _, h⟩
  cases tree <;> exact nomatch h

theorem FileAt.head (h : FileAt tree parts) :
    ∃ name ∈ tree.names, ∃ more, parts = name :: more := by
  induction tree with
  | nil =>
    obtain ⟨_, _, _, h⟩ := h
    cases parts <;> exact nomatch h
  | leaf name node rest ih =>
    cases parts with
    | nil => exact absurd h not_fileAt_nil
    | cons part more =>
      by_cases hpart : part = name
      · exact ⟨part, hpart ▸ List.mem_cons_self, more, rfl⟩
      · obtain ⟨_, _, _, h⟩ := h
        rw [lstat, if_neg hpart] at h
        obtain ⟨name', hmem, hmore⟩ := ih ⟨_, _, _, h⟩
        exact ⟨name', List.mem_cons_of_mem _ hmem, hmore⟩
  | directory name mtimeNs children rest _ ih =>
    cases parts with
    | nil => exact absurd h not_fileAt_nil
    | cons part more =>
      by_cases hpart : part = name
      · exact ⟨part, hpart ▸ List.mem_cons_self, more, rfl⟩
      · obtain ⟨_, _, _, h⟩ := h
        rw [lstat, if_neg hpart] at h
        obtain ⟨name', hmem, hmore⟩ := ih ⟨_, _, _, h⟩
        exact ⟨name', List.mem_cons_of_mem _ hmem, hmore⟩

theorem not_fileAt_fresh {more : List Text} (fresh : name ∉ rest.names) :
    ¬FileAt rest (name :: more) := by
  intro h
  obtain ⟨_, hmem, _, hsplit⟩ := h.head
  exact fresh ((List.cons.inj hsplit).1 ▸ hmem)

theorem fileAt_leaf (fresh : name ∉ rest.names) : FileAt (.leaf name node rest) parts ↔
    (parts = [name] ∧ ∃ size mtimeNs executable, node = .file size mtimeNs executable) ∨
      FileAt rest parts := by
  cases parts with
  | nil => simp [not_fileAt_nil]
  | cons part more =>
    by_cases hpart : part = name
    · subst hpart
      constructor
      · intro ⟨size, mtimeNs, executable, h⟩
        rw [lstat, if_pos rfl] at h
        by_cases hmore : more = []
        · rw [if_pos hmore] at h
          exact .inl ⟨by rw [hmore], size, mtimeNs, executable,
            Option.some.inj (Option.some.inj h)⟩
        · rw [if_neg hmore] at h
          exact nomatch h
      · intro h
        rcases h with ⟨hparts, size, mtimeNs, executable, rfl⟩ | h
        · obtain ⟨-, rfl⟩ := List.cons.inj hparts
          exact ⟨size, mtimeNs, executable, by rw [lstat, if_pos rfl, if_pos rfl]⟩
        · exact absurd h (not_fileAt_fresh fresh)
    · simp [FileAt, lstat, hpart]

theorem fileAt_directory (fresh : name ∉ rest.names) :
    FileAt (.directory name mtimeNs children rest) parts ↔
      (∃ more, parts = name :: more ∧ FileAt children more) ∨ FileAt rest parts := by
  cases parts with
  | nil => simp [not_fileAt_nil]
  | cons part more =>
    by_cases hpart : part = name
    · subst hpart
      constructor
      · intro ⟨size, mtimeNs, executable, h⟩
        rw [lstat, if_pos rfl] at h
        by_cases hmore : more = []
        · rw [if_pos hmore] at h
          exact nomatch h
        · rw [if_neg hmore] at h
          exact .inl ⟨more, rfl, size, mtimeNs, executable, h⟩
      · intro h
        rcases h with ⟨more, hparts, size, mtimeNs, executable, h⟩ | h
        · obtain ⟨-, rfl⟩ := List.cons.inj hparts
          have hfile : FileAt children more := ⟨_, _, _, h⟩
          have hmore : more ≠ [] := fun hnil => not_fileAt_nil (hnil ▸ hfile)
          exact ⟨size, mtimeNs, executable, by rw [lstat, if_pos rfl, if_neg hmore, h]⟩
        · exact absurd h (not_fileAt_fresh fresh)
    · simp [FileAt, lstat, hpart]

/-- The parts of a file's path are file names. -/
theorem FileAt.names (sound : tree.Sound) (h : FileAt tree parts) :
    ∀ part ∈ parts, part ≠ [] ∧ '/' ∉ part := by
  induction tree generalizing parts with
  | nil =>
    obtain ⟨_, hmem, -⟩ := h.head
    exact absurd hmem List.not_mem_nil
  | leaf name node rest ih =>
    obtain ⟨hne, hslash, fresh, hrest⟩ := sound
    rcases (fileAt_leaf fresh).mp h with ⟨rfl, -⟩ | h
    · simpa using ⟨hne, hslash⟩
    · exact ih hrest h
  | directory name mtimeNs children rest ihc ihr =>
    obtain ⟨hne, hslash, fresh, hchildren, hrest⟩ := sound
    rcases (fileAt_directory fresh).mp h with ⟨more, hparts, hmore⟩ | h
    · rw [hparts]
      intro part hpart
      rcases List.mem_cons.mp hpart with rfl | hpart
      · exact ⟨hne, hslash⟩
      · exact ihc hchildren hmore part hpart
    · exact ihr hrest h

end Listing

/-- The path of a descendant. -/
def descendant (parent : Text) (parts : List Text) : Text := parts.foldl child parent

/-- A walk goes down all the way. -/
def PassesAll (pass : Text → Prop) : Text → List Text → Prop
  | _, [] => True
  | parent, name :: parts => pass (child parent name) ∧ PassesAll pass (child parent name) parts

/-- A walk from `parent` comes to a file at the path. -/
def Shown (pass : Text → Prop) (parent : Text) (tree : Listing) (path : Text) : Prop :=
  ∃ parts, path = descendant parent parts ∧ tree.FileAt parts ∧ PassesAll pass parent parts

section shown

variable {pass : Text → Prop} {tree rest children : Listing} {node : Leaf} {mtimeNs : Int}

theorem shown_leaf (fresh : name ∉ rest.names) :
    Shown pass parent (.leaf name node rest) path ↔
      (path = child parent name ∧ pass path ∧
        ∃ size mtimeNs executable, node = .file size mtimeNs executable) ∨
      Shown pass parent rest path := by
  constructor
  · intro ⟨parts, hpath, hfile, hpass⟩
    rcases (Listing.fileAt_leaf fresh).mp hfile with ⟨rfl, hnode⟩ | hfile
    · exact .inl ⟨hpath, hpath ▸ hpass.1, hnode⟩
    · exact .inr ⟨parts, hpath, hfile, hpass⟩
  · intro h
    rcases h with ⟨hpath, hpass, hnode⟩ | ⟨parts, hpath, hfile, hpass⟩
    · exact ⟨[name], hpath, (Listing.fileAt_leaf fresh).mpr (.inl ⟨rfl, hnode⟩), hpath ▸ hpass,
        trivial⟩
    · exact ⟨parts, hpath, (Listing.fileAt_leaf fresh).mpr (.inr hfile), hpass⟩

theorem shown_directory (fresh : name ∉ rest.names) :
    Shown pass parent (.directory name mtimeNs children rest) path ↔
      (pass (child parent name) ∧ Shown pass (child parent name) children path) ∨
      Shown pass parent rest path := by
  constructor
  · intro ⟨parts, hpath, hfile, hpass⟩
    rcases (Listing.fileAt_directory fresh).mp hfile with ⟨more, rfl, hmore⟩ | hfile
    · exact .inl ⟨hpass.1, more, hpath, hmore, hpass.2⟩
    · exact .inr ⟨parts, hpath, hfile, hpass⟩
  · intro h
    rcases h with ⟨hname, parts, hpath, hfile, hpass⟩ | ⟨parts, hpath, hfile, hpass⟩
    · exact ⟨name :: parts, hpath, (Listing.fileAt_directory fresh).mpr (.inl ⟨parts, rfl, hfile⟩),
        hname, hpass⟩
    · exact ⟨parts, hpath, (Listing.fileAt_directory fresh).mpr (.inr hfile), hpass⟩

/-- `visit` gives the path of a child that passes, and leaves out the others. -/
def Visits (visit : Text → Text → Checked (Option Text)) (pass : Text → Prop) : Prop :=
  ∀ parent name r, '/' ∉ name → visit parent name = .ok r →
    r = some (child parent name) ∧ pass (child parent name) ∨
      r = none ∧ ¬pass (child parent name)

/-- A file is listed at the path. -/
def ListsFile (entries : List WorkspaceEntry) (path : Text) : Prop :=
  ∃ e ∈ entries, e.relativePath = path ∧ e.kind = .file

theorem listsFile_cons {entry : WorkspaceEntry} {entries : List WorkspaceEntry} :
    ListsFile (entry :: entries) path ↔
      (entry.relativePath = path ∧ entry.kind = .file) ∨ ListsFile entries path := by
  simp [ListsFile]

theorem listsFile_append {entries later : List WorkspaceEntry} :
    ListsFile (entries ++ later) path ↔ ListsFile entries path ∨ ListsFile later path := by
  simp [ListsFile, or_and_right, exists_or]

theorem collectLeaf_ok {stamp : Int → Int} {special : String} {relative : Text}
    {entry : WorkspaceEntry} (h : collectLeaf isalpha stamp special relative node = .ok entry) :
    entry.relativePath = relative ∧ (entry.kind = .file ↔
      ∃ size mtimeNs executable, node = .file size mtimeNs executable) := by
  cases node with
  | file size mtimeNs executable =>
    obtain rfl := Except.ok.inj h
    simp
  | symlink mtimeNs target =>
    obtain ⟨_, -, h⟩ := bind_eq_ok.mp h
    obtain rfl := Except.ok.inj h
    simp
  | special => exact nomatch h

/-- **A walk lists the files that it comes to.** -/
theorem walk_lists {visit : Text → Text → Checked (Option Text)} {stamp : Int → Int}
    {special : String} {entries : List WorkspaceEntry} (visits : Visits visit pass)
    (sound : tree.Sound) (h : walk isalpha visit stamp special parent tree = .ok entries) :
    ListsFile entries path ↔ Shown pass parent tree path := by
  induction tree generalizing parent entries with
  | nil =>
    obtain rfl := Except.ok.inj h
    constructor
    · intro ⟨_, hmem, _⟩
      exact absurd hmem List.not_mem_nil
    · intro ⟨parts, _, hfile, _⟩
      obtain ⟨_, hmem, -⟩ := hfile.head
      exact absurd hmem List.not_mem_nil
  | leaf name node rest ih =>
    obtain ⟨-, hslash, fresh, hrest⟩ := sound
    obtain ⟨r, hvisit, h⟩ := bind_eq_ok.mp h
    rw [shown_leaf fresh]
    rcases visits parent name r hslash hvisit with ⟨rfl, hpass⟩ | ⟨rfl, hout⟩
    · obtain ⟨entry, hentry, h⟩ := bind_eq_ok.mp h
      obtain ⟨later, hlater, h⟩ := bind_eq_ok.mp h
      obtain rfl := Except.ok.inj h
      obtain ⟨hpath, hkind⟩ := collectLeaf_ok hentry
      rw [listsFile_cons, ih hrest hlater, hkind, hpath]
      apply or_congr_left
      constructor
      · intro ⟨heq, hnode⟩
        exact ⟨heq.symm, heq ▸ hpass, hnode⟩
      · intro ⟨heq, _, hnode⟩
        exact ⟨heq.symm, hnode⟩
    · rw [ih hrest h]
      constructor
      · exact .inr
      · intro hshown
        rcases hshown with ⟨heq, hpass, -⟩ | hshown
        · exact absurd (heq ▸ hpass) hout
        · exact hshown
  | directory name mtimeNs children rest ihc ihr =>
    obtain ⟨-, hslash, fresh, hchildren, hrest⟩ := sound
    obtain ⟨r, hvisit, h⟩ := bind_eq_ok.mp h
    rw [shown_directory fresh]
    rcases visits parent name r hslash hvisit with ⟨rfl, hpass⟩ | ⟨rfl, hout⟩
    · obtain ⟨inner, hinner, h⟩ := bind_eq_ok.mp h
      obtain ⟨later, hlater, h⟩ := bind_eq_ok.mp h
      obtain rfl := Except.ok.inj h
      rw [listsFile_cons, listsFile_append, ihc hchildren hinner, ihr hrest hlater]
      simp [hpass]
    · rw [ihr hrest h]
      simp [hout]

end shown

/-! ## 7. Paths of a tree -/

theorem child_joinPath {parts : List Text} (h : ∀ part ∈ parts, part ≠ []) :
    child (joinPath parts) name = joinPath (parts ++ [name]) := by
  cases parts with
  | nil => simp [child, joinPath]
  | cons part parts =>
    have nonempty : joinPath (part :: parts) ≠ [] := by
      intro hnil
      apply h part List.mem_cons_self
      cases parts with
      | nil => simpa [joinPath] using hnil
      | cons next parts =>
        rw [joinPath, List.intercalate_cons_cons] at hnil
        simp at hnil
    rw [child, if_neg nonempty, joinPath, joinPath,
      Data.Split.intercalate_append (by simp) (by simp), List.intercalate_singleton]

theorem descendant_joinPath {above parts : List Text} (habove : ∀ part ∈ above, part ≠ [])
    (h : ∀ part ∈ parts, part ≠ []) :
    descendant (joinPath above) parts = joinPath (above ++ parts) := by
  induction parts generalizing above with
  | nil => rw [List.append_nil]; rfl
  | cons part parts ih =>
    obtain ⟨hpart, hparts⟩ := List.forall_mem_cons.mp h
    show descendant (child (joinPath above) part) parts = _
    rw [child_joinPath habove, ih (List.forall_mem_append.mpr ⟨habove, by simpa⟩) hparts,
      List.append_assoc]
    rfl

theorem passesAll_iff {pass : Text → Prop} {above parts : List Text}
    (habove : ∀ part ∈ above, part ≠ []) (h : ∀ part ∈ parts, part ≠ []) :
    PassesAll pass (joinPath above) parts ↔
      ∀ n, 0 < n → n ≤ parts.length → pass (joinPath (above ++ parts.take n)) := by
  induction parts generalizing above with
  | nil =>
    refine ⟨fun _ n hpos hle => absurd hle (by simp; omega), fun _ => trivial⟩
  | cons part parts ih =>
    obtain ⟨hpart, hparts⟩ := List.forall_mem_cons.mp h
    rw [PassesAll, child_joinPath habove,
      ih (List.forall_mem_append.mpr ⟨habove, by simpa⟩) hparts]
    constructor
    · intro ⟨hfirst, hrest⟩ n hpos hle
      obtain ⟨n, rfl⟩ := Nat.exists_eq_succ_of_ne_zero (Nat.pos_iff_ne_zero.mp hpos)
      by_cases hn : n = 0
      · subst hn
        exact hfirst
      · have := hrest n (Nat.pos_of_ne_zero hn) (by simpa using hle)
        rwa [List.append_assoc] at this
    · intro hall
      refine ⟨hall 1 Nat.one_pos (by simp), fun n hpos hle => ?_⟩
      have := hall (n + 1) (Nat.succ_pos n) (by simpa using hle)
      rwa [List.append_assoc]

/-- From the root, a walk goes down all the way where the path and all above it pass. -/
theorem passesAll_root {pass : Text → Prop} {parts : List Text}
    (names : ∀ part ∈ parts, part ≠ [] ∧ '/' ∉ part) (nonempty : parts ≠ []) :
    PassesAll pass [] parts ↔
      pass (joinPath parts) ∧ ∀ d, Below d (joinPath parts) → pass d := by
  have hpass := @passesAll_iff pass [] parts nofun fun part hpart => (names part hpart).1
  have hsplit := splitPath_join (fun part hpart => (names part hpart).2) nonempty
  have hlength := List.length_pos_iff.mpr nonempty
  simp only [← mem_ancestorPaths, ancestorPaths, hsplit, List.mem_map, List.mem_range'_1]
  rw [show ([] : Text) = joinPath [] from rfl, hpass]
  constructor
  · intro hall
    refine ⟨?_, fun d ⟨n, hn, hd⟩ => hd ▸ hall n (by omega) (by omega)⟩
    have := hall parts.length hlength (Nat.le_refl _)
    rwa [List.take_length] at this
  · intro ⟨hpath, habove⟩ n hpos hle
    rcases Nat.lt_or_eq_of_le hle with hlt | rfl
    · exact habove _ ⟨n, by omega, rfl⟩
    · rwa [List.take_length]

theorem descendant_root {parts : List Text} (names : ∀ part ∈ parts, part ≠ [] ∧ '/' ∉ part) :
    descendant [] parts = joinPath parts :=
  @descendant_joinPath [] parts nofun fun part hpart => (names part hpart).1

/-- **A walk comes to the files all of whose paths upward pass.** -/
theorem shown_iff {pass : Text → Prop} {tree : Listing} (sound : tree.Sound) :
    Shown pass [] tree path ↔
      tree.FileAt (splitPath path) ∧ pass path ∧ ∀ d, Below d path → pass d := by
  constructor
  · intro ⟨parts, hpath, hfile, hpass⟩
    have names := hfile.names sound
    obtain ⟨_, -, _, hcons⟩ := hfile.head
    have nonempty : parts ≠ [] := hcons ▸ List.cons_ne_nil _ _
    have hpath : path = joinPath parts := hpath.trans (descendant_root names)
    rw [hpath, splitPath_join (fun part hpart => (names part hpart).2) nonempty]
    exact ⟨hfile, (passesAll_root names nonempty).mp hpass⟩
  · intro ⟨hfile, hpass⟩
    have names := hfile.names sound
    refine ⟨splitPath path, ((descendant_root names).trans join_splitPath).symm, hfile, ?_⟩
    apply (passesAll_root names splitPath_ne_nil).mpr
    rwa [join_splitPath]

/-- Whatever a walk lists passes, with all above it. -/
theorem walk_passes {pass : Text → Prop} {visit : Text → Text → Checked (Option Text)}
    {stamp : Int → Int} {special : String} {tree : Listing} {entries : List WorkspaceEntry}
    (visits : Visits visit pass) (sound : tree.Sound)
    (h : walk isalpha visit stamp special parent tree = .ok entries) :
    ∀ e ∈ entries, ∃ parts, parts ≠ [] ∧ (∀ part ∈ parts, part ≠ [] ∧ '/' ∉ part) ∧
      e.relativePath = descendant parent parts ∧ PassesAll pass parent parts := by
  induction tree generalizing parent entries with
  | nil =>
    obtain rfl := Except.ok.inj h
    exact nofun
  | leaf name node rest ih =>
    obtain ⟨hne, hslash, -, hrest⟩ := sound
    obtain ⟨r, hvisit, h⟩ := bind_eq_ok.mp h
    rcases visits parent name r hslash hvisit with ⟨rfl, hpass⟩ | ⟨rfl, -⟩
    · obtain ⟨entry, hentry, h⟩ := bind_eq_ok.mp h
      obtain ⟨later, hlater, h⟩ := bind_eq_ok.mp h
      obtain rfl := Except.ok.inj h
      rw [List.forall_mem_cons]
      refine ⟨⟨[name], List.cons_ne_nil _ _, by simpa using ⟨hne, hslash⟩, ?_, hpass, trivial⟩,
        ih hrest hlater⟩
      exact (collectLeaf_ok hentry).1
    · exact ih hrest h
  | directory name mtimeNs children rest ihc ihr =>
    obtain ⟨hne, hslash, -, hchildren, hrest⟩ := sound
    obtain ⟨r, hvisit, h⟩ := bind_eq_ok.mp h
    rcases visits parent name r hslash hvisit with ⟨rfl, hpass⟩ | ⟨rfl, -⟩
    · obtain ⟨inner, hinner, h⟩ := bind_eq_ok.mp h
      obtain ⟨later, hlater, h⟩ := bind_eq_ok.mp h
      obtain rfl := Except.ok.inj h
      rw [List.forall_mem_cons]
      refine ⟨⟨[name], List.cons_ne_nil _ _, by simpa using ⟨hne, hslash⟩, rfl, hpass, trivial⟩, ?_⟩
      rw [List.forall_mem_append]
      refine ⟨fun e he => ?_, ihr hrest hlater⟩
      obtain ⟨parts, -, names, hpath, hparts⟩ := ihc hchildren hinner e he
      refine ⟨name :: parts, List.cons_ne_nil _ _, ?_, hpath, hpass, hparts⟩
      exact List.forall_mem_cons.mpr ⟨⟨hne, hslash⟩, names⟩
    · exact ihr hrest h

/-! ## 8. What the scans list -/

/-- What a scan does not leave out by the path alone. -/
def Kept (boundaries includes : List Text) (path : Text) : Prop :=
  isMandatoryExcluded path boundaries = false ∧
    (defaultExcluded path = false ∨ related path includes = true)

theorem isDefaultWorkspaceExcluded_ok {r : Bool} :
    isDefaultWorkspaceExcluded isalpha path = .ok r ↔ Named isalpha path ∧ r = defaultExcluded path := by
  unfold isDefaultWorkspaceExcluded
  rw [bind_eq_ok]
  constructor
  · intro ⟨w, hw, hr⟩
    obtain ⟨rfl, -⟩ := normalize_ok_iff.mp hw
    exact ⟨hw, (Except.ok.inj hr).symm⟩
  · intro ⟨hnamed, hr⟩
    exact ⟨path, hnamed, hr ▸ rfl⟩

theorem not_kept_default (hexcluded : defaultExcluded path = true)
    (hrelated : ¬related path includes = true) : ¬Kept boundaries includes path := by
  intro ⟨_, h⟩
  rcases h with h | h
  · exact absurd (hexcluded.symm.trans h) (by simp)
  · exact hrelated h

/-- The decision on a child, once its path is taken. -/
theorem decide_kept {r : Option Text} (hprivate : isMandatoryExcluded path boundaries = false)
    (h : (do
      let excluded ← isDefaultWorkspaceExcluded isalpha path
      if excluded ∧ ¬related path includes then return none
      return some path : Checked (Option Text)) = .ok r) :
    r = some path ∧ Kept boundaries includes path ∨
      r = none ∧ ¬Kept boundaries includes path := by
  obtain ⟨excluded, hexcluded, h⟩ := bind_eq_ok.mp h
  obtain ⟨-, rfl⟩ := isDefaultWorkspaceExcluded_ok.mp hexcluded
  split at h
  · rename_i hout
    exact .inr ⟨(Except.ok.inj h).symm, not_kept_default hout.1 hout.2⟩
  · rename_i hin
    refine .inl ⟨(Except.ok.inj h).symm, hprivate, ?_⟩
    simpa [Classical.or_iff_not_imp_left] using hin

theorem visitLocal_visits :
    Visits (visitLocal isalpha boundaries includes) (Kept boundaries includes) := by
  intro parent name r _ h
  unfold visitLocal at h
  obtain ⟨relative, hrelative, h⟩ := bind_eq_ok.mp h
  obtain ⟨rfl, -⟩ := normalize_ok_iff.mp hrelative
  split at h
  · rename_i hprivate
    exact .inr ⟨(Except.ok.inj h).symm, fun hkept => absurd (hkept.1.symm.trans hprivate) (by simp)⟩
  · rename_i hprivate
    exact decide_kept (by simpa using hprivate) h

theorem mem_child (hslash : '/' ∉ name) : name ∈ splitPath (child parent name) := by
  unfold child
  split
  · rw [splitPath, List.splitOn_eq_singleton hslash]
    exact List.mem_singleton_self _
  · rw [splitPath, List.splitOn_append_cons_self, List.splitOn_eq_singleton hslash]
    exact List.mem_append_right _ (List.mem_singleton_self _)

theorem visitRemote_visits :
    Visits (visitRemote isalpha boundaries includes) (Kept boundaries includes) := by
  intro parent name r hslash h
  unfold visitRemote at h
  split at h
  · rename_i hmetadata
    refine .inr ⟨(Except.ok.inj h).symm, fun hkept => ?_⟩
    have hmem : name ∈ splitPath (child parent name) := mem_child hslash
    have hprivate : isMandatoryExcluded (child parent name) boundaries = true := by
      rw [isMandatoryExcluded, ← hmetadata, List.contains_iff_mem.mpr hmem, Bool.true_or]
    exact absurd (hkept.1.symm.trans hprivate) (by simp)
  · obtain ⟨relative, hrelative, h⟩ := bind_eq_ok.mp h
    have hnamed := hrelative
    obtain ⟨rfl, -, hmetadata⟩ := normalize_ok_iff.mp hrelative
    split at h
    · rename_i hwithin
      refine .inr ⟨(Except.ok.inj h).symm, fun hkept => ?_⟩
      simp [Kept, isMandatoryExcluded, hwithin] at hkept
    · rename_i hwithin
      exact decide_kept (by simpa [isMandatoryExcluded, hwithin] using hmetadata) h

variable {context : SourceContext} {tree : SourceTree} {manifest : WorkspaceManifest}

/-- Listed as a file, for a listing that goes through `build_workspace_manifest`. -/
theorem listsFile_manifestOf {entries : List WorkspaceEntry} {excludedPrefixes : List Text} :
    ListsFile (manifestOf entries excludedPrefixes).entries path ↔ ListsFile entries path := by
  unfold ListsFile
  simp only [mem_manifestOf]
  constructor
  · intro ⟨_, ⟨e, he, rfl⟩, h⟩
    exact ⟨e, he, h⟩
  · intro ⟨e, he, h⟩
    exact ⟨e.canonical, ⟨e, he, rfl⟩, h⟩

/-- What is known of a scan of a tree: it lists the files that are kept with all above them, and
    nothing at any other path. -/
structure Scanned (isalpha : Char → Bool) (boundaries includes : List Text) (tree : SourceTree)
    (manifest : WorkspaceManifest) : Prop where
  files : ∀ path, ListsFile manifest.entries path ↔ tree.listing.FileAt (splitPath path) ∧
    Kept boundaries includes path ∧ ∀ d, Below d path → Kept boundaries includes d
  kept : ∀ e ∈ manifest.entries, Kept boundaries includes e.relativePath ∧
    ∀ d, Below d e.relativePath → Kept boundaries includes d
  named : ∀ e ∈ manifest.entries, Named isalpha e.relativePath
  excludedPrefixes : manifest.excludedPrefixes = sortPrefixes boundaries

theorem scanned_of_walk {visit : Text → Text → Checked (Option Text)} {stamp : Int → Int}
    {special : String} {entries : List WorkspaceEntry}
    (visits : Visits visit (Kept boundaries includes))
    (hwalk : walk isalpha visit stamp special [] tree.listing = .ok entries)
    (hbuild : buildWorkspaceManifest isalpha entries boundaries = .ok manifest) :
    Scanned isalpha boundaries includes tree manifest := by
  obtain ⟨hbuildable, rfl⟩ := build_ok_iff.mp hbuild
  refine ⟨fun path => ?_, fun e he => ?_, fun e he => ?_, rfl⟩
  · rw [listsFile_manifestOf, walk_lists visits tree.sound hwalk, shown_iff tree.sound]
  · obtain ⟨e, hmem, rfl⟩ := mem_manifestOf.mp he
    obtain ⟨parts, nonempty, names, hpath, hpass⟩ := walk_passes visits tree.sound hwalk e hmem
    rw [canonical_relativePath, hpath, descendant_root names]
    exact (passesAll_root names nonempty).mp hpass
  · obtain ⟨e, hmem, rfl⟩ := mem_manifestOf.mp he
    exact (hbuildable.admissible e hmem).named

theorem mapM_normalize {values : List Text} {r : List Text}
    (h : values.mapM (fun p => normalizeSourceRelativePath isalpha p) = .ok r) : r = values :=
  ((mapM_ok_iff fun _ _ h => (normalize_ok_iff.mp h).1).mp h).2

theorem scanLocal_scanned (h : scanLocalWorkspace isalpha context tree = .ok manifest) :
    (¬∃ boundary ∈ context.boundaries, boundary <+: context.sourceRoot) ∧
      Scanned isalpha context.mandatoryRelative context.explicitlyIncluded tree manifest := by
  obtain ⟨houtside, h⟩ := refuse_bind_ok.mp h
  obtain ⟨includes, hincludes, h⟩ := bind_eq_ok.mp h
  rw [mapM_normalize hincludes] at h
  obtain ⟨collected, hwalk, hbuild⟩ := bind_eq_ok.mp h
  exact ⟨houtside, scanned_of_walk visitLocal_visits hwalk hbuild⟩

theorem scanRemote_scanned {exclusions explicitlyIncluded : List Text}
    (h : scanRemoteWorkspace isalpha exclusions explicitlyIncluded tree = .ok manifest) :
    Scanned isalpha exclusions explicitlyIncluded tree manifest := by
  obtain ⟨exclusions', hexclusions, h⟩ := bind_eq_ok.mp h
  obtain ⟨includes, hincludes, h⟩ := bind_eq_ok.mp h
  rw [mapM_normalize hexclusions, mapM_normalize hincludes] at h
  obtain ⟨collected, hwalk, hbuild⟩ := bind_eq_ok.mp h
  exact scanned_of_walk visitRemote_visits hwalk hbuild

/-! ## 9. The layers together -/

/-- A path that starts with the parts of another one is that path, or below it. -/
theorem prefix_parts_iff {parts : List Text} (slash : ∀ part ∈ parts, '/' ∉ part)
    (nonempty : parts ≠ []) :
    parts <+: splitPath path ↔ path = joinPath parts ∨ Below (joinPath parts) path := by
  rw [below_iff, splitPath_join slash nonempty]
  constructor
  · intro ⟨more, hmore⟩
    by_cases hnil : more = []
    · rw [hnil, List.append_nil] at hmore
      exact .inl (by rw [hmore, join_splitPath])
    · exact .inr ⟨more, hnil, hmore⟩
  · intro h
    rcases h with rfl | ⟨more, -, hmore⟩
    · rw [splitPath_join slash nonempty]
    · exact ⟨more, hmore⟩

/-- The reader's boundaries are those of the scan. -/
theorem private_iff
    (outside : ¬∃ boundary ∈ context.boundaries, boundary <+: context.sourceRoot) :
    (∃ boundary ∈ context.boundaries, boundary <+: context.sourceRoot ++ splitPath path) ↔
      within path context.mandatoryRelative = true := by
  -- a boundary below the root, and the parts that it has there
  have inside : ∀ rest, context.sourceRoot ++ rest ∈ context.boundaries → rest ≠ [] ∧
      (context.sourceRoot ++ rest <+: context.sourceRoot ++ splitPath path ↔
        path = joinPath rest ∨ Below (joinPath rest) path) := by
    intro rest hmem
    have nonempty : rest ≠ [] := by
      rintro rfl
      exact outside ⟨_, hmem, by rw [List.append_nil]⟩
    rw [List.prefix_append_right_inj]
    exact ⟨nonempty, prefix_parts_iff
      (fun part hpart => context.parts _ hmem part (List.mem_append_right _ hpart)) nonempty⟩
  unfold within SourceContext.mandatoryRelative
  simp only [List.any_map, List.any_filter, List.any_eq_true, Bool.and_eq_true, Function.comp_apply,
    List.isPrefixOf_iff_prefix, Bool.or_eq_true, decide_eq_true_eq, below_eq_true]
  constructor
  · intro ⟨boundary, hmem, hbefore⟩
    have hroot : context.sourceRoot <+: boundary := by
      rcases List.prefix_or_prefix_of_prefix hbefore (List.prefix_append _ _) with h | h
      · exact absurd ⟨boundary, hmem, h⟩ outside
      · exact h
    obtain ⟨rest, rfl⟩ := hroot
    refine ⟨_, hmem, List.prefix_append _ _, ?_⟩
    rw [List.drop_left]
    exact (inside rest hmem).2.mp hbefore
  · intro ⟨boundary, hmem, ⟨rest, hrest⟩, h⟩
    subst hrest
    rw [List.drop_left] at h
    exact ⟨_, hmem, (inside rest hmem).2.mpr h⟩

theorem opens_iff :
    (∃ entry, workspaceSourceFile isalpha context tree path = .ok entry) ↔
      Named isalpha path ∧ tree.listing.FileAt (splitPath path) ∧
        (defaultExcluded path = false ∨ related path context.explicitlyIncluded = true) ∧
        ¬∃ boundary ∈ context.boundaries,
          boundary <+: context.sourceRoot ++ splitPath path := by
  unfold workspaceSourceFile
  constructor
  · intro ⟨entry, h⟩
    obtain ⟨relative, hrelative, h⟩ := bind_eq_ok.mp h
    obtain ⟨hsame, -⟩ := normalize_ok_iff.mp hrelative
    rw [hsame] at hrelative h
    obtain ⟨excluded, hexcluded, h⟩ := bind_eq_ok.mp h
    obtain ⟨-, hdefault⟩ := isDefaultWorkspaceExcluded_ok.mp hexcluded
    obtain ⟨hkept, h⟩ := refuse_bind_ok.mp h
    refine ⟨hrelative, ?_⟩
    have hkept : defaultExcluded path = false ∨
        related path context.explicitlyIncluded = true := by
      simpa [hdefault, Classical.or_iff_not_imp_left] using hkept
    split at h
    · exact nomatch h
    · exact nomatch h
    · rename_i found _ _ hfound
      obtain ⟨houtside, h⟩ := refuse_bind_ok.mp h
      split at h
      · exact ⟨⟨_, _, _, hfound⟩, hkept, houtside⟩
      · exact nomatch h
  · intro ⟨hnamed, ⟨size, mtimeNs, executable, hfile⟩, hkept, houtside⟩
    refine ⟨{ relativePath := path, kind := .file, size := size, mtimeNs := mtimeNs, executable },
      ?_⟩
    rw [bind_eq_ok]
    refine ⟨path, hnamed, ?_⟩
    rw [bind_eq_ok]
    refine ⟨_, isDefaultWorkspaceExcluded_ok.mpr ⟨hnamed, rfl⟩, ?_⟩
    rw [refuse_bind_ok]
    refine ⟨?_, ?_⟩
    · intro ⟨hexcluded, hrelated⟩
      rcases hkept with h | h
      · exact absurd (hexcluded.symm.trans h) (by simp)
      · exact hrelated h
    · rw [hfile]
      exact refuse_bind_ok.mpr ⟨houtside, rfl⟩

/-- The Node's reader and the collector leave out what the scan leaves out. -/
def ExclusionsAgree (isalpha : Char → Bool) (context : SourceContext) (tree : SourceTree)
    (manifest : WorkspaceManifest) : Prop :=
  ∀ path, (∃ entry, workspaceSourceFile isalpha context tree path = .ok entry) ∧
    collectorExcludes manifest path = false ↔ ListsFile manifest.entries path

theorem isMandatoryExcluded_sortPrefixes :
    isMandatoryExcluded path (sortPrefixes boundaries) = isMandatoryExcluded path boundaries := by
  have : within path (sortPrefixes boundaries) = within path boundaries := by
    rw [Bool.eq_iff_iff]
    simp [within, mem_sortPrefixes]
  rw [isMandatoryExcluded, isMandatoryExcluded, this]

/-- **The layers agree on a tree, if and only if no file that its own path does not exclude lies
    below a directory that its name excludes.** -/
theorem exclusions_agree_iff (h : scanLocalWorkspace isalpha context tree = .ok manifest) :
    ExclusionsAgree isalpha context tree manifest ↔
      ∀ path, Named isalpha path → tree.listing.FileAt (splitPath path) →
        isMandatoryExcluded path context.mandatoryRelative = false →
        defaultExcluded path = false → ∀ directory, Below directory path →
          defaultExcluded directory = true →
          related directory context.explicitlyIncluded = true := by
  obtain ⟨outside, scanned⟩ := scanLocal_scanned h
  have hprivate : ∀ path, Named isalpha path →
      ((¬∃ boundary ∈ context.boundaries, boundary <+: context.sourceRoot ++ splitPath path) ↔
        isMandatoryExcluded path context.mandatoryRelative = false) := by
    intro path hnamed
    have hmetadata : (splitPath path).contains ".termroom".toList = false := by
      simpa only [List.contains_eq_mem, decide_eq_false_iff_not] using (named_iff.mp hnamed).2
    rw [private_iff outside, isMandatoryExcluded, hmetadata, Bool.false_or, Bool.not_eq_true]
  have hcollector : ∀ path, collectorExcludes manifest path = false ↔
      isMandatoryExcluded path context.mandatoryRelative = false ∧
        ((∃ e ∈ manifest.entries, e.relativePath = path) ∨ defaultExcluded path = false) := by
    intro path
    rw [collectorExcludes, scanned.excludedPrefixes, isMandatoryExcluded_sortPrefixes,
      Bool.or_eq_false_iff, Bool.and_eq_false_iff]
    simp
  constructor
  · intro agree path hnamed hfile hmandatory hdefault directory habove hexcluded
    have hopens := opens_iff.mpr
      ⟨hnamed, hfile, .inl hdefault, (hprivate path hnamed).mpr hmandatory⟩
    have hlisted := (agree path).mp ⟨hopens, (hcollector path).mpr ⟨hmandatory, .inr hdefault⟩⟩
    rcases (((scanned.files path).mp hlisted).2.2 directory habove).2 with h | h
    · exact absurd (hexcluded.symm.trans h) (by simp)
    · exact h
  · intro hides path
    constructor
    · intro ⟨hopens, hcollected⟩
      obtain ⟨hnamed, hfile, hkept, houtside⟩ := opens_iff.mp hopens
      obtain ⟨hmandatory, hbaseline⟩ := (hcollector path).mp hcollected
      rw [scanned.files path]
      rcases hbaseline with ⟨e, he, rfl⟩ | hdefault
      · exact ⟨hfile, scanned.kept e he⟩
      · refine ⟨hfile, ⟨hmandatory, hkept⟩, fun directory habove => ⟨?_, ?_⟩⟩
        · by_contra hin
          have := mandatory_below (Bool.not_eq_false _ ▸ hin) habove
          exact absurd (this.symm.trans hmandatory) (by simp)
        · by_cases hexcluded : defaultExcluded directory = true
          · exact .inr (hides path hnamed hfile hmandatory hdefault directory habove hexcluded)
          · exact .inl (Bool.not_eq_true _ ▸ hexcluded)
    · intro hlisted
      obtain ⟨hfile, ⟨hmandatory, hkept⟩, -⟩ := (scanned.files path).mp hlisted
      obtain ⟨e, he, rfl, -⟩ := hlisted
      have hnamed := scanned.named e he
      exact ⟨opens_iff.mpr ⟨hnamed, hfile, hkept, (hprivate _ hnamed).mpr hmandatory⟩,
        (hcollector _).mpr ⟨hmandatory, .inl ⟨e, he, rfl⟩⟩⟩

/-- The two scans list the same files of a tree. -/
theorem scans_list_same {manifest' : WorkspaceManifest}
    (hlocal : scanLocalWorkspace isalpha context tree = .ok manifest)
    (hremote : scanRemoteWorkspace isalpha context.mandatoryRelative context.explicitlyIncluded
      tree = .ok manifest') :
    ListsFile manifest.entries path ↔ ListsFile manifest'.entries path :=
  ((scanLocal_scanned hlocal).2.files path).trans ((scanRemote_scanned hremote).files path).symm

def plainContext : SourceContext := ⟨["work".toList], [], [], nofun⟩

/-- A file beside the dependencies. -/
def plainTree : SourceTree where
  listing := .directory "node_modules".toList 0 (.leaf "x.js".toList (.file 1 0 false) .nil)
    (.leaf "notes.txt".toList (.file 2 0 false) .nil)
  sound := ⟨by decide, by decide, by decide, ⟨by decide, by decide, by decide, trivial⟩,
    by decide, by decide, by decide, trivial⟩

theorem exclusions_agree_plain : ∃ manifest,
    scanLocalWorkspace Char.isAlpha plainContext plainTree = .ok manifest ∧
    ExclusionsAgree Char.isAlpha plainContext plainTree manifest := by
  have scanned : scanLocalWorkspace Char.isAlpha plainContext plainTree =
      .ok ⟨[{ relativePath := "notes.txt".toList, kind := .file, size := 2 }], 2, []⟩ := by
    decide +kernel
  refine ⟨_, scanned, (exclusions_agree_iff scanned).mpr ?_⟩
  intro path _ hfile _ hdefault directory habove _
  rcases (Listing.fileAt_directory (by decide)).mp hfile with ⟨more, hparts, hmore⟩ | hfile
  · -- what is below `node_modules` is excluded by its own path
    have hmem : "node_modules".toList ∈ splitPath path := hparts ▸ List.mem_cons_self
    have : defaultExcluded path = true := by
      rw [defaultExcluded, Bool.or_eq_true]
      exact .inl (List.any_eq_true.mpr ⟨_, hmem, by decide⟩)
    exact absurd (this.symm.trans hdefault) (by simp)
  · -- and nothing lies below a file
    rcases (Listing.fileAt_leaf (by decide)).mp hfile with ⟨hparts, -⟩ | hfile
    · obtain ⟨more, hne, hsplit⟩ := below_iff.mp habove
      have hlength := congrArg List.length (hsplit.trans hparts)
      have hmore := List.length_pos_iff.mpr hne
      have hdirectory := List.length_pos_iff.mpr (@splitPath_ne_nil directory)
      simp only [List.length_append, List.length_singleton] at hlength
      omega
    · obtain ⟨_, hmem, -⟩ := hfile.head
      exact absurd hmem List.not_mem_nil

/-- A directory that is named like a private key. -/
def hidingTree : SourceTree where
  listing := .directory "certs.pem".toList 0 (.leaf "a.txt".toList (.file 1 0 false) .nil) .nil
  sound := ⟨by decide, by decide, by decide, ⟨by decide, by decide, by decide, trivial⟩, trivial⟩

/-- The scan lists nothing below it; the Node opens the file, and the collector collects it. -/
theorem hidden_file_opens : ∃ manifest,
    scanLocalWorkspace Char.isAlpha plainContext hidingTree = .ok manifest ∧
    ¬ExclusionsAgree Char.isAlpha plainContext hidingTree manifest := by
  have scanned : scanLocalWorkspace Char.isAlpha plainContext hidingTree = .ok ⟨[], 0, []⟩ := by
    decide +kernel
  refine ⟨_, scanned, fun agree => ?_⟩
  have opens : workspaceSourceFile Char.isAlpha plainContext hidingTree "certs.pem/a.txt".toList =
      .ok { relativePath := "certs.pem/a.txt".toList, kind := .file, size := 1 } := by
    decide +kernel
  obtain ⟨e, he, -⟩ := (agree "certs.pem/a.txt".toList).mp ⟨⟨_, opens⟩, by decide +kernel⟩
  exact absurd he List.not_mem_nil

end Termroom.Sources
