import Termroom.Archive.Manifest
import Termroom.Archive.Staging
import Termroom.Data.RawText

/-!
# The manifest of a Workspace Source

A Source is listed as a manifest: its files, directories and symbolic links, by strict relative
paths. `build_workspace_manifest` is the gate every listing goes through, the Local scan's, the
one read over SFTP and the one a Node streams. It refuses or it canonicalizes: what a field
means nothing for is cleared, and the entries are sorted, so that building twice is building
once (`build_again`).
-/

set_option autoImplicit false

namespace Termroom.Sources

open Conc Archive
open Data (RawChar RawText)

/-! ## 1. Refusals -/

/-- `SourceValidationError`. -/
structure SourceValidationError where
  message : String
  code : String
  path : Option Text
  deriving DecidableEq, Repr

abbrev Checked := Except SourceValidationError

/-- `if p: raise SourceValidationError(message, code=code, path=path)`. -/
def refuse (p : Prop) [Decidable p] (message code : String) (path : Option Text) : Checked Unit :=
  if p then .error ⟨message, code, path⟩ else .ok ()

section refuse

variable {p : Prop} [Decidable p] {message code : String} {path : Option Text} {α : Type}

theorem refuse_pos (h : p) : refuse p message code path = .error ⟨message, code, path⟩ := if_pos h

theorem refuse_neg (h : ¬p) : refuse p message code path = .ok () := if_neg h

@[simp] theorem refuse_ok : refuse p message code path = .ok () ↔ ¬p := by
  by_cases h : p <;> simp [refuse, h]

@[simp] theorem refuse_bind_ok {f : Unit → Checked α} {a : α} :
    (refuse p message code path >>= f) = .ok a ↔ ¬p ∧ f () = .ok a := by
  by_cases h : p
  · rw [refuse_pos h, error_bind]
    simp [h]
  · rw [refuse_neg h, ok_bind]
    simp [h]

end refuse

/-! ## 2. Text -/

/-- What a character folds to, for the characters that fold to one of the letters the readers
    of a folded text compare with; every other one folds to a text without such a letter. -/
def foldChar (c : Char) : Text :=
  if c = '\u212A' then ['k'] else if c = '\uFB00' then ['f', 'f'] else [c.toLower]

/-- `value.casefold()`. -/
def casefold (value : Text) : Text := value.flatMap foldChar

variable (isalpha : Char → Bool)

/-- `normalize_source_relative_path`. A `Text` is valid Unicode, so that it always encodes. -/
def normalizeSourceRelativePath (value : Text) (allowRoot allowMetadata : Bool := false) :
    Checked Text := do
  refuse (value = []) "A relative Source path is required" "source_path" none
  refuse (value.any isControl ∨ '\\' ∈ value)
    "Source paths cannot contain control characters or backslashes" "source_path" value
  if value = ['.'] ∧ allowRoot then return value
  refuse (value.head? = some '/' ∨ letterColon isalpha value) "Source paths must be relative"
    "source_path_absolute" value
  refuse (∃ part ∈ splitPath value, part = [] ∨ part = ['.'] ∨ part = ['.', '.'])
    "Source paths must already be normalized and cannot traverse parents" "source_path_traversal"
    value
  refuse (¬allowMetadata ∧ ".termroom".toList ∈ splitPath value)
    "The .termroom metadata directory cannot be a Source path" "source_path_metadata" value
  return value

/-- `normalize_source_relative_path` of a text that need not be Unicode. What stands for a
    surrogate is like it no letter, no control character and in no name that the checks know. -/
def normalizeRaw (value : RawText) : Checked Unit := do
  let _ ← normalizeSourceRelativePath isalpha value.shown
  refuse (value.text? = none) "Source paths must be valid UTF-8" "source_path_encoding" value.shown

/-- `target.split("/")`. -/
def splitTarget (target : RawText) : List RawText := target.splitOn (.char '/')

/-- The loop over the parts of a link's target. -/
def targetStack (safeLink : Text) : (stack parts : List RawText) → Checked (List RawText)
  | stack, [] => .ok stack
  | stack, part :: rest =>
    if part = [] ∨ part = [.char '.'] then targetStack safeLink stack rest
    else if part = [.char '.', .char '.'] then
      if stack = [] then
        .error ⟨"Symbolic link target escapes the Source root", "source_symlink_outside", safeLink⟩
      else targetStack safeLink stack.dropLast rest
    else if part = .ofText ".termroom".toList then
      .error ⟨"Symbolic links into .termroom metadata are not copied", "source_symlink_metadata",
        safeLink⟩
    else targetStack safeLink (stack ++ [part]) rest

/-- The target of a link is read as raw text: only where it leads to is checked to be valid
    UTF-8. -/
def validateContainedSymlinkTarget (linkPath : Text) (target : RawText) : Checked RawText := do
  let safeLink ← normalizeSourceRelativePath isalpha linkPath
  refuse (target = [] ∨ target.any (fun c => c.char?.any isControl) ∨ .char '\\' ∈ target ∨
      target.head? = some (.char '/'))
    "Only contained relative symbolic links can be copied" "source_symlink_outside" safeLink
  let stack ← targetStack safeLink ((splitPath safeLink).dropLast.map .ofText) (splitTarget target)
  if stack = [] then return target
  normalizeRaw isalpha ([.char '/'].intercalate stack)
  return target

/-! ## 3. Entries -/

/-- `WorkspaceEntryKind`, and what else an entry read off a stream can call itself. -/
inductive WorkspaceEntryKind where
  | file | directory | symlink
  | other (name : Text)
  deriving DecidableEq, Repr

def WorkspaceEntryKind.name : WorkspaceEntryKind → Text
  | .file => "file".toList
  | .directory => "directory".toList
  | .symlink => "symlink".toList
  | .other name => name

structure WorkspaceEntry where
  relativePath : Text
  kind : WorkspaceEntryKind
  size : Int := 0
  mtimeNs : Int := 0
  executable : Bool := false
  linkTarget : Option RawText := none
  digest : Option Text := none
  deriving DecidableEq, Repr

structure WorkspaceManifest where
  entries : List WorkspaceEntry
  totalBytes : Int
  excludedPrefixes : List Text := []
  deriving DecidableEq, Repr

def hexDigits : List Char := "0123456789abcdef".toList

/-- What is kept of an entry. -/
def WorkspaceEntry.canonical (entry : WorkspaceEntry) : WorkspaceEntry :=
  { entry with
    size := if entry.kind = .file then entry.size else 0
    executable := if entry.kind = .file then entry.executable else false
    digest := if entry.kind = .file then entry.digest.map casefold else none }

/-- The checks of a link's target, or of there being none. -/
def checkLinkTarget (path : Text) (entry : WorkspaceEntry) : Checked Unit :=
  match entry.kind, entry.linkTarget with
  | .symlink, none =>
    .error ⟨"Symbolic link target is missing: " ++ String.ofList path, "source_symlink_target", path⟩
  | .symlink, some target => do
    let _ ← validateContainedSymlinkTarget isalpha path target
  | _, some _ =>
    .error ⟨"Only symbolic links can have link targets: " ++ String.ofList path,
      "source_entry_metadata", path⟩
  | _, none => .ok ()

/-- One entry is added to `by_path`. -/
def addEntry (byPath : List WorkspaceEntry) (entry : WorkspaceEntry) :
    Checked (List WorkspaceEntry) := do
  let path ← normalizeSourceRelativePath isalpha entry.relativePath
  refuse (entry.kind ≠ .file ∧ entry.kind ≠ .directory ∧ entry.kind ≠ .symlink)
    ("Unsupported Source entry type: " ++ String.ofList entry.kind.name) "source_entry_type" path
  refuse (path ∈ byPath.map WorkspaceEntry.relativePath)
    ("Duplicate Source path: " ++ String.ofList path) "source_path_duplicate" path
  refuse (entry.size < 0 ∨ entry.mtimeNs < 0)
    ("Invalid Source metadata: " ++ String.ofList path) "source_entry_metadata" path
  refuse (∃ digest ∈ entry.digest.map casefold, entry.kind ≠ .file ∨ digest.length ≠ 64 ∨
      digest.any fun character => character ∉ hexDigits)
    ("Invalid Source content digest: " ++ String.ofList path) "source_entry_digest" path
  checkLinkTarget isalpha path entry
  return byPath ++ [{ entry with relativePath := path }.canonical]

/-- The first ancestor of a path that is listed, and not as a directory. -/
def conflictingAncestor (byPath : List WorkspaceEntry) (path : Text) : Option Text :=
  (ancestorPaths path).find? fun ancestor =>
    byPath.any fun e => e.relativePath = ancestor && e.kind ≠ .directory

/-- The conflicts of one entry with the others. -/
def checkNesting (byPath : List WorkspaceEntry) (entry : WorkspaceEntry) : Checked Unit :=
  match conflictingAncestor byPath entry.relativePath with
  | some ancestor =>
    .error ⟨"Source path is nested below a non-directory: " ++ String.ofList ancestor,
      "source_path_conflict", entry.relativePath⟩
  | none =>
    refuse (entry.kind ≠ .directory ∧
        ∃ e ∈ byPath, (entry.relativePath ++ ['/']).isPrefixOf e.relativePath)
      ("Source path conflicts with a child path: " ++ String.ofList entry.relativePath)
      "source_path_conflict" entry.relativePath

/-- The key that the entries are sorted by: depth, directories first, path. -/
def WorkspaceEntry.Before (a b : WorkspaceEntry) : Prop :=
  let depth (e : WorkspaceEntry) : Nat := e.relativePath.count '/'
  let rank (e : WorkspaceEntry) : Nat := if e.kind = .directory then 0 else 1
  depth a < depth b ∨ depth a = depth b ∧
    (rank a < rank b ∨ rank a = rank b ∧ a.relativePath ≤ b.relativePath)

instance : DecidableRel WorkspaceEntry.Before := fun a b => by
  unfold WorkspaceEntry.Before
  infer_instance

def sortEntries (entries : List WorkspaceEntry) : List WorkspaceEntry :=
  entries.insertionSort WorkspaceEntry.Before

/-- `sum(entry.size for entry in ordered if entry.kind == "file")`. -/
def totalBytes (entries : List WorkspaceEntry) : Int :=
  ((entries.filter fun e => e.kind = .file).map WorkspaceEntry.size).sum

/-- `tuple(sorted(set(prefixes)))`. -/
def sortPrefixes (prefixes : List Text) : List Text := prefixes.dedup.insertionSort (· ≤ ·)

def buildWorkspaceManifest (entries : List WorkspaceEntry) (excludedPrefixes : List Text := []) :
    Checked WorkspaceManifest := do
  let byPath ← entries.foldlM (addEntry isalpha) []
  forM byPath (checkNesting byPath)
  let prefixes ← excludedPrefixes.mapM fun p => normalizeSourceRelativePath isalpha p false true
  return {
    entries := sortEntries byPath
    totalBytes := totalBytes (sortEntries byPath)
    excludedPrefixes := sortPrefixes prefixes }

/-! ## 4. What a check passes -/

section checks

variable {isalpha} {value w path : Text} {target r : RawText} {allowMetadata : Bool}

/-- A path as the manifest spells it. -/
structure Spelled (isalpha : Char → Bool) (value : Text) : Prop where
  nonempty : value ≠ []
  plain : ∀ c ∈ value, isControl c = false ∧ c ≠ '\\'
  relative : value.head? ≠ some '/' ∧ letterColon isalpha value = false
  parts : ∀ part ∈ splitPath value, part ≠ [] ∧ part ≠ ['.'] ∧ part ≠ ['.', '.']

theorem normalize_ok_iff :
    normalizeSourceRelativePath isalpha value false allowMetadata = .ok w ↔
      w = value ∧ Spelled isalpha value ∧
        (allowMetadata = false → ".termroom".toList ∉ splitPath value) := by
  unfold normalizeSourceRelativePath
  simp only [refuse_bind_ok, Bool.false_eq_true, and_false, if_false]
  constructor
  · intro ⟨hne, hplain, hrelative, hparts, hmetadata, hw⟩
    have hw := Except.ok.inj hw
    simp only [List.any_eq_true, not_or, not_exists, not_and, Bool.not_eq_true] at hplain hrelative
    refine ⟨hw.symm, ⟨hne, fun c hc => ⟨hplain.1 c hc, fun h => hplain.2 (h ▸ hc)⟩, hrelative,
      fun part hpart => ?_⟩, fun h => ?_⟩
    · exact ⟨fun h => hparts ⟨part, hpart, .inl h⟩, fun h => hparts ⟨part, hpart, .inr (.inl h)⟩,
        fun h => hparts ⟨part, hpart, .inr (.inr h)⟩⟩
    · intro hmem
      exact hmetadata ⟨by simp [h], hmem⟩
  · intro ⟨hw, hspelled, hmetadata⟩
    refine ⟨hspelled.nonempty, ?_, ?_, ?_, ?_, congrArg _ hw.symm⟩
    · intro h
      rcases h with h | h
      · obtain ⟨c, hc, hcontrol⟩ := List.any_eq_true.mp h
        exact absurd ((hspelled.plain c hc).1.symm.trans hcontrol) Bool.false_ne_true
      · exact (hspelled.plain _ h).2 rfl
    · intro h
      rcases h with h | h
      · exact hspelled.relative.1 h
      · exact absurd (hspelled.relative.2.symm.trans h) Bool.false_ne_true
    · intro ⟨part, hpart, h⟩
      have := hspelled.parts part hpart
      rcases h with h | h | h
      · exact this.1 h
      · exact this.2.1 h
      · exact this.2.2 h
    · intro ⟨hallow, hmem⟩
      exact hmetadata (by simpa using hallow) hmem

/-- A path of the Source, and no part of it is `.termroom`. -/
def Named (isalpha : Char → Bool) (path : Text) : Prop :=
  normalizeSourceRelativePath isalpha path = .ok path

theorem named_iff : Named isalpha path ↔
    Spelled isalpha path ∧ ".termroom".toList ∉ splitPath path := by
  unfold Named
  rw [normalize_ok_iff]
  simp

/-- A target is handed back as it is. -/
theorem validate_ok (h : validateContainedSymlinkTarget isalpha path target = .ok r) :
    r = target := by
  unfold validateContainedSymlinkTarget at h
  obtain ⟨safe, -, h⟩ := bind_eq_ok.mp h
  obtain ⟨-, h⟩ := refuse_bind_ok.mp h
  obtain ⟨stack, -, h⟩ := bind_eq_ok.mp h
  split at h
  · exact (Except.ok.inj h).symm
  · obtain ⟨_, -, h⟩ := bind_eq_ok.mp h
    exact (Except.ok.inj h).symm

/-- The link of a path is accepted. -/
def Contained (isalpha : Char → Bool) (path : Text) (target : RawText) : Prop :=
  validateContainedSymlinkTarget isalpha path target = .ok target

/-- What the checks on one entry come to. -/
structure Admissible (isalpha : Char → Bool) (entry : WorkspaceEntry) : Prop where
  named : Named isalpha entry.relativePath
  kind : entry.kind = .file ∨ entry.kind = .directory ∨ entry.kind = .symlink
  metadata : 0 ≤ entry.size ∧ 0 ≤ entry.mtimeNs
  digest : ∀ digest ∈ entry.digest.map casefold,
    entry.kind = .file ∧ digest.length = 64 ∧ ∀ c ∈ digest, c ∈ hexDigits
  link : entry.kind = .symlink →
    ∃ target, entry.linkTarget = some target ∧ Contained isalpha entry.relativePath target
  unlinked : entry.kind ≠ .symlink → entry.linkTarget = none

theorem checkLinkTarget_ok_iff {entry : WorkspaceEntry} :
    checkLinkTarget isalpha path entry = .ok () ↔
      (entry.kind = .symlink →
        ∃ target, entry.linkTarget = some target ∧ Contained isalpha path target) ∧
      (entry.kind ≠ .symlink → entry.linkTarget = none) := by
  unfold checkLinkTarget
  split
  · rename_i hkind htarget
    simp [hkind, htarget]
  · rename_i target hkind htarget
    simp only [hkind, htarget, bind_eq_ok, ne_eq, not_true_eq_false, false_implies, and_true,
      true_implies, Option.some.injEq, exists_eq_left']
    constructor
    · intro ⟨w, hw, _⟩
      rwa [validate_ok hw] at hw
    · intro h
      exact ⟨_, h, rfl⟩
  · rename_i htarget hkind
    have hkind : entry.kind ≠ .symlink := hkind
    simp [hkind, htarget]
  · rename_i htarget hkind
    have hkind : entry.kind ≠ .symlink := hkind
    simp [hkind, htarget]

variable {entries byPath : List WorkspaceEntry} {entry : WorkspaceEntry}

theorem addEntry_ok_iff {r : List WorkspaceEntry} : addEntry isalpha byPath entry = .ok r ↔
    Admissible isalpha entry ∧ entry.relativePath ∉ byPath.map WorkspaceEntry.relativePath ∧
      r = byPath ++ [entry.canonical] := by
  unfold addEntry
  rw [bind_eq_ok]
  constructor
  · rintro ⟨path, hpath, h⟩
    obtain ⟨rfl, hspelled⟩ := normalize_ok_iff.mp hpath
    obtain ⟨hkind, h⟩ := refuse_bind_ok.mp h
    obtain ⟨hdistinct, h⟩ := refuse_bind_ok.mp h
    obtain ⟨hmetadata, h⟩ := refuse_bind_ok.mp h
    obtain ⟨hdigest, h⟩ := refuse_bind_ok.mp h
    obtain ⟨⟨⟩, hlink, h⟩ := bind_eq_ok.mp h
    obtain ⟨hlinked, hunlinked⟩ := checkLinkTarget_ok_iff.mp hlink
    refine ⟨⟨hpath, ?_, by omega, fun digest hmem => ?_, hlinked, hunlinked⟩, hdistinct,
      (Except.ok.inj h).symm⟩
    · by_contra hother
      exact hkind ⟨by simp_all, by simp_all, by simp_all⟩
    · refine ⟨?_, ?_, fun c hc => ?_⟩ <;> by_contra hbad
      · exact hdigest ⟨digest, hmem, .inl hbad⟩
      · exact hdigest ⟨digest, hmem, .inr (.inl hbad)⟩
      · apply hdigest
        refine ⟨digest, hmem, .inr (.inr ?_)⟩
        rw [List.any_eq_true]
        exact ⟨c, hc, decide_eq_true hbad⟩
  · rintro ⟨h, hdistinct, hr⟩
    refine ⟨_, h.named, ?_⟩
    rw [refuse_bind_ok, refuse_bind_ok, refuse_bind_ok, refuse_bind_ok, bind_eq_ok]
    refine ⟨?_, hdistinct, ?_, ?_, (), checkLinkTarget_ok_iff.mpr ⟨h.link, h.unlinked⟩, ?_⟩
    · rintro ⟨hf, hd, hs⟩
      rcases h.kind with hk | hk | hk
      · exact hf hk
      · exact hd hk
      · exact hs hk
    · have := h.metadata
      omega
    · rintro ⟨digest, hmem, hbad⟩
      obtain ⟨hkind, hlength, hhex⟩ := h.digest digest hmem
      rcases hbad with hk | hl | hany
      · exact hk hkind
      · exact hl hlength
      · obtain ⟨c, hc, hx⟩ := List.any_eq_true.mp hany
        exact of_decide_eq_true hx (hhex c hc)
    · rw [hr]
      rfl

@[simp] theorem canonical_relativePath : entry.canonical.relativePath = entry.relativePath := rfl

@[simp] theorem canonical_kind : entry.canonical.kind = entry.kind := rfl

@[simp] theorem canonical_linkTarget : entry.canonical.linkTarget = entry.linkTarget := rfl

theorem map_canonical_relativePath :
    (entries.map WorkspaceEntry.canonical).map WorkspaceEntry.relativePath =
      entries.map WorkspaceEntry.relativePath := by
  rw [List.map_map]
  rfl

/-- The listing is gone through, on top of what has been seen. -/
theorem collect_ok_iff {seen r : List WorkspaceEntry}
    (nodup : (seen.map WorkspaceEntry.relativePath).Nodup) :
    entries.foldlM (addEntry isalpha) seen = .ok r ↔ (∀ e ∈ entries, Admissible isalpha e) ∧
      ((seen ++ entries).map WorkspaceEntry.relativePath).Nodup ∧
      r = seen ++ entries.map WorkspaceEntry.canonical := by
  induction entries generalizing seen with
  | nil =>
    simp only [List.foldlM_nil, List.append_nil, List.map_nil]
    constructor
    · intro h
      exact ⟨nofun, nodup, (Except.ok.inj h).symm⟩
    · intro ⟨_, _, hr⟩
      rw [hr]
      rfl
  | cons entry rest ih =>
    rw [List.foldlM_cons, bind_eq_ok]
    have step : (seen ++ [entry]).map WorkspaceEntry.relativePath =
        (seen ++ [entry.canonical]).map WorkspaceEntry.relativePath := by simp
    constructor
    · intro ⟨seen', hadd, hrest⟩
      obtain ⟨hentry, hdistinct, rfl⟩ := addEntry_ok_iff.mp hadd
      have hnodup : ((seen ++ [entry.canonical]).map WorkspaceEntry.relativePath).Nodup := by
        rw [List.map_append, List.nodup_append_comm]
        exact List.nodup_cons.mpr ⟨hdistinct, nodup⟩
      obtain ⟨hall, hdistinct, rfl⟩ := (ih hnodup).mp hrest
      refine ⟨List.forall_mem_cons.mpr ⟨hentry, hall⟩, ?_, by simp⟩
      rwa [List.map_append, ← step, ← List.map_append, List.append_assoc,
        List.singleton_append] at hdistinct
    · intro ⟨hall, hdistinct, hr⟩
      obtain ⟨hentry, hrest⟩ := List.forall_mem_cons.mp hall
      rw [← List.singleton_append, ← List.append_assoc, List.map_append, step] at hdistinct
      have hnodup := (List.nodup_append.mp hdistinct).1
      refine ⟨_, addEntry_ok_iff.mpr ⟨hentry, ?_, rfl⟩, (ih hnodup).mpr ⟨hrest, ?_, ?_⟩⟩
      · rw [List.map_append, List.nodup_append_comm] at hnodup
        exact (List.nodup_cons.mp hnodup).1
      · rwa [List.map_append]
      · rw [hr]
        simp

theorem collect_nil_ok_iff {r : List WorkspaceEntry} :
    entries.foldlM (addEntry isalpha) [] = .ok r ↔ (∀ e ∈ entries, Admissible isalpha e) ∧
      (entries.map WorkspaceEntry.relativePath).Nodup ∧
      r = entries.map WorkspaceEntry.canonical := by
  have h := @collect_ok_iff isalpha entries [] r (by simp)
  simpa using h

/-- `b` does not lie below `a`, unless `a` is a directory. -/
def Unnested (a b : WorkspaceEntry) : Prop :=
  a.kind ≠ .directory → ¬Below a.relativePath b.relativePath

theorem conflictingAncestor_eq_none : conflictingAncestor byPath path = none ↔
    ∀ e ∈ byPath, e.kind ≠ .directory → ¬Below e.relativePath path := by
  unfold conflictingAncestor
  rw [List.find?_eq_none]
  simp only [mem_ancestorPaths]
  constructor
  · intro h e he hkind hbelow
    apply h _ hbelow
    simpa using ⟨e, he, rfl, hkind⟩
  · intro h ancestor hbelow hany
    obtain ⟨e, he, hmatch⟩ := List.any_eq_true.mp hany
    obtain ⟨rfl, hkind⟩ : e.relativePath = ancestor ∧ e.kind ≠ .directory := by simpa using hmatch
    exact h e he hkind hbelow

theorem checkNesting_ok_iff : checkNesting byPath entry = .ok () ↔
    (∀ e ∈ byPath, Unnested e entry) ∧ ∀ e ∈ byPath, Unnested entry e := by
  unfold checkNesting
  cases hfound : conflictingAncestor byPath entry.relativePath with
  | some ancestor =>
    have hsome : conflictingAncestor byPath entry.relativePath ≠ none := by simp [hfound]
    have hnested := mt conflictingAncestor_eq_none.mpr hsome
    exact ⟨nofun, fun h => absurd h.1 hnested⟩
  | none =>
    have habove := conflictingAncestor_eq_none.mp hfound
    simp only [refuse_ok, not_and, not_exists, List.isPrefixOf_iff_prefix]
    constructor
    · intro h
      exact ⟨habove, fun e he hkind => h hkind e he⟩
    · intro h hkind e he
      exact h.2 e he hkind

theorem forM_ok_iff {α : Type} {f : α → Checked Unit} {l : List α} :
    forM l f = .ok () ↔ ∀ a ∈ l, f a = .ok () := by
  induction l with
  | nil => simp [List.forM_nil, pure, Except.pure]
  | cons a l ih =>
    rw [List.forM_cons, bind_eq_ok, List.forall_mem_cons]
    constructor
    · intro ⟨⟨⟩, ha, hl⟩
      exact ⟨ha, ih.mp hl⟩
    · intro ⟨ha, hl⟩
      exact ⟨(), ha, ih.mpr hl⟩

/-- A check that hands back what it is given maps a list to itself. -/
theorem mapM_ok_iff {α : Type} {f : α → Checked α} (same : ∀ a b, f a = .ok b → b = a)
    {l r : List α} : l.mapM f = .ok r ↔ (∀ a ∈ l, f a = .ok a) ∧ r = l := by
  induction l generalizing r with
  | nil => simp [pure, Except.pure, eq_comm]
  | cons a l ih =>
    rw [List.mapM_cons, bind_eq_ok]
    simp only [bind_eq_ok, ih]
    constructor
    · intro ⟨b, hb, bs, ⟨hall, hbs⟩, h⟩
      obtain rfl := Except.ok.inj h
      obtain rfl := same a b hb
      exact ⟨List.forall_mem_cons.mpr ⟨hb, hall⟩, by rw [hbs]⟩
    · intro ⟨hall, hr⟩
      obtain ⟨ha, hl⟩ := List.forall_mem_cons.mp hall
      exact ⟨a, ha, l, ⟨hl, rfl⟩, by rw [hr]; rfl⟩

/-- What the checks on a whole listing come to. -/
structure Buildable (isalpha : Char → Bool) (entries : List WorkspaceEntry)
    (excludedPrefixes : List Text) : Prop where
  admissible : ∀ e ∈ entries, Admissible isalpha e
  distinct : (entries.map WorkspaceEntry.relativePath).Nodup
  unnested : ∀ a ∈ entries, ∀ b ∈ entries, Unnested a b
  spelled : ∀ p ∈ excludedPrefixes, Spelled isalpha p

/-- The manifest of a listing. -/
def manifestOf (entries : List WorkspaceEntry) (excludedPrefixes : List Text) :
    WorkspaceManifest where
  entries := sortEntries (entries.map WorkspaceEntry.canonical)
  totalBytes := totalBytes (sortEntries (entries.map WorkspaceEntry.canonical))
  excludedPrefixes := sortPrefixes excludedPrefixes

/-- **Which listings are accepted**, and as what. -/
theorem build_ok_iff {excludedPrefixes : List Text} {manifest : WorkspaceManifest} :
    buildWorkspaceManifest isalpha entries excludedPrefixes = .ok manifest ↔
      Buildable isalpha entries excludedPrefixes ∧
        manifest = manifestOf entries excludedPrefixes := by
  have unnested : (∀ a ∈ entries.map WorkspaceEntry.canonical,
      (∀ e ∈ entries.map WorkspaceEntry.canonical, Unnested e a) ∧
        ∀ e ∈ entries.map WorkspaceEntry.canonical, Unnested a e) ↔
      ∀ a ∈ entries, ∀ b ∈ entries, Unnested a b := by
    simp only [List.forall_mem_map, Unnested, canonical_kind, canonical_relativePath]
    constructor
    · intro h a ha b hb
      exact (h a ha).2 b hb
    · intro h a ha
      exact ⟨fun b hb => h b hb a ha, fun b hb => h a ha b hb⟩
  have same : ∀ p q : Text, normalizeSourceRelativePath isalpha p false true = .ok q → q = p :=
    fun p q h => (normalize_ok_iff.mp h).1
  unfold buildWorkspaceManifest
  constructor
  · intro h
    obtain ⟨byPath, hcollect, h⟩ := bind_eq_ok.mp h
    obtain ⟨hadmissible, hdistinct, rfl⟩ := collect_nil_ok_iff.mp hcollect
    obtain ⟨⟨⟩, hnesting, h⟩ := bind_eq_ok.mp h
    obtain ⟨prefixes, hprefixes, hreturn⟩ := bind_eq_ok.mp h
    obtain ⟨hspelled, hsame⟩ := (mapM_ok_iff same).mp hprefixes
    refine ⟨⟨hadmissible, hdistinct, unnested.mp fun a ha => ?_, fun p hp => ?_⟩,
      ?_⟩
    · exact checkNesting_ok_iff.mp (forM_ok_iff.mp hnesting a ha)
    · exact (normalize_ok_iff.mp (hspelled p hp)).2.1
    · rw [hsame] at hreturn
      exact (Except.ok.inj hreturn).symm
  · intro ⟨h, hmanifest⟩
    rw [bind_eq_ok]
    refine ⟨_, collect_nil_ok_iff.mpr ⟨h.admissible, h.distinct, rfl⟩, ?_⟩
    rw [bind_eq_ok]
    refine ⟨(), forM_ok_iff.mpr fun a ha => ?_, ?_⟩
    · exact checkNesting_ok_iff.mpr (unnested.mpr h.unnested a ha)
    rw [bind_eq_ok]
    refine ⟨_, (mapM_ok_iff same).mpr ⟨fun p hp => ?_, rfl⟩, ?_⟩
    · exact normalize_ok_iff.mpr ⟨rfl, h.spelled p hp, nofun⟩
    · rw [hmanifest]
      rfl

/-! ## 5. Building again -/

theorem casefold_hex {digest : Text} (h : ∀ c ∈ digest, c ∈ hexDigits) :
    casefold digest = digest := by
  unfold casefold
  induction digest with
  | nil => rfl
  | cons c digest ih =>
    have fold : hexDigits.all (fun c => foldChar c = [c]) = true := by decide +kernel
    have fold := List.all_eq_true.mp fold c (h c List.mem_cons_self)
    rw [List.flatMap_cons, of_decide_eq_true fold,
      ih fun c hc => h c (List.mem_cons_of_mem _ hc)]
    rfl

theorem Admissible.refold (h : Admissible isalpha entry) :
    (entry.digest.map casefold).map casefold = entry.digest.map casefold := by
  cases hdigest : entry.digest with
  | none => rfl
  | some digest =>
    have := (h.digest _ (by rw [hdigest]; rfl)).2.2
    simp [casefold_hex this]

theorem Admissible.canonical (h : Admissible isalpha entry) :
    Admissible isalpha entry.canonical where
  named := h.named
  kind := h.kind
  metadata := by
    refine ⟨?_, h.metadata.2⟩
    simp only [WorkspaceEntry.canonical]
    split
    · exact h.metadata.1
    · exact Int.le_refl _
  digest := by
    intro digest hdigest
    simp only [WorkspaceEntry.canonical] at hdigest ⊢
    split at hdigest
    · rw [h.refold] at hdigest
      exact h.digest digest hdigest
    · exact absurd hdigest (by simp)
  link := h.link
  unlinked := h.unlinked

theorem Admissible.canonical_again (h : Admissible isalpha entry) :
    entry.canonical.canonical = entry.canonical := by
  simp only [WorkspaceEntry.canonical]
  by_cases hkind : entry.kind = .file
  · simp only [hkind, if_true, h.refold]
  · simp only [hkind, if_false]

instance : Std.Total WorkspaceEntry.Before where
  total a b := by
    unfold WorkspaceEntry.Before
    rcases le_total a.relativePath b.relativePath with h | h <;>
      simp only [h, and_true] <;> omega

instance : IsTrans WorkspaceEntry WorkspaceEntry.Before where
  trans a b c := by
    unfold WorkspaceEntry.Before
    by_cases hab : a.relativePath ≤ b.relativePath
    · by_cases hbc : b.relativePath ≤ c.relativePath
      · simp only [hab, hbc, le_trans hab hbc, and_true]
        omega
      · simp only [hbc, and_false, or_false]
        omega
    · simp only [hab, and_false, or_false]
      omega

theorem sortEntries_perm : (sortEntries entries).Perm entries := List.perm_insertionSort _ _

theorem sortEntries_again : sortEntries (sortEntries entries) = sortEntries entries :=
  (List.pairwise_insertionSort _ _).insertionSort_eq

theorem mem_sortPrefixes {p : Text} {prefixes : List Text} :
    p ∈ sortPrefixes prefixes ↔ p ∈ prefixes := by
  simp [sortPrefixes]

theorem sortPrefixes_again {prefixes : List Text} :
    sortPrefixes (sortPrefixes prefixes) = sortPrefixes prefixes := by
  unfold sortPrefixes
  have nodup : (prefixes.dedup.insertionSort (· ≤ ·)).Nodup :=
    (List.perm_insertionSort _ _).nodup_iff.mpr (List.nodup_dedup _)
  rw [nodup.dedup]
  exact (List.pairwise_insertionSort _ _).insertionSort_eq

variable {excludedPrefixes : List Text}

theorem mem_manifestOf : entry ∈ (manifestOf entries excludedPrefixes).entries ↔
    ∃ e ∈ entries, e.canonical = entry := by
  simp [manifestOf, sortEntries]

theorem Buildable.again (h : Buildable isalpha entries excludedPrefixes) :
    Buildable isalpha (manifestOf entries excludedPrefixes).entries
      (manifestOf entries excludedPrefixes).excludedPrefixes where
  admissible := by
    intro e he
    obtain ⟨e, hmem, rfl⟩ := mem_manifestOf.mp he
    exact (h.admissible e hmem).canonical
  distinct := by
    apply ((sortEntries_perm.map _).nodup_iff).mpr
    rw [map_canonical_relativePath]
    exact h.distinct
  unnested := by
    intro a ha b hb
    obtain ⟨a, hma, rfl⟩ := mem_manifestOf.mp ha
    obtain ⟨b, hmb, rfl⟩ := mem_manifestOf.mp hb
    exact h.unnested a hma b hmb
  spelled := by
    intro p hp
    exact h.spelled p (mem_sortPrefixes.mp hp)

theorem map_canonical_again (h : ∀ e ∈ entries, Admissible isalpha e) :
    (sortEntries (entries.map WorkspaceEntry.canonical)).map WorkspaceEntry.canonical =
      sortEntries (entries.map WorkspaceEntry.canonical) := by
  have same : ∀ e ∈ sortEntries (entries.map WorkspaceEntry.canonical), e.canonical = id e := by
    intro e he
    obtain ⟨e, hmem, rfl⟩ := List.mem_map.mp (sortEntries_perm.mem_iff.mp he)
    exact (h e hmem).canonical_again
  rw [List.map_congr_left same, List.map_id]

/-- **A manifest builds to itself.** -/
theorem build_again {manifest : WorkspaceManifest}
    (h : buildWorkspaceManifest isalpha entries excludedPrefixes = .ok manifest) :
    buildWorkspaceManifest isalpha manifest.entries manifest.excludedPrefixes = .ok manifest := by
  obtain ⟨hbuildable, rfl⟩ := build_ok_iff.mp h
  refine build_ok_iff.mpr ⟨hbuildable.again, ?_⟩
  unfold manifestOf
  simp only [map_canonical_again hbuildable.admissible, sortEntries_again, sortPrefixes_again]

/-! ## 6. The order of the entries -/

variable {others : List WorkspaceEntry} {manifest : WorkspaceManifest}

theorem before_antisymm {a b : WorkspaceEntry} (hab : a.Before b) (hba : b.Before a) :
    a.relativePath = b.relativePath := by
  unfold WorkspaceEntry.Before at hab hba
  apply le_antisymm
  · rcases hab with h | ⟨h, h' | ⟨h', hle⟩⟩
    · omega
    · omega
    · exact hle
  · rcases hba with h | ⟨h, h' | ⟨h', hle⟩⟩
    · omega
    · omega
    · exact hle

/-- Entries of distinct paths are sorted in one way only. -/
theorem sortEntries_eq (distinct : (entries.map WorkspaceEntry.relativePath).Nodup)
    (h : others.Perm entries) : sortEntries others = sortEntries entries := by
  have perm : (sortEntries others).Perm (sortEntries entries) :=
    sortEntries_perm.trans (h.trans sortEntries_perm.symm)
  apply perm.eq_of_pairwise
  · intro a b ha hb hab hba
    apply List.inj_on_of_nodup_map distinct
    · exact h.mem_iff.mp (sortEntries_perm.mem_iff.mp ha)
    · exact sortEntries_perm.mem_iff.mp hb
    · exact before_antisymm hab hba
  · exact List.pairwise_insertionSort _ _
  · exact List.pairwise_insertionSort _ _

theorem Buildable.perm (h : Buildable isalpha entries excludedPrefixes)
    (perm : others.Perm entries) : Buildable isalpha others excludedPrefixes where
  admissible := by
    intro e he
    exact h.admissible e (perm.mem_iff.mp he)
  distinct := ((perm.map _).nodup_iff).mpr h.distinct
  unnested := by
    intro a ha b hb
    exact h.unnested a (perm.mem_iff.mp ha) b (perm.mem_iff.mp hb)
  spelled := h.spelled

/-- **The order of the entries makes no difference.** -/
theorem build_perm (h : buildWorkspaceManifest isalpha entries excludedPrefixes = .ok manifest)
    (perm : others.Perm entries) :
    buildWorkspaceManifest isalpha others excludedPrefixes = .ok manifest := by
  obtain ⟨hbuildable, rfl⟩ := build_ok_iff.mp h
  refine build_ok_iff.mpr ⟨hbuildable.perm perm, ?_⟩
  have distinct : ((entries.map WorkspaceEntry.canonical).map WorkspaceEntry.relativePath).Nodup := by
    rw [map_canonical_relativePath]
    exact hbuildable.distinct
  unfold manifestOf
  rw [sortEntries_eq distinct (perm.map _)]

theorem below_depth {a b : Text} (h : Below a b) : a.count '/' < b.count '/' := by
  obtain ⟨rest, rfl⟩ := h
  rw [List.count_append, List.count_append, List.count_singleton_self]
  omega

/-- What an entry lies below stands before it. -/
theorem build_parentsFirst
    (h : buildWorkspaceManifest isalpha entries excludedPrefixes = .ok manifest) :
    manifest.entries.Pairwise fun earlier later =>
      ¬Below later.relativePath earlier.relativePath := by
  obtain ⟨-, rfl⟩ := build_ok_iff.mp h
  have sorted : (sortEntries (entries.map WorkspaceEntry.canonical)).Pairwise
      WorkspaceEntry.Before := List.pairwise_insertionSort _ _
  apply sorted.imp
  intro earlier later hbefore hbelow
  have := below_depth hbelow
  unfold WorkspaceEntry.Before at hbefore
  dsimp only at hbefore
  omega

/-- Nothing lies below what is not a directory. -/
theorem build_unnested
    (h : buildWorkspaceManifest isalpha entries excludedPrefixes = .ok manifest) :
    ∀ a ∈ manifest.entries, ∀ b ∈ manifest.entries, Unnested a b := by
  obtain ⟨hbuildable, rfl⟩ := build_ok_iff.mp h
  exact hbuildable.again.unnested

end checks

end Termroom.Sources
