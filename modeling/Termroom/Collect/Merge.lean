import Mathlib
import Termroom.Collect.Plan

/-!
# A collection is a three-way merge

What the plan makes of baseline, result and Source, where neither the result nor the Source changes
while it is built. Every file of the result has one item, every file of the baseline that the
result lacks has one, and the items that are ready are those of the files that only the run has
changed (`plan_merges`). The Source has a say in that as **text that could be edited**: a file of
it that is no text is a conflict, even if it is still the baseline's (`untouched_binary`).
-/

set_option autoImplicit false

namespace Termroom.Collect

open Conc Data Archive Sources

/-! ## 1. The Source -/

/-- What `lstat` finds at a path. -/
inductive SourceNode where
  | directory (size mtimeNs : Nat)
  | file (content : Bytes) (mtimeNs : Nat) (readable : Bool)
  | symlink
  | special (size mtimeNs : Nat)
  deriving DecidableEq, Repr

def SourceNode.isDir : SourceNode → Bool
  | directory _ _ => true
  | file _ _ _ | symlink | special _ _ => false

def SourceNode.size : SourceNode → Nat
  | directory size _ | special size _ => size
  | file content _ _ => content.length
  | symlink => 0

def SourceNode.mtimeNs : SourceNode → Nat
  | directory _ mtimeNs | special _ mtimeNs | file _ mtimeNs _ => mtimeNs
  | symlink => 0

inductive LstatError where
  | notFound
  | notADirectory
  | other
  deriving DecidableEq, Repr

/-- What `_resolve_existing` makes of an `OSError`. -/
def LstatError.raised : LstatError → FileError
  | notFound => .notFound
  | notADirectory => .notADirectory
  | other => .unsupported

/-- The files of a Workspace: whether its root is there, and what `lstat` says below it. -/
structure SourceTree where
  root : Bool
  lstat : List Text → Except LstatError SourceNode

/-- The loop of `resolve_no_symlink_inside`. -/
def SourceTree.walk (tree : SourceTree) : (current parts : List Text) → Except FileError SourceNode
  | _, [] => .error .pathBoundary
  | current, part :: rest =>
    match tree.lstat (current ++ [part]) with
    | .error e => .error e.raised
    | .ok .symlink => .error .pathBoundary
    | .ok node =>
      if rest = [] then .ok node
      else if node.isDir then tree.walk (current ++ [part]) rest
      else .error .notADirectory

/-- `FileService._resolve_existing`, and what is there. -/
def SourceTree.resolveExisting (tree : SourceTree) (path : Text) : Except FileError SourceNode :=
  if tree.root = false then .error .notFound
  else if path = [] ∨ path = ['.'] then .ok (.directory 0 0)
  else if path.head? = some '/' ∨ posixParts path = [] ∨ ['.', '.'] ∈ posixParts path then
    .error .pathBoundary
  else tree.walk [] (posixParts path)

def SourceNode.entry (node : SourceNode) (path : Text) : FileEntry where
  name := (posixParts path).getLastD []
  relativePath := asPosix (posixParts path)
  isDir := node.isDir
  size := node.size
  mtimeNs := node.mtimeNs

/-- `FileService.stat`. -/
def SourceTree.stat (tree : SourceTree) (path : Text) : Except FileError FileEntry := do
  let node ← tree.resolveExisting path
  return node.entry path

/-- `FileService.read_text`. -/
def SourceTree.readText (tree : SourceTree) (fileDigest : Bytes → Text) (maxEditBytes : Nat)
    (path : Text) : Except FileError FileSnapshot := do
  let node ← tree.resolveExisting path
  match node with
  | .file content mtimeNs readable =>
    if maxEditBytes < content.length then .error .unsupported
    else if readable = false then .error (.other "PermissionError")
    else if 0 ∈ content then .error .unsupported
    else
      match decodeUtf8 content with
      | none => .error .unsupported
      | some text => .ok ⟨asPosix (posixParts path), text, fileDigest content, mtimeNs⟩
  | .directory _ _ | .symlink | .special _ _ => .error .unsupported

/-- What a plan is built among: a backend that answers for the result, and a Source. -/
structure Surroundings where
  listDir : ListOp → ListAnswer
  resultStat : Text → Except FileError FileEntry
  resultDownload : Text → Download
  source : SourceTree

def Surroundings.answer (s : Surroundings) (review : Review) : (o : CollectOp) → o.Ans
  | .listDir listing => s.listDir listing
  | .resultStat path => s.resultStat path
  | .resultDownload path => s.resultDownload path
  | .sourceStat path => s.source.stat path
  | .sourceReadText path => s.source.readText review.fileDigest review.maxEditBytes path

/-! ## 2. What is read of the Source -/

variable {review : Review} {s : Surroundings} {tree : SourceTree} {path relative : Text}
  {node : SourceNode} {snapshot : FileSnapshot} {raw : Bytes}

theorem utf8_of_decodeUtf8 {text : Text} (h : decodeUtf8 raw = some text) : utf8 text = raw := by
  unfold decodeUtf8 at h
  obtain ⟨chars, hchars, rfl⟩ := Option.map_eq_some_iff.mp h
  have hsome : raw.toByteArray.utf8Decode?.isSome = true := by rw [hchars]; rfl
  obtain ⟨l, hl⟩ := ByteArray.isSome_utf8Decode?_iff.mp hsome
  rw [hl, List.utf8Decode?_utf8Encode] at hchars
  obtain rfl := Option.some.inj hchars
  have hdata := congrArg (fun b => b.data.toList) hl
  simpa [utf8, List.utf8Encode] using hdata.symm

/-- What stops a walk is missing, or not to be shown. -/
theorem walk_error {parts current : List Text} {e : FileError}
    (h : tree.walk current parts = .error e) : e = .notFound ∨ e.sourceUnsupported = true := by
  induction parts generalizing current with
  | nil =>
    cases h
    exact .inr rfl
  | cons part rest ih =>
    unfold SourceTree.walk at h
    split at h
    · rename_i e' _
      cases h
      cases e' with
      | notFound => exact .inl rfl
      | notADirectory => exact .inr rfl
      | other => exact .inr rfl
    · cases h
      exact .inr rfl
    · split at h
      · cases h
      · split at h
        · exact ih h
        · cases h
          exact .inr rfl

theorem resolveExisting_error {e : FileError} (h : tree.resolveExisting path = .error e) :
    e = .notFound ∨ e.sourceUnsupported = true := by
  unfold SourceTree.resolveExisting at h
  split at h
  · cases h
    exact .inl rfl
  split at h
  · cases h
  split at h
  · cases h
    exact .inr rfl
  · exact walk_error h

/-- The text that can be edited at a path. -/
theorem readText_ok_iff {digest : Bytes → Text} {maxEditBytes : Nat} :
    tree.readText digest maxEditBytes path = .ok snapshot ↔
      ∃ content mtimeNs text, tree.resolveExisting path = .ok (.file content mtimeNs true) ∧
        content.length ≤ maxEditBytes ∧ 0 ∉ content ∧ decodeUtf8 content = some text ∧
        snapshot = ⟨asPosix (posixParts path), text, digest content, mtimeNs⟩ := by
  unfold SourceTree.readText
  constructor
  · intro h
    obtain ⟨node, hnode, h⟩ := bind_eq_ok.mp h
    split at h
    · rename_i content mtimeNs readable
      split at h
      · cases h
      rename_i hsize
      split at h
      · cases h
      rename_i hreadable
      split at h
      · cases h
      rename_i hbinary
      split at h
      · cases h
      · rename_i text htext
        rw [Bool.not_eq_false] at hreadable
        rw [hreadable] at hnode
        exact ⟨content, mtimeNs, text, hnode, Nat.le_of_not_lt hsize, hbinary, htext,
          (Except.ok.inj h).symm⟩
    all_goals cases h
  · rintro ⟨content, mtimeNs, text, hnode, hsize, hbinary, htext, rfl⟩
    rw [hnode]
    simp [Nat.not_lt_of_le hsize, hbinary, htext]

/-- What is at a path is not missing when it is read. -/
theorem readText_error {digest : Bytes → Text} {maxEditBytes : Nat} {e : FileError}
    (hnode : tree.resolveExisting path = .ok node)
    (h : tree.readText digest maxEditBytes path = .error e) : e ≠ .notFound := by
  rintro rfl
  unfold SourceTree.readText at h
  rw [hnode, ok_bind] at h
  split at h
  · split at h
    · cases h
    split at h
    · cases h
    split at h
    · cases h
    split at h
    · cases h
    · cases h
  all_goals cases h

theorem eval_readEditable (hnode : s.source.resolveExisting relative = .ok node) :
    (readEditable relative (node.entry relative)).eval (s.answer review) =
      match s.source.readText review.fileDigest review.maxEditBytes relative with
      | .ok snapshot => .ok (.text snapshot)
      | .error e =>
        if e.sourceUnsupported then .ok (.refused "source_not_editable_text")
        else .error (.file e) := by
  have hagain : s.source.stat relative = .ok (node.entry relative) := by
    rw [SourceTree.stat, hnode]
    rfl
  cases hread : s.source.readText review.fileDigest review.maxEditBytes relative with
  | error e =>
    have hne := readText_error hnode hread
    have hanswer : s.answer review (.sourceReadText relative) = .error e := hread
    rw [readEditable, Prog.eval_bind, Prog.eval_perform, ok_bind, hanswer]
    cases e with
    | notFound => exact absurd rfl hne
    | notADirectory | pathBoundary | unsupported | conflict | «exists» | other _ => rfl
  | ok snapshot =>
    obtain ⟨content, mtimeNs, text, hfile, -, -, htext, rfl⟩ := readText_ok_iff.mp hread
    have hanswer : s.answer review (.sourceReadText relative) = .ok _ := hread
    have hagain' : s.answer review (.sourceStat relative) = .ok (node.entry relative) := hagain
    obtain rfl := Except.ok.inj (hnode.symm.trans hfile)
    rw [readEditable, Prog.eval_bind, Prog.eval_perform, ok_bind, hanswer]
    dsimp only
    rw [Prog.eval_bind, Prog.eval_perform, ok_bind, hagain']
    -- what was looked at twice is the same, and the text is that of the bytes
    simp [SourceNode.entry, SourceNode.mtimeNs, SourceNode.size, utf8_of_decodeUtf8 htext]

theorem sourceUnsupported_of_error {e : FileError}
    (h : s.source.resolveExisting relative = .error e) (hne : e ≠ .notFound) :
    e.sourceUnsupported = true := (resolveExisting_error h).resolve_left hne

/-- What the collector makes of a path of the Source. -/
theorem eval_readCurrentSource (hrelative : review.sourceRelativePath path = .ok relative) :
    (readCurrentSource review path).eval (s.answer review) =
      match s.source.resolveExisting relative with
      | .error .notFound => .ok .missing
      | .error _ => .ok (.refused "source_path_unsupported")
      | .ok node =>
        if node.isDir then .ok (.refused "source_path_is_directory")
        else
          match s.source.readText review.fileDigest review.maxEditBytes relative with
          | .ok snapshot => .ok (.text snapshot)
          | .error e =>
            if e.sourceUnsupported then .ok (.refused "source_not_editable_text")
            else .error (.file e) := by
  rw [readCurrentSource, hrelative, Prog.eval_bind, Prog.eval_ofExcept, ok_bind, Prog.eval_bind,
    Prog.eval_perform, ok_bind]
  have hstat : s.answer review (.sourceStat relative) = s.source.stat relative := rfl
  rw [hstat, SourceTree.stat]
  cases hnode : s.source.resolveExisting relative with
  | error e =>
    rw [error_bind]
    cases e with
    | notFound => rfl
    | notADirectory | pathBoundary | unsupported | conflict | «exists» | other _ =>
      have hunsupported := sourceUnsupported_of_error hnode (by simp)
      dsimp only
      rw [if_pos hunsupported]
      rfl
  | ok node =>
    rw [ok_bind]
    dsimp only [Pure.pure, Except.pure, SourceNode.entry]
    by_cases hdir : node.isDir = true
    · rw [if_pos hdir, if_pos hdir]
      rfl
    · rw [if_neg hdir, if_neg hdir]
      exact eval_readEditable hnode

theorem currentSource_text_iff (hrelative : review.sourceRelativePath path = .ok relative) :
    (readCurrentSource review path).eval (s.answer review) = .ok (.text snapshot) ↔
      s.source.readText review.fileDigest review.maxEditBytes relative = .ok snapshot := by
  rw [eval_readCurrentSource hrelative]
  constructor
  · intro h
    split at h
    · cases h
    · cases h
    · split at h
      · cases h
      split at h
      · rename_i hread
        cases h
        exact hread
      · split at h
        · cases h
        · cases h
  · intro hread
    obtain ⟨content, mtimeNs, text, hnode, -⟩ := readText_ok_iff.mp hread
    rw [hnode]
    dsimp only
    rw [if_neg (by simp [SourceNode.isDir]), hread]

theorem currentSource_missing_iff (hrelative : review.sourceRelativePath path = .ok relative) :
    (readCurrentSource review path).eval (s.answer review) = .ok .missing ↔
      s.source.resolveExisting relative = .error .notFound := by
  rw [eval_readCurrentSource hrelative]
  constructor
  · intro h
    split at h
    · assumption
    · cases h
    · split at h
      · cases h
      split at h
      · cases h
      · split at h
        · cases h
        · cases h
  · intro hmissing
    rw [hmissing]

/-- There is a directory to put a file in; the root itself is not looked at. -/
def ParentThere (source : SourceTree) (relative : Text) : Prop :=
  parentPath relative = ['.'] ∨
    ∃ node, source.resolveExisting (parentPath relative) = .ok node ∧ node.isDir = true

theorem eval_additionParentExists (hrelative : review.sourceRelativePath path = .ok relative) :
    ∃ found, (additionParentExists review path).eval (s.answer review) = .ok found ∧
      (found = true ↔ ParentThere s.source relative) := by
  rw [additionParentExists, hrelative, Prog.eval_bind, Prog.eval_ofExcept, ok_bind]
  dsimp only
  by_cases hroot : parentPath relative = ['.']
  · rw [if_pos hroot]
    exact ⟨true, rfl, iff_of_true rfl (.inl hroot)⟩
  rw [if_neg hroot, Prog.eval_bind, Prog.eval_perform, ok_bind]
  have hstat : s.answer review (.sourceStat (parentPath relative)) =
      s.source.stat (parentPath relative) := rfl
  rw [hstat, SourceTree.stat]
  unfold ParentThere
  cases hnode : s.source.resolveExisting (parentPath relative) with
  | error e =>
    rw [error_bind]
    dsimp only
    rw [if_pos (resolveExisting_error hnode)]
    refine ⟨false, rfl, ?_⟩
    simp [hroot]
  | ok node =>
    rw [ok_bind]
    refine ⟨node.isDir, rfl, ?_⟩
    simp [hroot]

/-! ## 3. Which items are ready -/

/-- What makes a file of the result one to be written: `current` is said of the Source's file and
    its digest, and `vacant` of a path where the Source has nothing. -/
structure Eligible (review : Review) (s : Surroundings) (manifest : WorkspaceManifest)
    (current : Text → Text → Prop) (vacant : Text → Prop) (entry : FileEntry) : Prop where
  kept : isMandatoryExcluded entry.relativePath manifest.excludedPrefixes = false
  file : entry.isDir = false
  size : entry.size ≤ review.maxEditBytes
  text : ∃ raw relative, (readStableFile entry).eval (s.answer review) = .ok raw ∧ 0 ∉ raw ∧
    (decodeUtf8 raw).isSome = true ∧
    review.sourceRelativePath entry.relativePath = .ok relative ∧
    ((∃ baseline ∈ manifest.entries, baseline.relativePath = entry.relativePath ∧
        baseline.kind = .file ∧ ∃ digest, baseline.digest = some digest ∧
          current relative digest ∧ digest ≠ review.fileDigest raw) ∨
      ((∀ baseline ∈ manifest.entries, baseline.relativePath ≠ entry.relativePath) ∧
        defaultExcluded entry.relativePath = false ∧ vacant relative))

/-- The Source has an editable text with this digest. -/
def EditableAs (review : Review) (source : SourceTree) (relative digest : Text) : Prop :=
  ∃ content mtimeNs, source.resolveExisting relative = .ok (.file content mtimeNs true) ∧
    content.length ≤ review.maxEditBytes ∧ 0 ∉ content ∧ (decodeUtf8 content).isSome = true ∧
    digest = review.fileDigest content

/-- The Source has nothing at a path, and a directory to put it in. -/
def VacantIn (source : SourceTree) (relative : Text) : Prop :=
  source.resolveExisting relative = .error .notFound ∧ ParentThere source relative

theorem editableAs_iff {digest : Text} : EditableAs review s.source relative digest ↔
    ∃ snapshot, s.source.readText review.fileDigest review.maxEditBytes relative = .ok snapshot ∧
      digest = snapshot.digest := by
  constructor
  · rintro ⟨content, mtimeNs, hnode, hsize, hbinary, htext, hdigest⟩
    obtain ⟨text, htext⟩ := Option.isSome_iff_exists.mp htext
    exact ⟨_, readText_ok_iff.mpr ⟨content, mtimeNs, text, hnode, hsize, hbinary, htext, rfl⟩,
      hdigest⟩
  · rintro ⟨snapshot, hread, hdigest⟩
    obtain ⟨content, mtimeNs, text, hnode, hsize, hbinary, htext, rfl⟩ := readText_ok_iff.mp hread
    exact ⟨content, mtimeNs, hnode, hsize, hbinary, by rw [htext]; rfl, hdigest⟩

variable {baseline : Option WorkspaceEntry} {planned : PlannedItem} {resultDigest : Text}
  {current : CurrentSource}

theorem sourceRelativePath_of_current
    (h : (readCurrentSource review path).eval (s.answer review) = .ok current) :
    ∃ relative, review.sourceRelativePath path = .ok relative := by
  rw [readCurrentSource, Prog.eval_bind, Prog.eval_ofExcept] at h
  obtain ⟨relative, hrelative, -⟩ := bind_eq_ok.mp h
  exact ⟨relative, hrelative⟩

theorem planModified_ready {digest : Text} (hne : snapshot.digest ≠ resultDigest) :
    (planModified path digest resultDigest snapshot).item.status = .ready ↔
      digest = snapshot.digest := by
  unfold planModified
  dsimp only
  by_cases hsame : snapshot.digest = digest
  · subst hsame
    simp [Ne.symm hne]
  · simp [hsame, Ne.symm hsame]

/-- An item against the Source as it was read. -/
theorem planAgainst_spec (hrelative : review.sourceRelativePath path = .ok relative)
    (h : (planAgainst review path baseline resultDigest current).eval (s.answer review) =
      .ok planned) :
    planned.item.path = path ∧ (planned.item.status = .ready ↔
      (∃ entry snapshot, baseline = some entry ∧ current = .text snapshot ∧
        entry.digest = some snapshot.digest ∧ snapshot.digest ≠ resultDigest) ∨
      (baseline = none ∧ current = .missing ∧ ParentThere s.source relative)) := by
  cases current with
  | refused reason =>
    obtain rfl := Except.ok.inj h
    simp
  | missing =>
    cases baseline with
    | none =>
      obtain ⟨found, hfound, hparent⟩ := eval_additionParentExists (s := s) hrelative
      rw [planAgainst, planAddition, Prog.eval_bind, hfound, ok_bind] at h
      cases found with
      | false =>
        obtain rfl := Except.ok.inj h
        have hnot : ¬ParentThere s.source relative := fun there => by simpa using hparent.mpr there
        simp [hnot]
      | true =>
        obtain rfl := Except.ok.inj h
        simp [hparent.mp rfl]
    | some entry =>
      rw [planAgainst, Prog.eval_bind, Prog.eval_ofExcept] at h
      obtain ⟨digest, -, h⟩ := bind_eq_ok.mp h
      obtain rfl := Except.ok.inj h
      simp
  | text snapshot =>
    dsimp only [planAgainst] at h
    by_cases hsame : snapshot.digest = resultDigest
    · rw [if_pos hsame] at h
      obtain rfl := Except.ok.inj h
      simp [hsame]
    rw [if_neg hsame] at h
    cases baseline with
    | none =>
      obtain rfl := Except.ok.inj h
      simp [planExisting]
    | some entry =>
      dsimp only at h
      rw [Prog.eval_bind, Prog.eval_ofExcept] at h
      obtain ⟨digest, hdigest, h⟩ := bind_eq_ok.mp h
      obtain rfl := Except.ok.inj h
      have hentry : entry.digest = some digest := by
        unfold baselineDigest at hdigest
        split at hdigest
        · cases hdigest
        · rename_i d hd
          rw [hd, Except.ok.inj hdigest]
      refine ⟨?_, ?_⟩
      · unfold planModified
        dsimp only
        split
        · rfl
        split
        · rfl
        · rfl
      rw [planModified_ready hsame]
      simp [hentry, hsame]

/-- An item for a text of the result. -/
theorem planText_spec
    (h : (planText review path baseline raw).eval (s.answer review) = .ok planned) :
    planned.item.path = path ∧ (planned.item.status = .ready ↔
      ∃ relative, review.sourceRelativePath path = .ok relative ∧
        ((∃ entry, baseline = some entry ∧ entry.kind = .file ∧ ∃ digest,
            entry.digest = some digest ∧ EditableAs review s.source relative digest ∧
              digest ≠ review.fileDigest raw) ∨
          (baseline = none ∧ defaultExcluded path = false ∧ VacantIn s.source relative))) := by
  unfold planText at h
  dsimp only at h
  by_cases hkind : baseline.any (·.kind ≠ .file) = true
  · rw [if_pos hkind] at h
    obtain rfl := Except.ok.inj h
    obtain ⟨entry, rfl, hentry⟩ := Option.any_eq_true _ _ |>.mp hkind
    have hother : entry.kind ≠ .file := by simpa using hentry
    simp [hother]
  rw [if_neg hkind, Prog.eval_bind, Prog.eval_ofExcept] at h
  obtain ⟨excluded, hexcluded, h⟩ := bind_eq_ok.mp h
  -- what the baseline has is not excluded, and what it has here is a file
  have hfile : ∀ entry, baseline = some entry → entry.kind = .file := by
    rintro entry rfl
    simpa using hkind
  have hdefault : excluded = true ↔ baseline = none ∧ defaultExcluded path = true := by
    cases baseline with
    | some entry =>
      obtain rfl := Except.ok.inj hexcluded
      simp
    | none =>
      rw [if_neg (by simp)] at hexcluded
      cases hcheck : isDefaultWorkspaceExcluded review.isalpha path with
      | error e =>
        rw [hcheck] at hexcluded
        cases hexcluded
      | ok r =>
        rw [hcheck] at hexcluded
        obtain rfl := Except.ok.inj hexcluded
        obtain ⟨-, rfl⟩ := isDefaultWorkspaceExcluded_ok.mp hcheck
        simp
  by_cases hskip : excluded = true
  · rw [if_pos hskip] at h
    obtain rfl := Except.ok.inj h
    obtain ⟨rfl, hpath⟩ := hdefault.mp hskip
    simp [hpath]
  rw [if_neg hskip, Prog.eval_bind] at h
  obtain ⟨current, hcurrent, h⟩ := bind_eq_ok.mp h
  obtain ⟨relative, hrelative⟩ := sourceRelativePath_of_current hcurrent
  obtain ⟨hpath, hready⟩ := planAgainst_spec hrelative h
  refine ⟨hpath, hready.trans ?_⟩
  constructor
  · rintro (⟨entry, snapshot, rfl, rfl, hdigest, hne⟩ | ⟨rfl, rfl, hparent⟩)
    · have hread := (currentSource_text_iff hrelative).mp hcurrent
      exact ⟨relative, hrelative, .inl ⟨entry, rfl, hfile entry rfl, snapshot.digest, hdigest,
        editableAs_iff.mpr ⟨snapshot, hread, rfl⟩, hne⟩⟩
    · have hmissing := (currentSource_missing_iff hrelative).mp hcurrent
      have hkept : defaultExcluded path = false := by simpa [hskip] using hdefault
      exact ⟨relative, hrelative, .inr ⟨rfl, hkept, hmissing, hparent⟩⟩
  · rintro ⟨relative', hrelative', hcase⟩
    obtain rfl := Except.ok.inj (hrelative.symm.trans hrelative')
    rcases hcase with ⟨entry, rfl, -, digest, hdigest, heditable, hne⟩ | ⟨rfl, -, hmissing, hparent⟩
    · obtain ⟨snapshot, hread, rfl⟩ := editableAs_iff.mp heditable
      have htext := (currentSource_text_iff hrelative).mpr hread
      obtain rfl := Except.ok.inj (hcurrent.symm.trans htext)
      exact .inl ⟨entry, snapshot, rfl, rfl, hdigest, hne⟩
    · have hvacant := (currentSource_missing_iff hrelative).mpr hmissing
      obtain rfl := Except.ok.inj (hcurrent.symm.trans hvacant)
      exact .inr ⟨rfl, rfl, hparent⟩

/-- What makes a file of the result a text that is ready. -/
def TextReady (review : Review) (s : Surroundings) (path : Text)
    (baseline : Option WorkspaceEntry) (raw : Bytes) : Prop :=
  ∃ relative, review.sourceRelativePath path = .ok relative ∧
    ((∃ entry, baseline = some entry ∧ entry.kind = .file ∧ ∃ digest,
        entry.digest = some digest ∧ EditableAs review s.source relative digest ∧
          digest ≠ review.fileDigest raw) ∨
      (baseline = none ∧ defaultExcluded path = false ∧ VacantIn s.source relative))

variable {entry : FileEntry} {manifest : WorkspaceManifest} {items : List PlannedItem}

/-- An item for a file of the result. -/
theorem planFile_spec
    (h : (planFile review entry baseline).eval (s.answer review) = .ok planned) :
    planned.item.path = entry.relativePath ∧ (planned.item.status = .ready ↔
      entry.size ≤ review.maxEditBytes ∧
        ∃ raw, (readStableFile entry).eval (s.answer review) = .ok raw ∧ 0 ∉ raw ∧
          (decodeUtf8 raw).isSome = true ∧ TextReady review s entry.relativePath baseline raw) := by
  unfold planFile at h
  dsimp only at h
  by_cases hsize : review.maxEditBytes < entry.size
  · rw [if_pos hsize] at h
    obtain rfl := Except.ok.inj h
    simp [skippedItem, Nat.not_le_of_lt hsize]
  rw [if_neg hsize, Prog.eval_bind, Prog.eval_attempt, ok_bind] at h
  have hle := Nat.le_of_not_lt hsize
  cases hread : (readStableFile entry).eval (s.answer review) with
  | error e =>
    rw [hread] at h
    cases e with
    | file e =>
      cases e with
      | unsupported =>
        obtain rfl := Except.ok.inj h
        simp [skippedItem]
      | notFound | notADirectory | pathBoundary | conflict | «exists» | other _ => cases h
    | result _ _ | changed _ _ | path _ | scan _ => cases h
  | ok raw =>
    rw [hread] at h
    dsimp only at h
    by_cases hbinary : 0 ∈ raw
    · rw [if_pos hbinary] at h
      obtain rfl := Except.ok.inj h
      simp [skippedItem, hbinary]
    rw [if_neg hbinary] at h
    by_cases htext : (decodeUtf8 raw).isNone = true
    · rw [if_pos htext] at h
      obtain rfl := Except.ok.inj h
      simp [skippedItem, Option.isNone_iff_eq_none.mp htext]
    rw [if_neg htext] at h
    obtain ⟨hpath, hready⟩ := planText_spec h
    refine ⟨hpath, hready.trans ?_⟩
    have hsome : (decodeUtf8 raw).isSome = true := by
      rw [Option.isSome_iff_ne_none]
      simpa using htext
    constructor
    · intro ready
      exact ⟨hle, raw, rfl, hbinary, hsome, ready⟩
    · rintro ⟨-, raw', hraw, -, -, ready⟩
      obtain rfl := Except.ok.inj hraw
      exact ready

/-- A path has one entry in the baseline. -/
theorem find_baseline (unique : (manifest.entries.map WorkspaceEntry.relativePath).Nodup)
    {b : WorkspaceEntry} : (manifest.entries.find? fun e => e.relativePath = path) = some b ↔
      b ∈ manifest.entries ∧ b.relativePath = path := by
  constructor
  · intro h
    exact ⟨List.mem_of_find?_eq_some h, by simpa using List.find?_some h⟩
  · rintro ⟨hmem, hpath⟩
    cases hfind : manifest.entries.find? fun e => e.relativePath = path with
    | none =>
      have hnone := List.find?_eq_none.mp hfind b hmem
      simp [hpath] at hnone
    | some other =>
      have hother : other.relativePath = path := by simpa using List.find?_some hfind
      rw [List.inj_on_of_nodup_map unique (List.mem_of_find?_eq_some hfind) hmem
        (hother.trans hpath.symm)]

/-- Readiness against the baseline that a path has. -/
theorem textReady_iff (unique : (manifest.entries.map WorkspaceEntry.relativePath).Nodup) :
    TextReady review s path (manifest.entries.find? fun e => e.relativePath = path) raw ↔
      ∃ relative, review.sourceRelativePath path = .ok relative ∧
        ((∃ baseline ∈ manifest.entries, baseline.relativePath = path ∧ baseline.kind = .file ∧
            ∃ digest, baseline.digest = some digest ∧ EditableAs review s.source relative digest ∧
              digest ≠ review.fileDigest raw) ∨
          ((∀ baseline ∈ manifest.entries, baseline.relativePath ≠ path) ∧
            defaultExcluded path = false ∧ VacantIn s.source relative)) := by
  have hnone : (manifest.entries.find? fun e => e.relativePath = path) = none ↔
      ∀ baseline ∈ manifest.entries, baseline.relativePath ≠ path := by
    simp [List.find?_eq_none]
  unfold TextReady
  simp only [find_baseline unique, hnone, and_assoc]

/-- What one turn of the loop adds. -/
theorem planEntry_spec (unique : (manifest.entries.map WorkspaceEntry.relativePath).Nodup)
    (h : (planEntry review manifest entry).eval (s.answer review) = .ok items) :
    (items = [] ∧ entry.isDir = true) ∨ ∃ planned, items = [planned] ∧
      planned.item.path = entry.relativePath ∧ (planned.item.status = .ready ↔
        Eligible review s manifest (EditableAs review s.source) (VacantIn s.source) entry) := by
  unfold planEntry at h
  dsimp only at h
  by_cases hexcluded : isMandatoryExcluded entry.relativePath manifest.excludedPrefixes = true
  · rw [if_pos hexcluded] at h
    obtain rfl := Except.ok.inj h
    by_cases hdir : entry.isDir = true
    · exact .inl ⟨if_pos hdir, hdir⟩
    · right
      refine ⟨_, if_neg hdir, rfl, ?_⟩
      refine iff_of_false (by simp [skippedItem]) fun eligible => ?_
      exact absurd (eligible.kept.symm.trans hexcluded) (by simp)
  rw [if_neg hexcluded] at h
  by_cases hdir : entry.isDir = true
  · rw [if_pos hdir] at h
    obtain rfl := Except.ok.inj h
    split
    · right
      refine ⟨_, rfl, rfl, ?_⟩
      refine iff_of_false (by simp) fun eligible => ?_
      exact absurd (eligible.file.symm.trans hdir) (by simp)
    · exact .inl ⟨rfl, hdir⟩
  rw [if_neg hdir, Prog.eval_bind] at h
  obtain ⟨planned, hplanned, h⟩ := bind_eq_ok.mp h
  obtain rfl := Except.ok.inj h
  obtain ⟨hpath, hready⟩ := planFile_spec hplanned
  refine .inr ⟨planned, rfl, hpath, hready.trans ?_⟩
  constructor
  · rintro ⟨hsize, raw, hread, hbinary, htext, ready⟩
    obtain ⟨relative, hrelative, hcases⟩ := (textReady_iff unique).mp ready
    exact ⟨by simpa using hexcluded, by simpa using hdir, hsize,
      raw, relative, hread, hbinary, htext, hrelative, hcases⟩
  · rintro ⟨-, -, hsize, raw, relative, hread, hbinary, htext, hrelative, hcases⟩
    exact ⟨hsize, raw, hread, hbinary, htext,
      (textReady_iff unique).mpr ⟨relative, hrelative, hcases⟩⟩

/-! ## 4. The whole plan -/

variable {entries : List FileEntry}

/-- The items of some entries: their paths are those of entries, in order, and each entry has its
    own. -/
theorem planEntries_spec (unique : (manifest.entries.map WorkspaceEntry.relativePath).Nodup)
    (h : (planEntries review manifest entries).eval (s.answer review) = .ok items) :
    (items.map fun p => p.item.path).Sublist (entries.map FileEntry.relativePath) ∧
    (∀ entry ∈ entries, entry.isDir = false →
      ∃ planned ∈ items, planned.item.path = entry.relativePath) ∧
    ∀ planned ∈ items, ∃ entry ∈ entries, planned.item.path = entry.relativePath ∧
      (planned.item.status = .ready ↔
        Eligible review s manifest (EditableAs review s.source) (VacantIn s.source) entry) := by
  induction entries generalizing items with
  | nil =>
    obtain rfl := Except.ok.inj h
    simp
  | cons entry entries ih =>
    rw [planEntries, Prog.eval_bind] at h
    obtain ⟨first, hfirst, h⟩ := bind_eq_ok.mp h
    rw [Prog.eval_bind] at h
    obtain ⟨rest, hrest, h⟩ := bind_eq_ok.mp h
    obtain rfl := Except.ok.inj h
    obtain ⟨hsublist, hall, hspec⟩ := ih hrest
    have hlater : ∀ planned ∈ rest, ∃ e ∈ entry :: entries, planned.item.path = e.relativePath ∧
        (planned.item.status = .ready ↔
          Eligible review s manifest (EditableAs review s.source) (VacantIn s.source) e) := by
      intro planned hplanned
      obtain ⟨e, he, hplanned⟩ := hspec planned hplanned
      exact ⟨e, List.mem_cons_of_mem _ he, hplanned⟩
    rcases planEntry_spec unique hfirst with ⟨rfl, hdir⟩ | ⟨planned, rfl, hpath, hready⟩
    · refine ⟨hsublist.cons _, ?_, hlater⟩
      intro e he hfile
      rcases List.mem_cons.mp he with rfl | he
      · exact absurd (hfile.symm.trans hdir) (by simp)
      · exact hall e he hfile
    · refine ⟨?_, ?_, ?_⟩
      · rw [List.singleton_append, List.map_cons, List.map_cons, hpath]
        exact hsublist.cons_cons _
      · intro e he hfile
        rcases List.mem_cons.mp he with rfl | he
        · exact ⟨planned, List.mem_cons_self, hpath⟩
        · obtain ⟨p, hp, hpe⟩ := hall e he hfile
          exact ⟨p, List.mem_cons_of_mem _ hp, hpe⟩
      · intro p hp
        rcases List.mem_cons.mp hp with rfl | hp
        · exact ⟨entry, List.mem_cons_self, hpath, hready⟩
        · exact hlater p hp

/-- A plan that merges three trees; `eligible` says of a file of the result that it is to be
    written. -/
structure Merge (manifest : WorkspaceManifest) (tree : ScannedTree)
    (eligible : FileEntry → Prop) (items : List CollectionPlanItem) : Prop where
  /-- A path has at most one item. -/
  unique : (items.map CollectionPlanItem.path).Nodup
  /-- Every file of the result has one. -/
  result : ∀ entry ∈ tree.entries, entry.isDir = false →
    ∃ item ∈ items, item.path = entry.relativePath
  /-- A file of the baseline that the result does not have is not deleted. -/
  deleted : ∀ baseline ∈ manifest.entries, baseline.kind = .file →
    baseline.relativePath ∉ tree.entries.map FileEntry.relativePath →
    ∃ item ∈ items, item.path = baseline.relativePath ∧ item.change = .deleted ∧
      item.status = .skipped
  ready : ∀ item ∈ items, item.status = .ready ↔
    ∃ entry ∈ tree.entries, entry.relativePath = item.path ∧ eligible entry

/-- The tree that was scanned has each path once. -/
theorem scanResult_unique {maxArchiveBytes : Nat} {scanned : ScannedTree}
    (h : (scanResult review maxArchiveBytes).eval (s.answer review) = .ok scanned) :
    (scanned.entries.map FileEntry.relativePath).Nodup := by
  have hanswer : ∀ o : ListSig.Op, (askListing o).eval (s.answer review) = .ok (s.listDir o) :=
    fun _ => rfl
  rw [scanResult, Prog.eval_bind, Prog.eval_interpret hanswer, Prog.eval_attempt, ok_bind,
    Prog.eval_ofExcept] at h
  have hscan : (scanTree review.isalpha maxArchiveBytes).eval s.listDir = .ok scanned := by
    cases hr : (scanTree review.isalpha maxArchiveBytes).eval s.listDir with
    | error e =>
      rw [hr] at h
      cases h
    | ok result =>
      rw [hr] at h
      exact congrArg _ (Except.ok.inj h)
  obtain ⟨log, ran⟩ : ∃ log, Exec ListOp.step (scanTree review.isalpha maxArchiveBytes) []
      ((scanTree review.isalpha maxArchiveBytes).eval s.listDir) log :=
    Exec.of_eval (fun _ _ => ⟨_, rfl⟩) _ []
  rw [hscan] at ran
  exact ((ran.post scanTree_wp).accepted scanned rfl).unique

theorem deletedItems_paths {scanned : ScannedTree} :
    ((deletedItems manifest scanned).map fun p => p.item.path).Sublist
      (manifest.entries.map WorkspaceEntry.relativePath) := by
  unfold deletedItems
  rw [List.map_map]
  exact (List.filter_sublist).map _

theorem mem_deletedItems {scanned : ScannedTree} : planned ∈ deletedItems manifest scanned ↔
    ∃ b ∈ manifest.entries, b.kind = .file ∧
      b.relativePath ∉ scanned.entries.map FileEntry.relativePath ∧
      planned = ⟨{
        path := b.relativePath, change := .deleted, status := .skipped
        reason := "deletion_not_applied", baselineDigest := b.digest }, none⟩ := by
  unfold deletedItems
  rw [List.mem_map]
  constructor
  · rintro ⟨b, hb, rfl⟩
    obtain ⟨hmem, hkept⟩ := List.mem_filter.mp hb
    simp only [Bool.and_eq_true, decide_eq_true_eq, Bool.not_eq_true',
      List.contains_eq_mem, decide_eq_false_iff_not] at hkept
    exact ⟨b, hmem, hkept.1, hkept.2, rfl⟩
  · rintro ⟨b, hmem, hkind, habsent, rfl⟩
    refine ⟨b, List.mem_filter.mpr ⟨hmem, ?_⟩, rfl⟩
    simp only [Bool.and_eq_true, decide_eq_true_eq, Bool.not_eq_true',
      List.contains_eq_mem, decide_eq_false_iff_not]
    exact ⟨hkind, habsent⟩

/-- The paths of the items differ. -/
theorem items_unique {scanned : ScannedTree}
    (distinct : (manifest.entries.map WorkspaceEntry.relativePath).Nodup)
    (written : ((items.map fun p => p.item.path)).Nodup)
    (inside : ∀ p ∈ items, p.item.path ∈ scanned.entries.map FileEntry.relativePath) :
    ((items ++ deletedItems manifest scanned).map fun p => p.item.path).Nodup := by
  rw [List.map_append, List.nodup_append]
  refine ⟨written, deletedItems_paths.nodup distinct, ?_⟩
  intro a ha b hb
  obtain ⟨p, hp, rfl⟩ := List.mem_map.mp ha
  obtain ⟨q, hq, rfl⟩ := List.mem_map.mp hb
  obtain ⟨b, -, -, habsent, rfl⟩ := mem_deletedItems.mp hq
  intro hsame
  apply habsent
  have hpath : p.item.path = b.relativePath := hsame
  rw [← hpath]
  exact inside p hp

/-- **A collection is a three-way merge**: a ready file is a text of the result that the run has
    changed while the Source has kept, as editable text, what the run started from, or a new one
    whose place in the Source is free. -/
theorem plan_merges (review : Review) (s : Surroundings) (maxArchiveBytes : Nat)
    {entries : List WorkspaceEntry} {excludedPrefixes : List Text}
    {manifest : WorkspaceManifest} {scanned : ScannedTree} {items : List PlannedItem}
    (built : buildWorkspaceManifest review.isalpha entries excludedPrefixes = .ok manifest)
    (planned : (buildPlan review maxArchiveBytes manifest).eval (s.answer review) =
      .ok (scanned, items)) :
    Merge manifest scanned
      (Eligible review s manifest (EditableAs review s.source) (VacantIn s.source))
      (items.map PlannedItem.item) := by
  have distinct : (manifest.entries.map WorkspaceEntry.relativePath).Nodup := by
    obtain ⟨buildable, rfl⟩ := build_ok_iff.mp built
    exact buildable.again.distinct
  rw [buildPlan, Prog.eval_bind] at planned
  obtain ⟨tree, htree, planned⟩ := bind_eq_ok.mp planned
  rw [Prog.eval_bind] at planned
  obtain ⟨result, hresult, planned⟩ := bind_eq_ok.mp planned
  obtain ⟨rfl, rfl⟩ := Prod.mk.inj (Except.ok.inj planned)
  rw [buildItems, Prog.eval_bind] at hresult
  obtain ⟨written, hwritten, hresult⟩ := bind_eq_ok.mp hresult
  obtain rfl := Except.ok.inj hresult
  obtain ⟨hsublist, hall, hspec⟩ := planEntries_spec distinct hwritten
  have hunique := scanResult_unique htree
  have hentries := List.perm_insertionSort
    (fun a b : FileEntry => a.relativePath ≤ b.relativePath) tree.entries
  have hitems := List.perm_insertionSort
    (fun a b : PlannedItem => a.item.path ≤ b.item.path)
    (written ++ deletedItems manifest tree)
  have hwhere : ∀ e, e ∈ tree.entries.insertionSort (fun a b => a.relativePath ≤ b.relativePath) ↔
      e ∈ tree.entries := fun e => hentries.mem_iff
  have hmem : ∀ p, p ∈ (written ++ deletedItems manifest tree).insertionSort
      (fun a b => a.item.path ≤ b.item.path) ↔ p ∈ written ∨ p ∈ deletedItems manifest tree := by
    intro p
    rw [hitems.mem_iff, List.mem_append]
  have hinside : ∀ p ∈ written, p.item.path ∈ tree.entries.map FileEntry.relativePath := by
    intro p hp
    obtain ⟨e, he, hpath, -⟩ := hspec p hp
    rw [hpath]
    exact List.mem_map_of_mem ((hwhere e).mp he)
  constructor
  · rw [List.map_map]
    apply ((hitems.map _).nodup_iff).mpr
    apply items_unique distinct _ hinside
    exact hsublist.nodup (((hentries.map _).nodup_iff).mpr hunique)
  · intro entry hentry hfile
    obtain ⟨p, hp, hpath⟩ := hall entry ((hwhere entry).mpr hentry) hfile
    exact ⟨p.item, List.mem_map_of_mem ((hmem p).mpr (.inl hp)), hpath⟩
  · intro b hb hkind habsent
    have hp := (hmem _).mpr (.inr (mem_deletedItems.mpr ⟨b, hb, hkind, habsent, rfl⟩))
    exact ⟨_, List.mem_map_of_mem hp, rfl, rfl, rfl⟩
  · intro item hitem
    obtain ⟨p, hp, rfl⟩ := List.mem_map.mp hitem
    rcases (hmem p).mp hp with hp | hp
    · obtain ⟨e, he, hpath, hready⟩ := hspec p hp
      have he := (hwhere e).mp he
      rw [hready]
      constructor
      · intro eligible
        exact ⟨e, he, hpath.symm, eligible⟩
      · rintro ⟨e', he', hpath', eligible⟩
        obtain rfl := List.inj_on_of_nodup_map hunique he he' (hpath.symm.trans hpath'.symm)
        exact eligible
    · obtain ⟨b, -, -, habsent, rfl⟩ := mem_deletedItems.mp hp
      refine iff_of_false (by simp) ?_
      rintro ⟨e, he, hpath, -⟩
      have hpath : e.relativePath = b.relativePath := hpath
      rw [← hpath] at habsent
      exact habsent (List.mem_map_of_mem he)

/-! ## 5. A Source file that is no text -/

/-- The Source has a regular file with this digest. -/
def RegularAs (review : Review) (source : SourceTree) (relative digest : Text) : Prop :=
  ∃ content mtimeNs readable,
    source.resolveExisting relative = .ok (.file content mtimeNs readable) ∧
      digest = review.fileDigest content

/-- The Source has nothing at a path, whose parent is a directory. -/
def PlacedIn (source : SourceTree) (relative : Text) : Prop :=
  source.resolveExisting relative = .error .notFound ∧
    ∃ node, source.resolveExisting (parentPath relative) = .ok node ∧ node.isDir = true

/-- `sha256` of the byte 0, of the letter a and of the letter b. -/
def sampleDigest (raw : Bytes) : Text :=
  if raw = [0] then "6e340b9cffb37a989ca544e6bb780a2c78901d3fb33738768511a30617afa01d".toList
  else if raw = [97] then
    "ca978112ca1bbdcafac231b39a23dc4da786eff8147c4e72b9807785afee48bb".toList
  else if raw = [98] then
    "3e23e8160039594a33894f6564e1b1348bbd7a0088d42c4acb73eeaed59c009d".toList
  else []

def sampleReview : Review where
  isalpha := Char.isAlpha
  fileDigest := sampleDigest
  maxEditBytes := 1024 * 1024
  sourcePath := ['.']
  isLocal := true

def resultEntry : FileEntry := ⟨['a'], ['a'], false, 1, 5⟩

/-- The result has the letter a in a file, and the Source these bytes. -/
def sampleSurroundings (content : Bytes) : Surroundings where
  listDir := fun _ => .ok [⟨['a'], some ['a'], false, some 1, some 5⟩]
  resultStat := fun _ => .ok resultEntry
  resultDownload := fun _ => ⟨[[97]], .ok ()⟩
  source := {
    root := true
    lstat := fun parts =>
      if parts = [['a']] then .ok (.file content 7 true) else .error .notFound }

/-- The run started from these bytes. -/
def sampleBaseline (content : Bytes) : List WorkspaceEntry :=
  [{ relativePath := ['a'], kind := .file, size := 1, digest := some (sampleDigest content) }]

/-- The scanned entries and the items, where the Source has what the run started from. -/
def samplePlan (content : Bytes) : Option (List FileEntry × List (Text × PlanStatus)) :=
  ((buildPlan sampleReview 100 (manifestOf (sampleBaseline content) [])).eval
    ((sampleSurroundings content).answer sampleReview)).toOption.map
      fun r => (r.1.entries, r.2.map fun p => (p.item.path, p.item.status))

theorem samplePlan_some {content : Bytes} {entries : List FileEntry}
    {listed : List (Text × PlanStatus)} (h : samplePlan content = some (entries, listed)) :
    ∃ scanned items, (buildPlan sampleReview 100 (manifestOf (sampleBaseline content) [])).eval
        ((sampleSurroundings content).answer sampleReview) = .ok (scanned, items) ∧
      scanned.entries = entries ∧
      (items.map PlannedItem.item).map (fun item => (item.path, item.status)) = listed := by
  unfold samplePlan at h
  obtain ⟨⟨scanned, items⟩, hr, hview⟩ := Option.map_eq_some_iff.mp h
  obtain ⟨rfl, rfl⟩ := Prod.mk.inj hview
  refine ⟨scanned, items, ?_, rfl, by rw [List.map_map]; rfl⟩
  cases hplan : (buildPlan sampleReview 100 (manifestOf (sampleBaseline content) [])).eval
      ((sampleSurroundings content).answer sampleReview) with
  | error e =>
    rw [hplan] at hr
    cases hr
  | ok r =>
    rw [hplan] at hr
    exact congrArg _ (Option.some.inj hr)

/-- **A file that nobody has touched is a conflict** where it is no text. -/
theorem untouched_binary : ¬ ∀ (review : Review) (s : Surroundings) (maxArchiveBytes : Nat)
    (entries : List WorkspaceEntry) (excludedPrefixes : List Text)
    (manifest : WorkspaceManifest) (scanned : ScannedTree) (items : List PlannedItem),
    buildWorkspaceManifest review.isalpha entries excludedPrefixes = .ok manifest →
    (buildPlan review maxArchiveBytes manifest).eval (s.answer review) = .ok (scanned, items) →
    Merge manifest scanned
      (Eligible review s manifest (RegularAs review s.source) (PlacedIn s.source))
      (items.map PlannedItem.item) := by
  intro h
  have hplan : samplePlan [0] = some ([resultEntry], [(['a'], .conflict)]) := by decide +kernel
  obtain ⟨scanned, items, planned, hscanned, hitems⟩ := samplePlan_some hplan
  have built : buildWorkspaceManifest Char.isAlpha (sampleBaseline [0]) [] =
      .ok (manifestOf (sampleBaseline [0]) []) := rfl
  have merge := h sampleReview (sampleSurroundings [0]) 100 (sampleBaseline [0]) []
    (manifestOf (sampleBaseline [0]) []) scanned items built planned
  obtain ⟨item, hitem⟩ : ∃ item, items.map PlannedItem.item = [item] :=
    List.length_eq_one_iff.mp (by simpa using congrArg List.length hitems)
  rw [hitem] at merge hitems
  obtain ⟨hpath, hstatus⟩ : item.path = ['a'] ∧ item.status = .conflict := by simpa using hitems
  have eligible : Eligible sampleReview (sampleSurroundings [0])
      (manifestOf (sampleBaseline [0]) []) (RegularAs sampleReview (sampleSurroundings [0]).source)
      (PlacedIn (sampleSurroundings [0]).source) resultEntry := by
    refine ⟨by decide, rfl, by decide, [97], ['a'], rfl, by decide, by decide, rfl, .inl ?_⟩
    refine ⟨_, List.mem_singleton_self _, rfl, rfl, sampleDigest [0], rfl, ?_, by decide⟩
    exact ⟨[0], 7, true, rfl, rfl⟩
  have ready := (merge.ready item (List.mem_singleton_self _)).mpr
    ⟨resultEntry, by rw [hscanned]; exact List.mem_singleton_self _, hpath.symm, eligible⟩
  rw [hstatus] at ready
  cases ready

/-- A letter that only the run has changed. -/
theorem plan_merges_letter : ∃ (scanned : ScannedTree) (items : List PlannedItem),
    (items.map PlannedItem.item).map (fun item => (item.path, item.status)) =
      [(['a'], .ready)] ∧
    Merge (manifestOf (sampleBaseline [98]) []) scanned
      (Eligible sampleReview (sampleSurroundings [98]) (manifestOf (sampleBaseline [98]) [])
        (EditableAs sampleReview (sampleSurroundings [98]).source)
        (VacantIn (sampleSurroundings [98]).source)) (items.map PlannedItem.item) := by
  have hplan : samplePlan [98] = some ([resultEntry], [(['a'], .ready)]) := by decide +kernel
  obtain ⟨scanned, items, planned, -, hitems⟩ := samplePlan_some hplan
  have built : buildWorkspaceManifest sampleReview.isalpha (sampleBaseline [98]) [] =
      .ok (manifestOf (sampleBaseline [98]) []) := rfl
  exact ⟨scanned, items, hitems,
    plan_merges sampleReview (sampleSurroundings [98]) 100 built planned⟩

end Termroom.Collect
