import Mathlib
import Termroom.Ssh.RunTree

/-!
# What is left of a Remote Run's directory by calls that stopped

No call renames or removes a directory but one that carries the marker of the Run, one under
construction that has no marker yet and nothing else either, and what has been set aside by a
deletion that has put its own marker beside it (`Lawful`): this holds of every operation, from
any state of the Run base.

`Intact` is what the calls keep between them wherever they stop, so that the next deletion, or
creation, finds what it can finish. Both are proved in one walk through the programs: the
contract has a proposition `good` as a parameter, and promises what rests on `Intact` only where
`good` holds.
-/

set_option autoImplicit false

namespace Termroom.Ssh.RunTree

open Conc Data Archive

/-! ## 1. Names are different -/

section

variable (runId : RunId)

theorem runId_length : runId.1.length = 36 := by
  have h := runId.2
  simp only [isCanonicalUuid4, Bool.and_eq_true, decide_eq_true_eq] at h
  exact h.1

theorem creatingLeaf_length : (creatingLeaf runId).length = 55 :=
  List.length_append.trans (congrArg (19 + ·) (runId_length runId))

theorem quarantineLeaf_length : (quarantineLeaf runId).length = 55 :=
  List.length_append.trans (congrArg (19 + ·) (runId_length runId))

theorem deletionMarkerLeaf_length : (deletionMarkerLeaf runId).length = 62 :=
  List.length_append.trans (congrArg (· + 7) (quarantineLeaf_length runId))

theorem temporaryName_length (name : Text) (id : RunId) :
    (temporaryName name id).length = name.length + 51 := by
  have hbegin : (".termroom-".toList).length = 10 := by decide
  have hend : (".tmp".toList).length = 4 := by decide
  have hid := runId_length id
  unfold temporaryName
  rw [List.length_append, List.length_append, List.length_append, List.length_cons]
  omega

theorem root_ne_creating : runId.1 ≠ creatingLeaf runId := by
  intro h
  have := congrArg List.length h
  rw [runId_length runId, creatingLeaf_length] at this
  omega

theorem root_ne_quarantine : runId.1 ≠ quarantineLeaf runId := by
  intro h
  have := congrArg List.length h
  rw [runId_length runId, quarantineLeaf_length] at this
  omega

theorem creating_ne_quarantine : creatingLeaf runId ≠ quarantineLeaf runId := by
  intro h
  have : ".termroom-creating-".toList = ".termroom-deleting-".toList := List.append_cancel_right h
  exact absurd this (by decide)

/-- The names of the deletion marker. -/
def MarkerLeaf (name : Text) : Prop :=
  name = deletionMarkerLeaf runId ∨ ∃ id, name = temporaryName (deletionMarkerLeaf runId) id

theorem MarkerLeaf.length {name : Text} (h : MarkerLeaf runId name) : 62 ≤ name.length := by
  obtain rfl | ⟨id, rfl⟩ := h
  · rw [deletionMarkerLeaf_length]
  · rw [temporaryName_length, deletionMarkerLeaf_length]
    omega

theorem not_markerLeaf {name : Text} (h : name.length < 62) : ¬ MarkerLeaf runId name :=
  fun marker => absurd marker.length (by omega)

theorem root_not_markerLeaf : ¬ MarkerLeaf runId runId.1 :=
  not_markerLeaf runId (by rw [runId_length runId]; omega)

theorem creating_not_markerLeaf : ¬ MarkerLeaf runId (creatingLeaf runId) :=
  not_markerLeaf runId (by rw [creatingLeaf_length]; omega)

theorem quarantine_not_markerLeaf : ¬ MarkerLeaf runId (quarantineLeaf runId) :=
  not_markerLeaf runId (by rw [quarantineLeaf_length]; omega)

/-- The names of the Run, in the Run base. -/
def Ours (name : Text) : Prop :=
  name = runId.1 ∨ name = creatingLeaf runId ∨ name = quarantineLeaf runId ∨ MarkerLeaf runId name

theorem between (before middle after : Text) :
    (((before ++ (middle ++ after)).drop before.length).take
      ((before ++ (middle ++ after)).length - before.length - after.length)) = middle := by
  have hlength : (before ++ (middle ++ after)).length - before.length - after.length =
      middle.length := by
    rw [List.length_append, List.length_append]
    omega
  rw [hlength, List.drop_left, List.take_left]

theorem isMarkerTemporary_of {before middle after name : Text}
    (hbefore : before = ".marker.termroom-".toList) (hafter : after = ".tmp".toList)
    (hname : name = before ++ (middle ++ after)) (h : isCanonicalUuid4 middle = true) :
    isMarkerTemporary name = true := by
  unfold isMarkerTemporary
  rw [← hbefore, ← hafter]
  dsimp only
  simp only [Bool.and_eq_true, List.isSuffixOf_iff_suffix, List.isPrefixOf_iff_prefix]
  rw [hname, between]
  refine ⟨⟨List.prefix_append _ _, ?_⟩, h⟩
  exact (List.suffix_append middle after).trans (List.suffix_append before _)

theorem isMarkerTemporary_temporaryName (id : RunId) :
    isMarkerTemporary (temporaryName markerName id) = true := by
  apply isMarkerTemporary_of rfl rfl _ id.2
  have hbefore : ".marker.termroom-".toList = '.' :: markerName ++ ".termroom-".toList := by decide
  rw [hbefore, ← List.append_assoc]
  rfl

theorem marker_not_temporary : isMarkerTemporary markerName = false := by
  decide

/-! ## 2. The content of a marker -/

theorem runId_char {c : Char} (h : c ∈ runId.1) : 45 ≤ c.toNat ∧ c.toNat ≤ 102 := by
  have hall := runId.2
  simp only [isCanonicalUuid4, Bool.and_eq_true, List.all_eq_true] at hall
  obtain ⟨index, hindex⟩ := List.mem_iff_getElem?.mp h
  have hdigit := hall.2 (c, index) (List.mk_mem_zipIdx_iff_getElem?.mpr hindex)
  simp only [uuid4Digit, lowerHex] at hdigit
  have hdash : ('-' : Char).toNat = 45 := rfl
  split at hdigit
  · obtain rfl := of_decide_eq_true hdigit
    omega
  split at hdigit
  · obtain rfl := of_decide_eq_true hdigit
    decide
  split at hdigit
  · simp only [Bool.or_eq_true, decide_eq_true_eq] at hdigit
    obtain ((rfl | rfl) | rfl) | rfl := hdigit <;> decide
  · simp only [Bool.or_eq_true, Bool.and_eq_true, Char.isDigit, decide_eq_true_eq] at hdigit
    obtain ⟨low, high⟩ | ⟨low, high⟩ := hdigit
    · have h48 : 48 ≤ c.toNat := low
      have h57 : c.toNat ≤ 57 := high
      omega
    · have h97 : 97 ≤ c.toNat := low
      have h102 : c.toNat ≤ 102 := high
      omega

theorem runId_not_space {c : Char} (h : c ∈ runId.1) : isSpace c = false := by
  obtain ⟨low, high⟩ := runId_char runId h
  simp only [isSpace, Bool.or_eq_false_iff, Bool.and_eq_false_iff, decide_eq_false_iff_not]
  omega

theorem runId_ne_nil : runId.1 ≠ [] := by
  intro h
  have := runId_length runId
  rw [h] at this
  cases this

theorem strip_line : strip (runId.1 ++ ['\n']) = runId.1 := by
  have hfront : (runId.1 ++ ['\n']).dropWhile isSpace = runId.1 ++ ['\n'] := by
    obtain ⟨c, rest, hid⟩ := List.exists_cons_of_ne_nil (runId_ne_nil runId)
    have hc := runId_not_space runId (hid ▸ List.mem_cons_self : c ∈ runId.1)
    rw [hid, List.cons_append, List.dropWhile_cons_of_neg (by simp [hc])]
  unfold strip
  rw [hfront, List.rdropWhile_concat_pos _ _ _ (by decide), List.rdropWhile_eq_self_iff]
  intro hne
  rw [runId_not_space runId (List.getLast_mem hne)]
  simp

theorem markerContent_length : (markerContent runId).length ≤ 128 := by
  have hone : ∀ c ∈ runId.1 ++ ['\n'], (String.utf8EncodeChar c).length = 1 := by
    intro c hc
    rw [String.length_utf8EncodeChar]
    apply Char.utf8Size_eq_one_iff.mpr
    obtain hid | hnl := List.mem_append.mp hc
    · have high : c.val.toNat ≤ 102 := (runId_char runId hid).2
      exact UInt32.le_iff_toNat_le.mpr (by simpa using high.trans (by decide))
    · obtain rfl := List.mem_singleton.mp hnl
      decide
  have hlength : (markerContent runId).length = (runId.1 ++ ['\n']).length := by
    unfold markerContent utf8
    rw [List.length_flatMap, List.map_congr_left hone, List.map_const', List.sum_replicate]
    simp
  rw [hlength, List.length_append, runId_length runId]
  decide

theorem shellText_marker : shellText (markerContent runId) = utf8 runId.1 := by
  have hsplit : markerContent runId = utf8 runId.1 ++ [10] := by
    unfold markerContent utf8
    rw [List.flatMap_append]
    rfl
  unfold shellText
  rw [hsplit, List.rdropWhile_concat_pos _ _ _ (by decide), List.rdropWhile_eq_self_iff]
  intro hne hlast
  have plain : ∀ c ∈ runId.1, 32 ≤ c.toNat := fun c hc => by
    have := runId_char runId hc
    omega
  have := utf8_plain plain _ (List.getLast_mem hne)
  rw [of_decide_eq_true hlast] at this
  exact absurd this (by decide)

/-- What is accepted as a marker of the Run. -/
def Says (content : Bytes) : Prop :=
  content.length ≤ 128 ∧ ∃ text, decodeUtf8 content = some text ∧ strip text = runId.1

theorem says_markerContent : Says runId (markerContent runId) :=
  ⟨markerContent_length runId, _, decodeUtf8_utf8, strip_line runId⟩

/-! ## 3. What may go, and what stays -/

/-- A directory that carries the marker of the Run. -/
structure Marked (t : RunBase) (leaf : Text) : Prop where
  directory : t.entry [leaf] = some .directory
  metadata : t.entry [leaf, metadataName] = some .directory
  marker : ∃ content, t.entry [leaf, metadataName, markerName] = some (.file content) ∧
    Says runId content

/-- A directory under construction that has no marker yet. -/
structure Pristine (t : RunBase) : Prop where
  directory : t.entry [creatingLeaf runId] = some .directory
  only : ∀ name node, t.entry [creatingLeaf runId, name] = some node →
    name = metadataName ∧ node = .directory
  temporary : ∀ name node, t.entry [creatingLeaf runId, metadataName, name] = some node →
    isMarkerTemporary name = true ∧ ∃ content, node = .file content

def DeletionMarked (t : RunBase) : Prop :=
  ∃ content, t.entry [deletionMarkerLeaf runId] = some (.file content) ∧ Says runId content

/-- What may be renamed or removed. -/
def Removable (t : RunBase) (leaf : Text) : Prop :=
  ((leaf = runId.1 ∨ leaf = creatingLeaf runId) ∧ Marked runId t leaf) ∨
    (leaf = creatingLeaf runId ∧ Pristine runId t) ∨
    (leaf = quarantineLeaf runId ∧ DeletionMarked runId t)

/-- A step of the calls for a Run: only the Run's own names are touched, and a directory that
    is no longer there was one that may go. -/
structure Lawful (u v : RunBase) : Prop where
  elsewhere : ∀ leaf rest, ¬ Ours runId leaf → v.entry (leaf :: rest) = u.entry (leaf :: rest)
  directories : ∀ leaf rest, u.entry (leaf :: rest) = some .directory →
    v.entry (leaf :: rest) ≠ some .directory → Removable runId u leaf

/-- The layout of a Run, with its command. -/
structure Complete (body : Text) (t : RunBase) : Prop extends Marked runId t runId.1 where
  work : t.entry [runId.1, workName] = some .directory
  cwd : ∃ content, t.entry [runId.1, metadataName, cwdName] = some (.file content)
  runner : ∃ content, t.entry [runId.1, metadataName, runnerName] = some (.file content)
  logPipe : ∃ content, t.entry [runId.1, metadataName, logPipeName] = some (.file content)
  command : t.entry [runId.1, metadataName, commandName] = some (.file (utf8 body))

/-- A layout with a command that can be read back. -/
def Laid (t : RunBase) : Prop :=
  ∃ body, (utf8 body).length ≤ 256 * 1024 ∧ Complete runId body t

/-- What the calls for a Run leave, wherever they stop. -/
structure Intact (t : RunBase) : Prop where
  root : t.entry [runId.1] ≠ none → Laid runId t ∧
    t.entry [creatingLeaf runId] = none ∧ t.entry [quarantineLeaf runId] = none
  creating : t.entry [creatingLeaf runId] ≠ none →
    (Marked runId t (creatingLeaf runId) ∨ Pristine runId t) ∧
      t.entry [quarantineLeaf runId] = none
  quarantine : t.entry [quarantineLeaf runId] ≠ none →
    t.entry [quarantineLeaf runId] = some .directory ∧ t.entry [deletionMarkerLeaf runId] ≠ none
  marker : t.entry [deletionMarkerLeaf runId] ≠ none →
    t.entry [deletionMarkerLeaf runId] = some (.file (markerContent runId))

/-- Of the names of the Run only those of temporary files of the deletion marker are there. -/
structure Clean (t : RunBase) : Prop where
  root : t.entry [runId.1] = none
  creating : t.entry [creatingLeaf runId] = none
  quarantine : t.entry [quarantineLeaf runId] = none
  marker : t.entry [deletionMarkerLeaf runId] = none

/-- What each operation has to be. -/
structure Admits (good : Prop) (u v : RunBase) : Prop where
  lawful : Lawful runId u v
  intact : good → Intact runId u → Intact runId v

def guarded (good : Prop) : Contract SftpSig World where
  inv := fun _ => True
  rely := Eq
  step := Step
  ok := fun _ _ u v => Admits runId good u.tree v.tree

end

section

variable {runId : RunId} {body : Text} {good : Prop} {t u v : RunBase} {leaf : Text} {path : Path}

theorem Clean.intact (h : Clean runId t) : Intact runId t where
  root present := absurd h.root present
  creating present := absurd h.creating present
  quarantine present := absurd h.quarantine present
  marker present := absurd h.marker present

theorem Clean.left (h : Clean runId t) (own : Ours runId leaf) (present : t.entry [leaf] ≠ none) :
    ∃ id, leaf = temporaryName (deletionMarkerLeaf runId) id := by
  rcases own with rfl | rfl | rfl | rfl | temporary
  · exact absurd h.root present
  · exact absurd h.creating present
  · exact absurd h.quarantine present
  · exact absurd h.marker present
  · exact temporary

theorem Lawful.refl : Lawful runId t t :=
  ⟨fun _ _ _ => rfl, fun _ _ here gone => absurd here gone⟩

theorem Admits.refl : Admits runId good t t := ⟨.refl, fun _ h => h⟩

/-- A path in a directory leads through no symlink. -/
theorem not_through (dir : Path) {name : Text} (h : t.entry dir = some .directory) :
    ¬ Through t (dir ++ [name]) := by
  rintro ⟨parent, first, rest, hpath, hlink⟩
  have hparent : t.entry parent ≠ some .directory := by
    rw [hlink]
    simp
  induction rest using List.reverseRecOn with
  | nil =>
    obtain ⟨rfl, -⟩ := List.append_singleton_inj.mp hpath
    exact hparent h
  | append_singleton rest last =>
    rw [← List.cons_append, ← List.append_assoc] at hpath
    obtain ⟨rfl, -⟩ := List.append_singleton_inj.mp hpath
    rw [FileTree.none_below hparent] at h
    cases h

theorem not_through_next (dir : Path) {name last : Text} (hdir : t.entry dir = some .directory)
    (h : t.entry (dir ++ [name]) ≠ some .symlink) : ¬ Through t (dir ++ [name] ++ [last]) := by
  rintro ⟨parent, first, rest, hpath, hlink⟩
  induction rest using List.reverseRecOn with
  | nil =>
    obtain ⟨rfl, -⟩ := List.append_singleton_inj.mp hpath
    exact h hlink
  | append_singleton rest after =>
    rw [← List.cons_append, ← List.append_assoc] at hpath
    obtain ⟨hparent, -⟩ := List.append_singleton_inj.mp hpath
    exact not_through dir hdir ⟨parent, first, rest, hparent, hlink⟩

theorem not_through_leaf : ¬ Through t [leaf] := not_through [] t.root

/-! ## 4. Frames -/

/-- Two trees are the same below a name. -/
def SameBelow (u v : RunBase) (leaf : Text) : Prop :=
  ∀ rest, v.entry (leaf :: rest) = u.entry (leaf :: rest)

theorem Marked.congr (h : Marked runId u leaf) (same : SameBelow u v leaf) :
    Marked runId v leaf := by
  obtain ⟨content, hcontent, named⟩ := h.marker
  exact ⟨(same []).trans h.directory, (same _).trans h.metadata, content,
    (same _).trans hcontent, named⟩

theorem Pristine.congr (h : Pristine runId u) (same : SameBelow u v (creatingLeaf runId)) :
    Pristine runId v where
  directory := (same []).trans h.directory
  only name node hnode := h.only name node ((same _).symm.trans hnode)
  temporary name node hnode := h.temporary name node ((same _).symm.trans hnode)

theorem Complete.congr (h : Complete runId body u) (same : SameBelow u v runId.1) :
    Complete runId body v := by
  obtain ⟨cwd, hcwd⟩ := h.cwd
  obtain ⟨runner, hrunner⟩ := h.runner
  obtain ⟨logPipe, hlogPipe⟩ := h.logPipe
  exact ⟨h.toMarked.congr same, (same _).trans h.work, ⟨cwd, (same _).trans hcwd⟩,
    ⟨runner, (same _).trans hrunner⟩, ⟨logPipe, (same _).trans hlogPipe⟩,
    (same _).trans h.command⟩

/-- What becomes of the directories is said; the rest is as before. -/
theorem Intact.congr (h : Intact runId u)
    (root : v.entry [runId.1] ≠ none → SameBelow u v runId.1 ∧
      v.entry [creatingLeaf runId] = none ∧ v.entry [quarantineLeaf runId] = none)
    (creating : v.entry [creatingLeaf runId] ≠ none →
      (Marked runId v (creatingLeaf runId) ∨ Pristine runId v) ∧
        v.entry [quarantineLeaf runId] = none)
    (quarantine : v.entry [quarantineLeaf runId] ≠ none →
      v.entry [quarantineLeaf runId] = some .directory ∧ v.entry [deletionMarkerLeaf runId] ≠ none)
    (marker : v.entry [deletionMarkerLeaf runId] = u.entry [deletionMarkerLeaf runId] ∨
      v.entry [deletionMarkerLeaf runId] = none ∨
      v.entry [deletionMarkerLeaf runId] = some (.file (markerContent runId))) :
    Intact runId v where
  root present := by
    obtain ⟨same, hcreating, hquarantine⟩ := root present
    rw [same []] at present
    obtain ⟨⟨body, short, complete⟩, -⟩ := h.root present
    exact ⟨⟨body, short, complete.congr same⟩, hcreating, hquarantine⟩
  creating := creating
  quarantine := quarantine
  marker present := by
    obtain hmarker | hmarker | hmarker := marker
    · rw [hmarker] at present ⊢
      exact h.marker present
    · exact absurd hmarker present
    · exact hmarker

theorem below_leaf {rest other : Path} {top : Text} (h : leaf :: rest <+: top :: other) :
    top = leaf := (List.cons_prefix_cons.mp h).1.symm

/-- A removal, finished or not, of what may go. -/
theorem lawful_pruned {rest : Path} (own : Ours runId leaf)
    (may : t.entry (leaf :: rest) = some .directory → Removable runId t leaf)
    (h : FileTree.Pruned t u (leaf :: rest)) : Lawful runId t u where
  elsewhere top other foreign := by
    refine h.same fun below => foreign ?_
    rw [below_leaf below]
    exact own
  directories top other here gone := by
    obtain hsame | ⟨⟨more, hbelow⟩, -⟩ := h (top :: other)
    · exact absurd (hsame.trans here) gone
    obtain rfl : top = leaf := below_leaf ⟨more, hbelow⟩
    apply may
    by_contra hfile
    rw [← hbelow] at here
    cases more with
    | nil =>
      rw [List.append_nil] at here
      exact hfile here
    | cons name more =>
      rw [FileTree.none_below hfile] at here
      cases here

theorem lawful_prune {rest : Path} (own : Ours runId leaf)
    (may : t.entry (leaf :: rest) = some .directory → Removable runId t leaf) :
    Lawful runId t (t.prune (leaf :: rest)) :=
  lawful_pruned own may (FileTree.prune_pruned (List.cons_ne_nil _ _))

/-- What may go is given another name of the Run. -/
theorem lawful_move {dst : Text} (hleaf : Ours runId leaf) (hdst : Ours runId dst)
    (may : Removable runId t leaf) (movable : FileTree.Movable t [leaf] [] dst) :
    Lawful runId t (t.move [leaf] [] dst) where
  elsewhere top other foreign := by
    refine FileTree.move_other (fun below => foreign ?_) fun below => foreign ?_
    · rw [below_leaf below]
      exact hleaf
    · obtain rfl : top = dst := below_leaf below
      exact hdst
  directories top other here gone := by
    by_cases hsrc : [leaf] <+: top :: other
    · rw [below_leaf hsrc]
      exact may
    by_cases hto : [] ++ [dst] <+: top :: other
    · obtain ⟨more, hmore⟩ := hto
      rw [← hmore, FileTree.none_of_none movable.vacant] at here
      cases here
    · rw [FileTree.move_other hsrc hto] at gone
      exact absurd here gone

/-- What is put where no directory is takes none away. -/
theorem lawful_put {dir : Path} {name : Text} {node : FileNode Bytes}
    (own : ∀ top rest, top :: rest = dir ++ [name] → Ours runId top)
    (vacant : t.entry (dir ++ [name]) ≠ some .directory) :
    Lawful runId t (t.put dir name node) where
  elsewhere top rest foreign := FileTree.put_other fun h => foreign (own top rest h)
  directories top rest here gone := by
    by_cases h : top :: rest = dir ++ [name]
    · rw [h] at here
      exact absurd here vacant
    · rw [FileTree.put_other h] at gone
      exact absurd here gone

theorem sameBelow_prune {rest : Path} {top : Text} (h : top ≠ leaf) :
    SameBelow t (t.prune (leaf :: rest)) top :=
  fun _ => FileTree.prune_other fun below => h (below_leaf below)

theorem sameBelow_pruned {rest : Path} {top : Text} (hpruned : FileTree.Pruned t u (leaf :: rest))
    (h : top ≠ leaf) : SameBelow t u top :=
  fun _ => hpruned.same fun below => h (below_leaf below)

theorem sameBelow_move {dst top : Text} (hsrc : top ≠ leaf) (hdst : top ≠ dst) :
    SameBelow t (t.move [leaf] [] dst) top :=
  fun _ => FileTree.move_other (fun below => hsrc (below_leaf below))
    fun below => hdst (below_leaf below)

theorem sameBelow_put {dir : Path} {name top : Text} {node : FileNode Bytes}
    (h : ∀ rest, top :: rest ≠ dir ++ [name]) : SameBelow t (t.put dir name node) top :=
  fun rest => FileTree.put_other (h rest)

/-! ## 5. Operations under the contract -/


/-- What a program has to end in: a result with `R`, or an exception for which, where all was
    good, an operation that broke is to blame. -/
def Ends {α : Type} (good : Prop) (R : α → RunBase → Prop) (r : Except SshError α) (v : World) :
    Prop :=
  onResult (fun a => R a v.tree) (fun _ => good → v.faulty = true) r

/-- The same, but that it may also refuse, with `S` of what it raises. -/
def EndsOr {α : Type} (good : Prop) (R : α → RunBase → Prop) (S : SshError → RunBase → Prop)
    (r : Except SshError α) (v : World) : Prop :=
  onResult (fun a => R a v.tree) (fun e => good → v.faulty = true ∨ S e v.tree) r

section

variable {α β : Type} {R : α → RunBase → Prop} {R' : β → RunBase → Prop} {w : World}
  {S : SshError → RunBase → Prop}
  {p : SshProg α}

theorem Ends.seq {f : α → SshProg β} (first : p.wp (guarded runId good) (Ends good R) w)
    (next : ∀ a v, R a v.tree → (f a).wp (guarded runId good) (Ends good R') v) :
    (p >>= f).wp (guarded runId good) (Ends good R') w :=
  Prog.wp_seq first (fun _ _ h => h) next

theorem EndsOr.seq {f : α → SshProg β} (first : p.wp (guarded runId good) (Ends good R) w)
    (next : ∀ a v, R a v.tree → (f a).wp (guarded runId good) (EndsOr good R' S) v) :
    (p >>= f).wp (guarded runId good) (EndsOr good R' S) w :=
  Prog.wp_seq first (fun _ _ h hgood => .inl (h hgood)) next

theorem Ends.orRefuse (hp : p.wp (guarded runId good) (Ends good R) w) :
    p.wp (guarded runId good) (EndsOr good R S) w := by
  apply Prog.wp_mono _ hp
  intro r v hr
  cases r with
  | ok a => exact hr
  | error e => exact fun hgood => .inl (hr hgood)

theorem Ends.mono {R R' : α → RunBase → Prop} (h : ∀ a t, R a t → R' a t)
    (hp : p.wp (guarded runId good) (Ends good R) w) :
    p.wp (guarded runId good) (Ends good R') w := by
  apply Prog.wp_mono _ hp
  intro r v hr
  cases r with
  | ok a => exact h a v.tree hr
  | error e => exact hr

theorem orElse_wp {instead : SshError} (h : p.wp (guarded runId good) (Ends good R) w) :
    (orElse p instead).wp (guarded runId good) (Ends good R) w := by
  unfold orElse
  rw [Prog.wp_bind, Prog.wp_attempt]
  apply Prog.wp_mono _ h
  intro r v hr
  cases r with
  | ok a => exact hr
  | error e =>
    rw [onResult_ok]
    split
    · exact hr
    · exact hr
    · rename_i he
      obtain rfl := Except.error.inj he
      exact hr
    · rename_i he
      cases he

theorem require_wp {condition : Bool} {otherwise : SshError} {R : Unit → RunBase → Prop}
    (here : w.tree = t)
    (holds : condition = true → R () t) (expected : good → condition = true) :
    (require condition otherwise).wp (guarded runId good) (Ends good R) w := by
  subst here
  unfold require
  split
  · exact holds ‹_›
  · rename_i h
    exact fun hgood => absurd (expected hgood) h

theorem stripped_wp {raw : Bytes} {otherwise : SshError} (here : w.tree = t)
    (expected : good → ∃ text, decodeUtf8 raw = some text) :
    (stripped raw otherwise).wp (guarded runId good) (Ends good fun text t' =>
      t' = t ∧ ∃ content, decodeUtf8 raw = some content ∧ text = strip content) w := by
  subst here
  unfold stripped
  split
  · rename_i text h
    exact ⟨rfl, text, h, rfl⟩
  · rename_i h
    intro hgood
    obtain ⟨text, htext⟩ := expected hgood
    rw [htext] at h
    cases h

end

section

variable {w : World}

/-- An operation by itself. -/
theorem perform_wp {o : SftpSig.Op} {Q : Except SshError (SftpSig.Ans o) → World → Prop}
    (h : ∀ answer v, Step o answer w v → Admits runId good w.tree v.tree ∧ Q (.ok answer) v) :
    (Prog.perform o : SshProg (SftpSig.Ans o)).wp (guarded runId good) Q w := by
  rintro u rfl - answer v step
  exact h answer v step

/-- An operation that may change the tree, under any postcondition. -/
theorem change_step {can : Prop} {after : RunBase} {answer : Except SftpError Unit} {v : World}
    {Q : Except SshError Unit → World → Prop}
    (step : (Change can after answer w.tree v.tree ∧ v.faulty = w.faulty) ∨
      ((∃ e, e ≠ .missing ∧ answer = .error e) ∧ (v.tree = w.tree ∨ (can ∧ v.tree = after)) ∧
        v.faulty = true))
    (admits : can → Admits runId good w.tree after)
    (done : ∀ v, can → v.tree = after → Q (.ok ()) v)
    (refused : ∀ e v, ¬ can → v.tree = w.tree → Q (.error (.sftp e)) v)
    (broken : ∀ e v, (v.tree = w.tree ∨ (can ∧ v.tree = after)) → v.faulty = true →
      Q (.error (.sftp e)) v) :
    Admits runId good w.tree v.tree ∧
      (Prog.ofExcept (Except.mapError .sftp answer)).wp (guarded runId good) Q v := by
  rw [Prog.wp_ofExcept]
  obtain ⟨⟨hcan, rfl, hv⟩ | ⟨hcan, ⟨e, -, rfl⟩, hv⟩, -⟩ | ⟨⟨e, -, rfl⟩, hv, hflag⟩ := step
  · refine ⟨?_, done v hcan hv⟩
    rw [hv]
    exact admits hcan
  · refine ⟨?_, refused e v hcan hv⟩
    rw [hv]
    exact .refl
  · refine ⟨?_, broken e v hv hflag⟩
    obtain hv | ⟨hcan, hv⟩ := hv <;> rw [hv]
    · exact .refl
    · exact admits hcan

theorem Change.either {can : Prop} {after : RunBase} {answer : Except SftpError Unit}
    (h : Change can after answer t u) : u = t ∨ (can ∧ u = after) := by
  obtain ⟨hcan, -, hu⟩ | ⟨-, -, hu⟩ := h
  · exact .inr ⟨hcan, hu⟩
  · exact .inl hu

/-- An operation that only looks changes nothing, broken or not. -/
theorem still_of_broken {o : SftpOp} (looks : ∀ answer, act o answer t u → u = t)
    (h : u = t ∨ (∃ answer, act o answer t u) ∨ False) : u = t := by
  obtain hu | ⟨answer, hact⟩ | hno := h
  · exact hu
  · exact looks answer hact
  · exact hno.elim

theorem lstat_wp {Q : Except SshError Kind → World → Prop}
    (seen : ∀ answer v, v.tree = w.tree → answer = kindAt w.tree path ∨ Through w.tree path →
      Q (Except.mapError .sftp answer) v)
    (broken : ∀ e v, v.tree = w.tree → v.faulty = true → Q (.error (.sftp e)) v) :
    (lstat path).wp (guarded runId good) Q w := by
  unfold lstat
  rw [Prog.wp_bind]
  apply perform_wp
  intro answer v step
  rw [onResult_ok, Prog.wp_ofExcept]
  obtain ⟨⟨hanswer, hv⟩, -⟩ | ⟨⟨e, -, rfl⟩, hv, hflag⟩ := step
  · refine ⟨?_, seen answer v hv hanswer⟩
    rw [hv]
    exact .refl
  · have hv : v.tree = w.tree := still_of_broken (o := .lstat path) (fun _ h => h.2) hv
    refine ⟨?_, broken e v hv hflag⟩
    rw [hv]
    exact .refl

/-- What is there is there, or nobody knows. -/
theorem kind_wp (here : w.tree = t)
    (expected : good → ∃ node, t.entry path = some node ∧ ¬ Through t path) :
    (lstat path).wp (guarded runId good) (Ends good fun kind t' => t' = t ∧
      (Through t path ∨ ∃ node, t.entry path = some node ∧ kindOf node = kind)) w := by
  subst here
  apply lstat_wp
  · intro answer v hv hanswer
    unfold kindAt at hanswer
    split at hanswer
    · rename_i node hnode
      obtain rfl | through := hanswer
      · exact ⟨hv, .inr ⟨node, hnode, rfl⟩⟩
      · cases answer with
        | ok kind => exact ⟨hv, .inl through⟩
        | error e =>
          intro hgood
          obtain ⟨_, -, real⟩ := expected hgood
          exact absurd through real
    · rename_i hnone
      obtain hmissing | through := hanswer
      · rw [hmissing]
        intro hgood
        obtain ⟨node, hnode, -⟩ := expected hgood
        rw [hnone] at hnode
        cases hnode
      · cases answer with
        | ok kind => exact ⟨hv, .inl through⟩
        | error e =>
          intro hgood
          obtain ⟨_, -, real⟩ := expected hgood
          exact absurd through real
  · exact fun e v _ hflag _ => hflag

theorem exists_wp {Q : Except SshError Bool → World → Prop}
    (seen : ∀ there v, v.tree = w.tree →
      Through w.tree path ∨ (there = true ↔ w.tree.entry path ≠ none) → Q (.ok there) v)
    (unknown : ∀ e v, v.tree = w.tree → Through w.tree path ∨ v.faulty = true → Q (.error e) v) :
    (sftpExists path).wp (guarded runId good) Q w := by
  unfold sftpExists
  rw [Prog.wp_bind]
  apply perform_wp
  intro answer v step
  rw [onResult_ok]
  obtain ⟨⟨hanswer, hv⟩, -⟩ | ⟨⟨e, he, rfl⟩, hv, hflag⟩ := step
  · refine ⟨?_, ?_⟩
    · rw [hv]
      exact .refl
    obtain rfl | through := hanswer
    · unfold kindAt
      split
      · rename_i kind h
        split at h
        · rename_i node hnode
          exact seen _ v hv (.inr ⟨fun _ => by simp [hnode], fun _ => rfl⟩)
        · cases h
      · rename_i h
        split at h
        · cases h
        · rename_i hnone
          exact seen _ v hv
            (.inr ⟨fun h => absurd h Bool.false_ne_true, fun h => absurd hnone h⟩)
      · rename_i e he h
        split at h
        · cases h
        · exact absurd (Except.error.inj h).symm he
    · cases answer with
      | ok kind => exact seen _ v hv (.inl through)
      | error e =>
        cases e with
        | missing => exact seen _ v hv (.inl through)
        | failure => exact unknown _ v hv (.inl through)
        | connection => exact unknown _ v hv (.inl through)
  · have hv : v.tree = w.tree := still_of_broken (o := .lstat path) (fun _ h => h.2) hv
    refine ⟨?_, ?_⟩
    · rw [hv]
      exact .refl
    cases e with
    | missing => exact absurd rfl he
    | failure => exact unknown _ v hv (.inr hflag)
    | connection => exact unknown _ v hv (.inr hflag)

theorem sftpExists_wp (here : w.tree = t) (expected : good → ¬ Through t path) :
    (sftpExists path).wp (guarded runId good) (Ends good fun there t' => t' = t ∧
      (Through t path ∨ (there = true ↔ t.entry path ≠ none))) w := by
  subst here
  apply exists_wp
  · exact fun there v hv h => ⟨hv, h⟩
  · exact fun e v _ h hgood => h.resolve_left (expected hgood)

theorem leafExists_wp (here : w.tree = t) : (sftpExists [leaf]).wp (guarded runId good)
    (Ends good fun there t' => t' = t ∧ (there = true ↔ t.entry [leaf] ≠ none)) w := by
  subst here
  apply Ends.mono _ (sftpExists_wp rfl fun _ => not_through_leaf)
  rintro there t' ⟨ht, through | h⟩
  · exact absurd through not_through_leaf
  · exact ⟨ht, h⟩

theorem read_wp {maxBytes : Nat} (here : w.tree = t)
    (expected : good → ∃ content, t.entry path = some (.file content) ∧
      content.length ≤ maxBytes) :
    (read path maxBytes).wp (guarded runId good) (Ends good fun raw t' => t' = t ∧
      ∀ content, t.entry path = some (.file content) →
        raw = content ∧ content.length ≤ maxBytes) w := by
  subst here
  unfold read
  rw [Prog.wp_bind]
  apply perform_wp
  intro answer v step
  rw [onResult_ok, Prog.wp_bind, Prog.wp_ofExcept]
  obtain ⟨hact, -⟩ | ⟨⟨e, -, rfl⟩, hv, hflag⟩ := step
  · cases answer with
    | ok raw =>
      obtain ⟨hraw, hv⟩ := hact
      refine ⟨?_, ?_⟩
      · rw [hv]
        exact .refl
      have hcontent : ∀ content, w.tree.entry path = some (.file content) →
          raw = content.take (maxBytes + 1) := by
        intro content h
        unfold Reads at hraw
        rw [h] at hraw
        exact hraw
      show (Prog.ofExcept _ : SshProg Bytes).wp _ _ _
      rw [Prog.wp_ofExcept]
      split
      · rename_i large
        intro hgood
        obtain ⟨content, h, hshort⟩ := expected hgood
        rw [hcontent content h, List.length_take] at large
        omega
      · rename_i short
        refine ⟨hv, fun content h => ?_⟩
        have hlength := congrArg List.length (hcontent content h)
        rw [List.length_take] at hlength
        have hshort : content.length ≤ maxBytes := by omega
        exact ⟨by rw [hcontent content h, List.take_of_length_le (by omega)], hshort⟩
    | error e =>
      obtain ⟨hno, -, hv⟩ := hact
      refine ⟨?_, ?_⟩
      · rw [hv]
        exact .refl
      intro hgood
      obtain ⟨content, h, -⟩ := expected hgood
      exact absurd h (hno content)
  · have hv : v.tree = w.tree := by
      refine still_of_broken (o := .read path (maxBytes + 1)) (fun answer h => ?_) hv
      cases answer with
      | ok _ => exact h.2
      | error e => exact h.2.2
    refine ⟨?_, fun _ => hflag⟩
    rw [hv]
    exact .refl

theorem listdirAttr_wp (here : w.tree = t) (expected : good → t.entry path = some .directory) :
    (listdirAttr path).wp (guarded runId good) (Ends good fun children t' =>
      t' = t ∧ Lists t path children) w := by
  subst here
  unfold listdirAttr
  rw [Prog.wp_bind]
  apply perform_wp
  intro answer v step
  rw [onResult_ok, Prog.wp_ofExcept]
  obtain ⟨hact, -⟩ | ⟨⟨e, -, rfl⟩, hv, hflag⟩ := step
  · cases answer with
    | ok children =>
      obtain ⟨hlists, hv⟩ := hact
      refine ⟨?_, hv, hlists⟩
      rw [hv]
      exact .refl
    | error e =>
      obtain ⟨hno, -, hv⟩ := hact
      refine ⟨?_, fun hgood => absurd (expected hgood) hno⟩
      rw [hv]
      exact .refl
  · have hv : v.tree = w.tree := by
      refine still_of_broken (o := .listdirAttr path) (fun answer h => ?_) hv
      cases answer with
      | ok _ => exact h.2
      | error e => exact h.2.2
    refine ⟨?_, fun _ => hflag⟩
    rw [hv]
    exact .refl

section

variable {R : Unit → RunBase → Prop} {dir : Path} {name : Text}

theorem change_ends {can : Prop} {after : RunBase} {answer : Except SftpError Unit} {v : World}
    (step : (Change can after answer w.tree v.tree ∧ v.faulty = w.faulty) ∨
      ((∃ e, e ≠ .missing ∧ answer = .error e) ∧ (v.tree = w.tree ∨ (can ∧ v.tree = after)) ∧
        v.faulty = true))
    (expected : good → can) (admits : can → Admits runId good w.tree after)
    (done : can → R () after) :
    Admits runId good w.tree v.tree ∧
      (Prog.ofExcept (Except.mapError .sftp answer)).wp (guarded runId good)
        (Ends good R) v := by
  apply change_step step admits
  · intro v hcan hv
    show R () v.tree
    rw [hv]
    exact done hcan
  · exact fun e v hcan _ hgood => absurd (expected hgood) hcan
  · exact fun e v _ hflag _ => hflag

theorem either_of_broken {can : Prop} {after : RunBase}
    (h : u = t ∨ (∃ answer, Change can after answer t u) ∨ False) : u = t ∨ (can ∧ u = after) := by
  obtain hu | ⟨answer, hchange⟩ | hno := h
  · exact .inl hu
  · exact hchange.either
  · exact hno.elim

theorem mkdir_wp (here : w.tree = t)
    (expected : good → t.entry dir = some .directory ∧ t.entry (dir ++ [name]) = none)
    (admits : t.entry dir = some .directory ∧ t.entry (dir ++ [name]) = none →
      Admits runId good t (t.put dir name .directory))
    (done : t.entry dir = some .directory ∧ t.entry (dir ++ [name]) = none →
      R () (t.put dir name .directory)) :
    (mkdir dir name).wp (guarded runId good) (Ends good R) w := by
  subst here
  unfold mkdir
  rw [Prog.wp_bind]
  apply perform_wp
  intro answer v step
  apply change_ends _ expected admits done
  exact step.imp id fun ⟨answer, broken, flag⟩ => ⟨answer, either_of_broken broken, flag⟩

theorem rename_wp {src : Path} (here : w.tree = t)
    (expected : good → t.entry src ≠ none ∧ FileTree.Movable t src dir name)
    (admits : t.entry src ≠ none ∧ FileTree.Movable t src dir name →
      Admits runId good t (t.move src dir name))
    (done : t.entry src ≠ none ∧ FileTree.Movable t src dir name →
      R () (t.move src dir name)) :
    (rename src dir name).wp (guarded runId good) (Ends good R) w := by
  subst here
  unfold rename
  rw [Prog.wp_bind]
  apply perform_wp
  intro answer v step
  apply change_ends _ expected admits done
  exact step.imp id fun ⟨answer, broken, flag⟩ => ⟨answer, either_of_broken broken, flag⟩

theorem remove_wp (here : w.tree = t)
    (expected : good → path ≠ [] ∧ ∃ node, t.entry path = some node ∧ node ≠ .directory)
    (admits : (path ≠ [] ∧ ∃ node, t.entry path = some node ∧ node ≠ .directory) →
      Admits runId good t (t.prune path))
    (done : (path ≠ [] ∧ ∃ node, t.entry path = some node ∧ node ≠ .directory) →
      R () (t.prune path)) :
    (remove path).wp (guarded runId good) (Ends good R) w := by
  subst here
  unfold remove
  rw [Prog.wp_bind]
  apply perform_wp
  intro answer v step
  apply change_ends _ expected admits done
  exact step.imp id fun ⟨answer, broken, flag⟩ => ⟨answer, either_of_broken broken, flag⟩

theorem shell_wp {command : ShellCommand} (here : w.tree = t)
    (whole : ∀ path, command ≠ .removeTree path)
    (expected : good → command.can t)
    (admits : command.can t → Admits runId good t (command.effect t))
    (done : command.can t → R () (command.effect t)) :
    (shell command).wp (guarded runId good) (Ends good R) w := by
  subst here
  unfold shell
  rw [Prog.wp_bind]
  apply perform_wp
  intro answer v step
  apply change_ends _ expected admits done
  refine step.imp id fun ⟨answer, broken, flag⟩ => ⟨answer, either_of_broken ?_, flag⟩
  cases command with
  | removeTree path => exact absurd rfl (whole path)
  | killSession | realDirectory | listed | holds | removeFile | rmdir | gone => exact broken

/-- A removal that was cut off has taken away any part. -/
theorem removeTree_wp (here : w.tree = t) (hpath : path ≠ [])
    (admits : ∀ t', FileTree.Pruned t t' path → Admits runId good t t')
    (done : R () (t.prune path)) :
    (shell (.removeTree path)).wp (guarded runId good) (Ends good R) w := by
  subst here
  have pruned := FileTree.prune_pruned (t := w.tree) hpath
  unfold shell
  rw [Prog.wp_bind]
  apply perform_wp
  intro answer v step
  rw [onResult_ok, Prog.wp_ofExcept]
  obtain ⟨⟨-, rfl, hv⟩ | ⟨hcan, -⟩, -⟩ | ⟨⟨e, -, rfl⟩, hv, hflag⟩ := step
  · refine ⟨?_, ?_⟩
    · rw [hv]
      exact admits _ pruned
    · show R () v.tree
      rw [hv]
      exact done
  · exact absurd hpath hcan
  · refine ⟨?_, fun _ => hflag⟩
    obtain hv | ⟨answer, hact⟩ | hpruned := hv
    · rw [hv]
      exact .refl
    · obtain hv | ⟨-, hv⟩ := hact.either <;> rw [hv]
      · exact .refl
      · exact admits _ pruned
    · exact admits _ hpruned

/-- A command that only looks. -/
theorem look_wp {command : ShellCommand} (here : w.tree = t)
    (whole : ∀ path, command ≠ .removeTree path)
    (looks : command.effect t = t) (expected : good → command.can t) :
    (shell command).wp (guarded runId good)
      (Ends good fun _ t' => t' = t ∧ command.can t) w := by
  subst here
  apply shell_wp rfl whole expected
  · intro _
    rw [looks]
    exact .refl
  · exact fun hcan => ⟨looks, hcan⟩

end

end

end

end Termroom.Ssh.RunTree
