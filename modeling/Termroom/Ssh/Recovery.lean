import Mathlib
import Termroom.Ssh.TreeContract

/-!
# Creation and deletion of a Run, wherever they stop

The programs are walked through once under the contract, from the assertions to the two calls.
-/

set_option autoImplicit false

namespace Termroom.Ssh.RunTree

open Conc Data Archive

/-! ## 1. Assertions -/

section

variable {runId : RunId} {body : Text} {good : Prop} {w : World} {leaf : Text}

theorem kindOf_directory {node : FileNode Bytes} (h : kindOf node = .directory) :
    node = .directory := by
  cases node with
  | directory => rfl
  | file content => cases h
  | symlink => cases h

theorem kindOf_file {node : FileNode Bytes} (h : kindOf node = .file) :
    ∃ content, node = .file content := by
  cases node with
  | directory => cases h
  | file content => exact ⟨content, rfl⟩
  | symlink => cases h

theorem directory_of_kind {t : RunBase} (dir : Path) {name : Text} {kind : Kind}
    (hdir : t.entry dir = some .directory)
    (h : Through t (dir ++ [name]) ∨
      ∃ node, t.entry (dir ++ [name]) = some node ∧ kindOf node = kind)
    (hkind : kind = .directory) : t.entry (dir ++ [name]) = some .directory := by
  obtain ⟨node, hnode, hkindOf⟩ := h.resolve_left (not_through dir hdir)
  rw [hnode, kindOf_directory (hkindOf.trans hkind)]

theorem file_of_kind {t : RunBase} (dir : Path) {name : Text} {kind : Kind}
    (hdir : t.entry dir = some .directory)
    (h : Through t (dir ++ [name]) ∨
      ∃ node, t.entry (dir ++ [name]) = some node ∧ kindOf node = kind)
    (hkind : kind = .file) : ∃ content, t.entry (dir ++ [name]) = some (.file content) := by
  obtain ⟨node, hnode, hkindOf⟩ := h.resolve_left (not_through dir hdir)
  obtain ⟨content, rfl⟩ := kindOf_file (hkindOf.trans hkind)
  exact ⟨content, hnode⟩

theorem kind_of_entry {t : RunBase} (dir : Path) {name : Text} {kind : Kind}
    {node : FileNode Bytes}
    (hdir : t.entry dir = some .directory) (hnode : t.entry (dir ++ [name]) = some node)
    (h : Through t (dir ++ [name]) ∨
      ∃ node, t.entry (dir ++ [name]) = some node ∧ kindOf node = kind) : kind = kindOf node := by
  obtain ⟨other, hother, hkind⟩ := h.resolve_left (not_through dir hdir)
  rw [hnode] at hother
  obtain rfl := Option.some.inj hother
  exact hkind.symm

section

variable {t : RunBase}

theorem readMarker_wp {unreadable : Option SshError} (here : w.tree = t)
    (expected : good → Marked runId t leaf) :
    (readMarker leaf unreadable).wp (guarded runId good) (Ends good fun raw t' => t' = t ∧
      ∀ content, t.entry [leaf, metadataName, markerName] = some (.file content) →
        raw = content ∧ content.length ≤ 128) w := by
  have plain : (read [leaf, metadataName, markerName] 128).wp (guarded runId good)
      (Ends good fun raw t' => t' = t ∧
        ∀ content, t.entry [leaf, metadataName, markerName] = some (.file content) →
          raw = content ∧ content.length ≤ 128) w := by
    apply read_wp here
    intro hgood
    obtain ⟨content, hcontent, short, -⟩ := (expected hgood).marker
    exact ⟨content, hcontent, short⟩
  cases unreadable with
  | none => exact plain
  | some e => exact orElse_wp plain

/-- The three answers of `lstat`, and what they say together. -/
theorem assertTree_wp {errors : TreeErrors} (here : w.tree = t)
    (expected : good → Marked runId t leaf) :
    (assertTree runId leaf errors).wp (guarded runId good)
      (Ends good fun _ t' => t' = t ∧ Marked runId t leaf) w := by
  unfold assertTree
  apply Ends.seq (orElse_wp (kind_wp here fun hgood =>
    ⟨_, (expected hgood).directory, not_through_leaf⟩))
  rintro root v₁ ⟨h₁, hroot⟩
  apply Ends.seq (orElse_wp (kind_wp h₁ fun hgood =>
    ⟨_, (expected hgood).metadata, not_through [leaf] (expected hgood).directory⟩))
  rintro metadata v₂ ⟨h₂, hmetadata⟩
  apply Ends.seq (orElse_wp (kind_wp h₂ fun hgood => by
    obtain ⟨content, hcontent, -⟩ := (expected hgood).marker
    exact ⟨_, hcontent, not_through [leaf, metadataName] (expected hgood).metadata⟩))
  rintro marker v₃ ⟨h₃, hmarker⟩
  apply Ends.seq (require_wp (R := fun _ t' => t' = t ∧ t.entry [leaf] = some .directory) h₃
    (fun h => ⟨rfl, directory_of_kind [] t.root hroot (of_decide_eq_true h)⟩)
    (fun hgood => decide_eq_true (kind_of_entry [] t.root (expected hgood).directory hroot)))
  rintro - v₄ ⟨h₄, hdirectory⟩
  apply Ends.seq (require_wp (R := fun _ t' => t' = t ∧
      t.entry [leaf, metadataName] = some .directory) h₄
    (fun h => ⟨rfl, directory_of_kind [leaf] hdirectory hmetadata (of_decide_eq_true h)⟩)
    (fun hgood => decide_eq_true
      (kind_of_entry [leaf] hdirectory (expected hgood).metadata hmetadata)))
  rintro - v₅ ⟨h₅, hdirectory'⟩
  apply Ends.seq (require_wp (R := fun _ t' => t' = t ∧
      ∃ content, t.entry [leaf, metadataName, markerName] = some (.file content)) h₅
    (fun h => ⟨rfl, file_of_kind [leaf, metadataName] hdirectory' hmarker
      (of_decide_eq_true h)⟩)
    (fun hgood => by
      obtain ⟨content, hcontent, -⟩ := (expected hgood).marker
      exact decide_eq_true
        (kind_of_entry [leaf, metadataName] hdirectory' hcontent hmarker)))
  rintro - v₆ ⟨h₆, content, hfile⟩
  apply Ends.seq (readMarker_wp h₆ expected)
  rintro raw v₇ ⟨h₇, hraw⟩
  obtain ⟨rfl, short⟩ := hraw content hfile
  have named : good → Says runId raw := fun hgood => by
    obtain ⟨content, hcontent, hsays⟩ := (expected hgood).marker
    rw [hfile] at hcontent
    obtain rfl : raw = content := by simpa using hcontent
    exact hsays
  apply Ends.seq (stripped_wp h₇ fun hgood => by
    obtain ⟨-, text, htext, -⟩ := named hgood
    exact ⟨text, htext⟩)
  rintro marked v₈ ⟨h₈, text, htext, rfl⟩
  apply require_wp h₈
  · exact fun h =>
      ⟨rfl, hdirectory, hdirectory', raw, hfile, short, text, htext, of_decide_eq_true h⟩
  · intro hgood
    obtain ⟨-, text', htext', hstrip⟩ := named hgood
    rw [htext] at htext'
    obtain rfl := Option.some.inj htext'
    exact decide_eq_true hstrip

theorem assertContainer_wp (here : w.tree = t)
    (expected : good → t.entry [quarantineLeaf runId] = some .directory) :
    (assertContainer runId).wp (guarded runId good) (Ends good fun _ t' =>
      t' = t ∧ t.entry [quarantineLeaf runId] = some .directory) w := by
  unfold assertContainer
  apply Ends.seq (orElse_wp (kind_wp here fun hgood => ⟨_, expected hgood, not_through_leaf⟩))
  rintro kind v ⟨hv, hkind⟩
  apply require_wp hv
  · exact fun h => ⟨rfl, directory_of_kind [] t.root hkind (of_decide_eq_true h)⟩
  · exact fun hgood => decide_eq_true (kind_of_entry [] t.root (expected hgood) hkind)

theorem assertDeletionMarker_wp (here : w.tree = t) (expected : good → DeletionMarked runId t) :
    (assertDeletionMarker runId).wp (guarded runId good)
      (Ends good fun _ t' => t' = t ∧ DeletionMarked runId t) w := by
  unfold assertDeletionMarker
  apply Ends.seq (orElse_wp (kind_wp here fun hgood => by
    obtain ⟨content, hcontent, -⟩ := expected hgood
    exact ⟨_, hcontent, not_through_leaf⟩))
  rintro kind v₁ ⟨h₁, hkind⟩
  apply Ends.seq (require_wp (R := fun _ t' => t' = t ∧
      ∃ content, t.entry [deletionMarkerLeaf runId] = some (.file content)) h₁
    (fun h => ⟨rfl, file_of_kind [] t.root hkind (of_decide_eq_true h)⟩)
    (fun hgood => by
      obtain ⟨content, hcontent, -⟩ := expected hgood
      exact decide_eq_true (kind_of_entry [] t.root hcontent hkind)))
  rintro - v₂ ⟨h₂, content, hfile⟩
  apply Ends.seq (read_wp h₂ fun hgood => by
    obtain ⟨content, hcontent, short, -⟩ := expected hgood
    exact ⟨content, hcontent, short⟩)
  rintro raw v₃ ⟨h₃, hraw⟩
  obtain ⟨rfl, short⟩ := hraw content hfile
  have named : good → Says runId raw := fun hgood => by
    obtain ⟨content, hcontent, hsays⟩ := expected hgood
    rw [hfile] at hcontent
    obtain rfl : raw = content := by simpa using hcontent
    exact hsays
  apply Ends.seq (stripped_wp h₃ fun hgood => by
    obtain ⟨-, text, htext, -⟩ := named hgood
    exact ⟨text, htext⟩)
  rintro marked v₄ ⟨h₄, text, htext, rfl⟩
  apply require_wp h₄
  · exact fun h => ⟨rfl, raw, hfile, short, text, htext, of_decide_eq_true h⟩
  · intro hgood
    obtain ⟨-, text', htext', hstrip⟩ := named hgood
    rw [htext] at htext'
    obtain rfl := Option.some.inj htext'
    exact decide_eq_true hstrip

end

end

/-! ## 2. A file written beside its place -/

/-- What a write that is not finished leaves: a temporary file, and the file as it was or as it
    is to be. -/
structure Wrote (t u : RunBase) (dir : Path) (temporary name : Text) (value : Bytes) : Prop where
  other : ∀ path, path ≠ dir ++ [temporary] → path ≠ dir ++ [name] → u.entry path = t.entry path
  temporary : u.entry (dir ++ [temporary]) = none ∨
    ∃ part, u.entry (dir ++ [temporary]) = some (.file part)
  name : u.entry (dir ++ [name]) = t.entry (dir ++ [name]) ∨
    (u.entry (dir ++ [name]) = some (.file value) ∧ t.entry (dir ++ [name]) ≠ some .directory)

section

variable {t u v : RunBase} {dir path : Path} {temporary name : Text} {value : Bytes}

theorem Wrote.refl (vacant : t.entry (dir ++ [temporary]) = none) :
    Wrote t t dir temporary name value :=
  ⟨fun _ _ _ => rfl, .inl vacant, .inl rfl⟩

theorem sibling_apart {a b : Text} (h : a ≠ b) : ¬ dir ++ [a] <+: dir ++ [b] := by
  intro hprefix
  have := List.IsPrefix.eq_of_length hprefix (by simp)
  exact h (List.append_singleton_inj.mp this).2

/-- What a file hides below its path is nothing. -/
theorem none_below_file {content : Bytes} {rest : Path} (h : t.entry path = some (.file content))
    (hrest : rest ≠ []) : t.entry (path ++ rest) = none := by
  obtain ⟨first, rest, rfl⟩ := List.exists_cons_of_ne_nil hrest
  exact FileTree.none_below (by rw [h]; simp) first rest

theorem Wrote.staged {part : Bytes} (apart : temporary ≠ name)
    (vacant : t.entry (dir ++ [temporary]) = none) (hdir : t.entry dir = some .directory) :
    Wrote t (t.put dir temporary (.file part)) dir temporary name value where
  other path htemporary _ := FileTree.put_other htemporary
  temporary := .inr ⟨part, FileTree.put_here hdir (by rw [vacant]; simp)⟩
  name := by
    refine .inl (FileTree.put_other fun h => apart ?_)
    exact (List.append_singleton_inj.mp h).2.symm

/-- The temporary file takes its place. -/
theorem Wrote.placed (apart : temporary ≠ name) (vacant : t.entry (dir ++ [temporary]) = none)
    (old : t.entry (dir ++ [name]) ≠ some .directory)
    (other : ∀ path, path ≠ dir ++ [temporary] → path ≠ dir ++ [name] →
      u.entry path = t.entry path)
    (content : u.entry (dir ++ [temporary]) = some (.file value))
    (movable : FileTree.Movable u (dir ++ [temporary]) dir name) :
    Wrote t (u.move (dir ++ [temporary]) dir name) dir temporary name value ∧
      (u.move (dir ++ [temporary]) dir name).entry (dir ++ [name]) = some (.file value) := by
  have hname : (u.move (dir ++ [temporary]) dir name).entry (dir ++ [name]) =
      some (.file value) := by
    rw [FileTree.move_here movable, List.append_nil]
    exact content
  have outside : ¬ dir ++ [name] <+: dir ++ [temporary] := sibling_apart apart.symm
  refine ⟨⟨?_, .inl ?_, .inr ⟨hname, old⟩⟩, hname⟩
  · intro path htemporary hplace
    by_cases below : dir ++ [name] <+: path
    · obtain ⟨rest, rfl⟩ := below
      have hrest : rest ≠ [] := fun h => hplace (by rw [h, List.append_nil])
      obtain ⟨first, rest, rfl⟩ := List.exists_cons_of_ne_nil hrest
      rw [FileTree.none_below old, List.append_assoc]
      show (u.move (dir ++ [temporary]) dir name).entry (dir ++ name :: first :: rest) = none
      rw [FileTree.move_here movable]
      exact none_below_file content (List.cons_ne_nil _ _)
    by_cases gone : dir ++ [temporary] <+: path
    · rw [FileTree.move_gone movable gone below]
      obtain ⟨rest, rfl⟩ := gone
      exact (FileTree.none_of_none vacant rest).symm
    · rw [FileTree.move_other gone below]
      exact other path htemporary hplace
  · exact FileTree.move_gone movable (List.prefix_refl _) outside

theorem Wrote.discarded (h : Wrote t u dir temporary name value) (apart : temporary ≠ name)
    (vacant : t.entry (dir ++ [temporary]) = none) :
    Wrote t (u.prune (dir ++ [temporary])) dir temporary name value := by
  have outside : ¬ dir ++ [temporary] <+: dir ++ [name] := sibling_apart apart
  refine ⟨?_, .inl (FileTree.prune_below (by simp) (List.prefix_refl _)), ?_⟩
  · intro path htemporary hplace
    by_cases gone : dir ++ [temporary] <+: path
    · rw [FileTree.prune_below (by simp) gone]
      obtain ⟨rest, rfl⟩ := gone
      exact (FileTree.none_of_none vacant rest).symm
    · rw [FileTree.prune_other gone]
      exact h.other path htemporary hplace
  · rw [FileTree.prune_other outside]
    exact h.name

/-- No directory goes, and only the two names are touched. -/
theorem Wrote.lawful {runId : RunId} (hu : Wrote t u dir temporary name value)
    (hv : Wrote t v dir temporary name value)
    (ours : ∀ last, last = temporary ∨ last = name →
      ∀ leaf rest, leaf :: rest = dir ++ [last] → Ours runId leaf) : Lawful runId u v where
  elsewhere leaf rest foreign := by
    have htemporary : leaf :: rest ≠ dir ++ [temporary] := fun h =>
      foreign (ours temporary (.inl rfl) leaf rest h)
    have hname : leaf :: rest ≠ dir ++ [name] := fun h => foreign (ours name (.inr rfl) leaf rest h)
    rw [hv.other _ htemporary hname, hu.other _ htemporary hname]
  directories leaf rest here gone := by
    refine absurd ?_ gone
    by_cases htemporary : leaf :: rest = dir ++ [temporary]
    · rw [htemporary] at here
      obtain h | ⟨part, h⟩ := hu.temporary <;> rw [h] at here <;> simp at here
    by_cases hname : leaf :: rest = dir ++ [name]
    · rw [hname] at here ⊢
      obtain h | ⟨h, -⟩ := hu.name
      · rw [h] at here
        obtain h' | ⟨-, h'⟩ := hv.name
        · rw [h', here]
        · exact absurd here h'
      · rw [h] at here
        simp at here
    · rw [hv.other _ htemporary hname, ← hu.other _ htemporary hname]
      exact here

theorem temporaryName_ne (name : Text) (id : RunId) : temporaryName name id ≠ name := by
  intro h
  have := congrArg List.length h
  rw [temporaryName_length] at this
  omega

end

section

variable {runId : RunId} {body : Text} {good : Prop} {w : World} {t : RunBase} {dir path : Path}
  {temporary name : Text} {value : Bytes}

theorem removeQuietly_wp (here : Wrote t w.tree dir temporary name value)
    (apart : temporary ≠ name) (vacant : t.entry (dir ++ [temporary]) = none)
    (admits : ∀ u v, Wrote t u dir temporary name value → Wrote t v dir temporary name value →
      Admits runId good u v) :
    (removeQuietly (dir ++ [temporary])).wp (guarded runId good) (fun r v =>
      Wrote t v.tree dir temporary name value ∧
      v.tree.entry (dir ++ [name]) = w.tree.entry (dir ++ [name]) ∧
      (w.faulty = true → v.faulty = true) ∧
      onResult (fun _ => True) (fun _ => v.faulty = true) r) w := by
  have outside : ¬ dir ++ [temporary] <+: dir ++ [name] := sibling_apart apart
  have hgone := here.discarded apart vacant
  have hsame : ∀ v : World, v.tree = w.tree ∨ v.tree = w.tree.prune (dir ++ [temporary]) →
      Wrote t v.tree dir temporary name value ∧
        v.tree.entry (dir ++ [name]) = w.tree.entry (dir ++ [name]) := by
    rintro v (hv | hv) <;> rw [hv]
    · exact ⟨here, rfl⟩
    · exact ⟨hgone, FileTree.prune_other outside⟩
  unfold removeQuietly
  rw [Prog.wp_bind]
  apply perform_wp
  intro answer v step
  rw [onResult_ok]
  obtain ⟨hact, hflag⟩ | ⟨⟨e, -, rfl⟩, hv, hflag⟩ := step
  · obtain ⟨hwrote, hname⟩ := hsame v (hact.either.imp id And.right)
    refine ⟨admits _ _ here hwrote, ?_⟩
    have mono : w.faulty = true → v.faulty = true := fun h => hflag.trans h
    obtain ⟨-, rfl, -⟩ | ⟨-, ⟨e, he, rfl⟩, -⟩ := hact
    · exact ⟨hwrote, hname, mono, trivial⟩
    · cases e with
      | missing => exact ⟨hwrote, hname, mono, trivial⟩
      | failure => exact ⟨hwrote, hname, mono, trivial⟩
      | connection => exact absurd rfl he
  · obtain ⟨hwrote, hname⟩ := hsame v ((either_of_broken hv).imp id And.right)
    refine ⟨admits _ _ here hwrote, ?_⟩
    cases e with
    | missing => exact ⟨hwrote, hname, fun _ => hflag, trivial⟩
    | failure => exact ⟨hwrote, hname, fun _ => hflag, trivial⟩
    | connection => exact ⟨hwrote, hname, fun _ => hflag, hflag⟩

/-- What there is when the temporary file has been written. -/
structure Staged (t u : RunBase) (dir : Path) (temporary name : Text) (value : Bytes) : Prop where
  wrote : Wrote t u dir temporary name value
  directory : t.entry dir = some .directory
  content : u.entry (dir ++ [temporary]) = some (.file value)
  old : u.entry (dir ++ [name]) = t.entry (dir ++ [name])

/-- The temporary file is put where a file was. -/
theorem Staged.replaced {u : RunBase} (staged : Staged t u dir temporary name value)
    (apart : temporary ≠ name) (vacant : t.entry (dir ++ [temporary]) = none)
    (hfile : u.entry (dir ++ [name]) ≠ some .directory)
    (movable : FileTree.Movable (u.prune (dir ++ [name])) (dir ++ [temporary]) dir name) :
    Wrote t ((u.prune (dir ++ [name])).move (dir ++ [temporary]) dir name) dir temporary name
        value ∧
      ((u.prune (dir ++ [name])).move (dir ++ [temporary]) dir name).entry (dir ++ [name]) =
        some (.file value) := by
  rw [staged.old] at hfile
  have outside : ¬ dir ++ [name] <+: dir ++ [temporary] := sibling_apart apart.symm
  apply Wrote.placed apart vacant hfile _ _ movable
  · intro path htemporary hname
    by_cases below : dir ++ [name] <+: path
    · rw [FileTree.prune_below (by simp) below]
      obtain ⟨rest, rfl⟩ := below
      have hrest : rest ≠ [] := fun h => hname (by rw [h, List.append_nil])
      obtain ⟨first, rest, rfl⟩ := List.exists_cons_of_ne_nil hrest
      exact (FileTree.none_below hfile first rest).symm
    · rw [FileTree.prune_other below]
      exact staged.wrote.other path htemporary hname
  · rw [FileTree.prune_other outside]
    exact staged.content

/-- The temporary file is put where nothing was. -/
theorem Staged.renamed {u : RunBase} (staged : Staged t u dir temporary name value)
    (apart : temporary ≠ name) (vacant : t.entry (dir ++ [temporary]) = none)
    (movable : FileTree.Movable u (dir ++ [temporary]) dir name) :
    Wrote t (u.move (dir ++ [temporary]) dir name) dir temporary name value ∧
      (u.move (dir ++ [temporary]) dir name).entry (dir ++ [name]) = some (.file value) := by
  have old : t.entry (dir ++ [name]) ≠ some .directory := by
    rw [← staged.old, movable.vacant]
    simp
  exact Wrote.placed apart vacant old staged.wrote.other staged.content movable

theorem putInPlace_wp (staged : Staged t w.tree dir temporary name value)
    (apart : temporary ≠ name) (vacant : t.entry (dir ++ [temporary]) = none)
    (expected : good → t.entry (dir ++ [name]) = none)
    (admits : ∀ u v, Wrote t u dir temporary name value → Wrote t v dir temporary name value →
      Admits runId good u v) :
    (putInPlace dir name temporary).wp (guarded runId good) (fun r v =>
      Wrote t v.tree dir temporary name value ∧
      Ends good (fun _ t' => t'.entry (dir ++ [name]) = some (.file value) ∧
        t.entry (dir ++ [name]) ≠ some .directory) r v) w := by
  have hdir : w.tree.entry dir = some .directory :=
    (staged.wrote.other dir (by simp) (by simp)).trans staged.directory
  have same : ∀ v : World, v.tree = w.tree → Wrote t v.tree dir temporary name value := by
    intro v hv
    rw [hv]
    exact staged.wrote
  unfold putInPlace
  rw [Prog.wp_bind]
  apply exists_wp
  · intro there v hv hthere
    rw [onResult_ok]
    replace hthere := hthere.resolve_left (not_through dir hdir)
    have staged' : Staged t v.tree dir temporary name value := hv.symm ▸ staged
    split
    · rename_i replaces
      have never : ¬ good := fun hgood => by
        have := hthere.mp replaces
        rw [staged.old] at this
        exact this (expected hgood)
      unfold orElse
      rw [Prog.wp_bind, Prog.wp_attempt, Prog.wp_bind]
      apply perform_wp
      intro answer x step
      rw [onResult_ok, Prog.wp_ofExcept]
      -- the old file was replaced, or all is as it was
      have either : ∀ x : World, (x.tree = v.tree ∨
          ((v.tree.entry (dir ++ [temporary]) ≠ none ∧
            v.tree.entry (dir ++ [temporary]) ≠ some .directory ∧
            v.tree.entry (dir ++ [name]) ≠ some .directory ∧
            FileTree.Movable (v.tree.prune (dir ++ [name])) (dir ++ [temporary]) dir name) ∧
          x.tree = (v.tree.prune (dir ++ [name])).move (dir ++ [temporary]) dir name)) →
          Wrote t x.tree dir temporary name value := by
        rintro x (hx | ⟨⟨-, -, hfile, movable⟩, hx⟩) <;> rw [hx]
        · exact same v hv
        · exact (staged'.replaced apart vacant hfile movable).1
      obtain ⟨hchange | ⟨⟨e, he, rfl⟩, hx⟩, -⟩ | ⟨⟨e, he, rfl⟩, hbroken, hflag⟩ := step
      · have hwrote := either x hchange.either
        refine ⟨admits _ _ (same v hv) hwrote, ?_⟩
        obtain ⟨⟨-, -, hfile, movable⟩, rfl, hx⟩ | ⟨-, ⟨e, -, rfl⟩, -⟩ := hchange
        · refine ⟨hwrote, ?_, ?_⟩
          · rw [hx]
            exact (staged'.replaced apart vacant hfile movable).2
          · rwa [hv, staged.old] at hfile
        · cases e <;> exact ⟨hwrote, fun hgood => absurd hgood never⟩
      · have hwrote := either x (.inl hx)
        refine ⟨admits _ _ (same v hv) hwrote, ?_⟩
        cases e <;> exact ⟨hwrote, fun hgood => absurd hgood never⟩
      · have hwrote : Wrote t x.tree dir temporary name value := by
          obtain hx | ⟨answer, hchange | ⟨-, hx⟩⟩ | hno := hbroken
          · exact either x (.inl hx)
          · exact either x hchange.either
          · exact either x (.inl hx)
          · exact hno.elim
        refine ⟨admits _ _ (same v hv) hwrote, ?_⟩
        cases e <;> exact ⟨hwrote, fun hgood => absurd hgood never⟩
    · unfold rename
      rw [Prog.wp_bind]
      apply perform_wp
      intro answer x step
      have vacated : v.tree.entry (dir ++ [name]) = none → t.entry (dir ++ [name]) = none := by
        intro h
        rwa [hv, staged.old] at h
      apply change_step
        (step.imp id fun ⟨answer, broken, flag⟩ => ⟨answer, either_of_broken broken, flag⟩)
      · exact fun hcan => admits _ _ (same v hv) (staged'.renamed apart vacant hcan.2).1
      · intro x hcan hx
        have hplaced := staged'.renamed apart vacant hcan.2
        rw [← hx] at hplaced
        refine ⟨hplaced.1, hplaced.2, ?_⟩
        rw [vacated hcan.2.vacant]
        simp
      · intro e x hcan hx
        refine ⟨by rw [hx]; exact same v hv, fun hgood => absurd ?_ hcan⟩
        rw [hv]
        refine ⟨by rw [staged.content]; simp, hdir, ?_, by simp, sibling_apart apart⟩
        rw [staged.old]
        exact expected hgood
      · rintro e x (hx | ⟨hcan, hx⟩) hflag <;> refine ⟨?_, fun _ => hflag⟩ <;> rw [hx]
        · exact same v hv
        · exact (staged'.renamed apart vacant hcan.2).1
  · rintro e v hv (through | hflag)
    · exact absurd through (not_through dir hdir)
    · exact ⟨same v hv, fun _ => hflag⟩

theorem stage_wp (here : w.tree = t) (apart : temporary ≠ name)
    (vacant : t.entry (dir ++ [temporary]) = none)
    (expected : good → t.entry dir = some .directory ∧ t.entry (dir ++ [name]) = none)
    (admits : ∀ u v, Wrote t u dir temporary name value → Wrote t v dir temporary name value →
      Admits runId good u v) :
    (do
      let written ← Prog.perform (S := SftpSig) (.write dir temporary value)
      Prog.ofExcept (Except.mapError .sftp written)
      let changed ← Prog.perform (S := SftpSig) (.chmod (dir ++ [temporary]))
      Prog.ofExcept (Except.mapError .sftp changed)
      putInPlace dir name temporary : SshProg Unit).wp (guarded runId good) (fun r v =>
        Wrote t v.tree dir temporary name value ∧
        Ends good (fun _ t' => t'.entry (dir ++ [name]) = some (.file value) ∧
          t.entry dir = some .directory ∧ t.entry (dir ++ [name]) ≠ some .directory) r v) w := by
  subst here
  have start : Wrote w.tree w.tree dir temporary name value := .refl vacant
  rw [Prog.wp_bind]
  apply perform_wp
  intro written v step
  rw [onResult_ok, Prog.wp_bind, Prog.wp_ofExcept]
  obtain ⟨⟨⟨hdir, hold⟩, rfl, hv⟩ | ⟨hcan, ⟨e, -, rfl⟩, hv⟩, -⟩ | ⟨⟨e, -, rfl⟩, hv, hflag⟩ := step
  · have hwrote : Wrote w.tree v.tree dir temporary name value := by
      rw [hv]
      exact .staged apart vacant hdir
    have staged : Staged w.tree v.tree dir temporary name value := by
      refine ⟨hwrote, hdir, ?_, ?_⟩
      · rw [hv]
        exact FileTree.put_here hdir hold
      · rw [hv]
        exact FileTree.put_other fun h => apart (List.append_singleton_inj.mp h).2.symm
    refine ⟨admits _ _ start hwrote, ?_⟩
    show Prog.wp _ (_ >>= _) _ v
    rw [Prog.wp_bind]
    apply perform_wp
    intro changed x step
    have hx : x.tree = v.tree := by
      obtain ⟨hchange, -⟩ | ⟨-, hbroken, -⟩ := step
      · exact hchange.either.elim id And.right
      · exact (either_of_broken hbroken).elim id And.right
    refine ⟨by rw [hx]; exact .refl, ?_⟩
    rw [onResult_ok, Prog.wp_bind, Prog.wp_ofExcept]
    obtain ⟨⟨-, rfl, -⟩ | ⟨hcan, -⟩, -⟩ | ⟨⟨e, -, rfl⟩, -, hflag⟩ := step
    · apply Prog.wp_mono _ (putInPlace_wp (by rw [hx]; exact staged) apart vacant
        (fun hgood => (expected hgood).2) admits)
      rintro r y ⟨hwrote, hends⟩
      refine ⟨hwrote, ?_⟩
      cases r with
      | ok a => exact ⟨hends.1, hdir, hends.2⟩
      | error e => exact hends
    · rw [staged.content] at hcan
      simp at hcan
    · refine ⟨by rw [hx]; exact hwrote, fun _ => hflag⟩
  · refine ⟨by rw [hv]; exact .refl, by rw [hv]; exact start, fun hgood => absurd ?_ hcan⟩
    exact ⟨(expected hgood).1, by rw [vacant]; simp⟩
  · have hwrote : Wrote w.tree v.tree dir temporary name value := by
      obtain hv | ⟨answer, hchange⟩ | ⟨part, hchange⟩ := hv
      · rw [hv]
        exact start
      · obtain hv | ⟨⟨hdir, -⟩, hv⟩ := hchange.either <;> rw [hv]
        · exact start
        · exact .staged apart vacant hdir
      · obtain hv | ⟨⟨hdir, -⟩, hv⟩ := hchange.either <;> rw [hv]
        · exact start
        · exact .staged apart vacant hdir
    exact ⟨admits _ _ start hwrote, hwrote, fun _ => hflag⟩

/-- **The file is there, and its temporary name perhaps.** -/
theorem sftpAtomicWrite_wp (here : w.tree = t)
    (expected : good → t.entry dir = some .directory ∧ t.entry (dir ++ [name]) = none)
    (admits : ∀ id u v, Wrote t u dir (temporaryName name id) name value →
      Wrote t v dir (temporaryName name id) name value → Admits runId good u v) :
    (sftpAtomicWrite dir name value).wp (guarded runId good) (Ends good fun _ t' =>
      t'.entry (dir ++ [name]) = some (.file value) ∧ t.entry dir = some .directory ∧
        t.entry (dir ++ [name]) ≠ some .directory ∧
        ∃ id, Wrote t t' dir (temporaryName name id) name value) w := by
  subst here
  unfold sftpAtomicWrite
  rw [Prog.wp_bind]
  apply perform_wp
  intro answer v step
  rw [onResult_ok, Prog.wp_bind, Prog.wp_ofExcept]
  obtain ⟨hact, -⟩ | ⟨⟨e, -, rfl⟩, hv, hflag⟩ := step
  · cases answer with
    | error e => exact hact.elim
    | ok id =>
      obtain ⟨fresh, hv⟩ := hact
      refine ⟨by rw [hv]; exact .refl, ?_⟩
      have apart := temporaryName_ne name id
      have vacant := fresh dir name
      show (Prog.finally_ _ _).wp _ _ v
      unfold Prog.finally_
      rw [Prog.wp_bind, Prog.wp_attempt]
      apply Prog.wp_mono _ (stage_wp hv apart vacant expected (admits id))
      rintro r x ⟨hwrote, hends⟩
      rw [onResult_ok, Prog.wp_bind]
      apply Prog.wp_mono _ (removeQuietly_wp hwrote apart vacant (admits id))
      rintro q y ⟨hwrote', hname, mono, hq⟩
      cases q with
      | error e => exact fun _ => hq
      | ok a =>
        rw [onResult_ok, Prog.wp_ofExcept]
        cases r with
        | ok a =>
          refine ⟨?_, hends.2.1, hends.2.2, id, hwrote'⟩
          rw [hname]
          exact hends.1
        | error e => exact fun hgood => mono (hends hgood)
  · have hv : v.tree = w.tree := by
      refine still_of_broken (o := .uuid4) (fun answer h => ?_) hv
      cases answer with
      | ok id => exact h.2
      | error e => exact h.elim
    exact ⟨by rw [hv]; exact .refl, fun _ => hflag⟩

end

/-! ## 3. Deletion -/

section

variable {runId : RunId} {body : Text} {good : Prop} {w : World} {t u v : RunBase} {leaf : Text}

/-- Only the names of the deletion marker are touched. -/
def Beside (runId : RunId) (t u : RunBase) : Prop :=
  ∀ leaf, ¬ MarkerLeaf runId leaf → SameBelow t u leaf

theorem Wrote.beside {id : RunId} {value : Bytes}
    (h : Wrote t u [] (temporaryName (deletionMarkerLeaf runId) id) (deletionMarkerLeaf runId)
      value) :
    Beside runId t u := by
  intro leaf hleaf rest
  apply h.other
  · intro hpath
    exact hleaf (.inr ⟨id, (List.cons.inj hpath).1⟩)
  · intro hpath
    exact hleaf (.inl (List.cons.inj hpath).1)

theorem ours_marker {last : Text} {id : RunId}
    (h : last = temporaryName (deletionMarkerLeaf runId) id ∨ last = deletionMarkerLeaf runId)
    {rest : Path} (hpath : leaf :: rest = [] ++ [last]) : Ours runId leaf := by
  obtain rfl : leaf = last := (List.cons.inj hpath).1
  obtain rfl | rfl := h
  · exact .inr (.inr (.inr (.inr ⟨id, rfl⟩)))
  · exact .inr (.inr (.inr (.inl rfl)))

/-- The deletion marker is written while there is no quarantine. -/
theorem writeDeletionMarker_wp (here : w.tree = t)
    (vacant : t.entry [deletionMarkerLeaf runId] = none)
    (absent : good → t.entry [quarantineLeaf runId] = none) :
    (writeDeletionMarker runId).wp (guarded runId good) (Ends good fun _ t' =>
      Beside runId t t' ∧ t'.entry [deletionMarkerLeaf runId] = some (.file (markerContent runId)))
      w := by
  unfold writeDeletionMarker
  apply Ends.seq (leafExists_wp here)
  rintro there v₁ ⟨h₁, hthere⟩
  split
  · rename_i h
    exact absurd vacant (hthere.mp h)
  refine Ends.seq (sftpAtomicWrite_wp h₁ (fun _ => ⟨t.root, vacant⟩) ?_) ?_
  rotate_left
  · rintro - v₂ ⟨hvalue, -, -, id, hwrote⟩
    have named : DeletionMarked runId v₂.tree := ⟨_, hvalue, says_markerContent runId⟩
    apply Ends.mono _ (assertDeletionMarker_wp rfl fun _ => named)
    rintro - t' ⟨rfl, -⟩
    exact ⟨hwrote.beside, hvalue⟩
  · intro id u v hu hv
    refine ⟨hu.lawful hv fun last h leaf rest hpath => ours_marker h hpath, ?_⟩
    intro hgood intact
    have same : ∀ leaf, ¬ MarkerLeaf runId leaf → SameBelow u v leaf := fun leaf hleaf rest =>
      (hv.beside leaf hleaf rest).trans (hu.beside leaf hleaf rest).symm
    have hroot := same _ (root_not_markerLeaf runId)
    have hcreating := same _ (creating_not_markerLeaf runId)
    have hquarantine := same _ (quarantine_not_markerLeaf runId)
    apply intact.congr
    · intro present
      rw [hroot []] at present
      rw [hcreating [], hquarantine []]
      exact ⟨hroot, (intact.root present).2⟩
    · intro present
      rw [hcreating []] at present
      rw [hquarantine []]
      obtain ⟨hmarked | hpristine, hnone⟩ := intact.creating present
      · exact ⟨.inl (hmarked.congr hcreating), hnone⟩
      · exact ⟨.inr (hpristine.congr hcreating), hnone⟩
    · intro present
      rw [hv.beside _ (quarantine_not_markerLeaf runId) []] at present
      exact absurd (absent hgood) present
    · obtain h | ⟨h, -⟩ := hv.name
      · exact .inr (.inl (h.trans vacant))
      · exact .inr (.inr h)

/-- What removes the quarantine, with its marker beside it. -/
theorem admits_quarantine (marked : DeletionMarked runId t)
    (h : FileTree.Pruned t u [quarantineLeaf runId]) : Admits runId good t u where
  lawful := lawful_pruned (.inr (.inr (.inl rfl))) (fun _ => .inr (.inr ⟨rfl, marked⟩)) h
  intact hgood intact := by
    have hroot := sameBelow_pruned h (root_ne_quarantine runId)
    have hcreating := sameBelow_pruned h (creating_ne_quarantine runId)
    have hmarker : SameBelow t u (deletionMarkerLeaf runId) := sameBelow_pruned h fun heq =>
      quarantine_not_markerLeaf runId (.inl heq.symm)
    have hquarantine := h [quarantineLeaf runId]
    have gone : t.entry [quarantineLeaf runId] = none → u.entry [quarantineLeaf runId] = none := by
      intro hnone
      obtain h | ⟨-, h⟩ := hquarantine
      · rw [h, hnone]
      · exact h
    apply intact.congr
    · intro present
      rw [hroot []] at present
      obtain ⟨-, hc, hq⟩ := intact.root present
      exact ⟨hroot, (hcreating []).trans hc, gone hq⟩
    · intro present
      rw [hcreating []] at present
      obtain ⟨hmarked | hpristine, hq⟩ := intact.creating present
      · exact ⟨.inl (hmarked.congr hcreating), gone hq⟩
      · exact ⟨.inr (hpristine.congr hcreating), gone hq⟩
    · intro present
      obtain h | ⟨-, h⟩ := hquarantine
      · rw [h] at present ⊢
        rw [hmarker []]
        exact intact.quarantine present
      · exact absurd h present
    · exact .inl (hmarker [])

theorem removeMarkedTree_wp (here : w.tree = t) (marked : DeletionMarked runId t)
    (expected : good → t.entry [quarantineLeaf runId] = some .directory ∧
      t.entry [deletionMarkerLeaf runId] = some (.file (markerContent runId))) :
    (removeMarkedTree runId).wp (guarded runId good)
      (Ends good fun _ t' => t' = t.prune [quarantineLeaf runId]) w := by
  unfold removeMarkedTree
  apply Ends.seq (assertDeletionMarker_wp here fun _ => marked)
  rintro - v₁ ⟨h₁, -⟩
  apply Ends.seq (R := fun _ t' => t' = t.prune [quarantineLeaf runId])
  · unfold shellAll
    apply Ends.seq
    · exact look_wp h₁ (by simp) rfl fun hgood => (expected hgood).1
    rintro - v₂ ⟨h₂, -⟩
    unfold shellAll
    apply Ends.seq
    · exact look_wp h₂ (by simp) rfl fun hgood =>
        ⟨_, (expected hgood).2, shellText_marker runId⟩
    rintro - v₃ ⟨h₃, -⟩
    unfold shellAll
    apply Ends.seq (R := fun _ t' => t' = t.prune [quarantineLeaf runId])
    · exact removeTree_wp h₃ (by simp) (fun t' => admits_quarantine marked) rfl
    rintro - v₄ h₄
    unfold shellAll
    apply Ends.seq
    · exact look_wp h₄ (by simp) rfl fun hgood =>
        FileTree.prune_below (by simp) (List.prefix_refl _)
    rintro - v₅ ⟨h₅, -⟩
    exact h₅
  rintro - v₆ h₆
  apply Ends.seq (leafExists_wp h₆)
  rintro there v₇ ⟨h₇, hthere⟩
  apply require_wp h₇
  · exact fun _ => rfl
  · intro _
    cases there with
    | false => rfl
    | true => exact absurd (FileTree.prune_below (by simp) (List.prefix_refl _)) (hthere.mp rfl)

/-- Where a deletion takes its directory from: the one at its name, or under construction, which is
    the only one and carries the marker; or what is set aside already. -/
def From (runId : RunId) (t : RunBase) : Option Text → Prop
  | some leaf => (leaf = runId.1 ∨ leaf = creatingLeaf runId) ∧ Marked runId t leaf ∧
      t.entry [quarantineLeaf runId] = none ∧
      ∀ other, other = runId.1 ∨ other = creatingLeaf runId → other ≠ leaf → t.entry [other] = none
  | none => t.entry [runId.1] = none ∧ t.entry [creatingLeaf runId] = none ∧
      t.entry [quarantineLeaf runId] = some .directory

theorem From.congr {source : Option Text} (h : From runId t source) (same : Beside runId t u) :
    From runId u source := by
  have hroot := same _ (root_not_markerLeaf runId)
  have hcreating := same _ (creating_not_markerLeaf runId)
  have hquarantine := same _ (quarantine_not_markerLeaf runId)
  cases source with
  | none =>
    obtain ⟨h₁, h₂, h₃⟩ := h
    exact ⟨(hroot []).trans h₁, (hcreating []).trans h₂, (hquarantine []).trans h₃⟩
  | some leaf =>
    obtain ⟨hleaf, hmarked, hvacant, alone⟩ := h
    have hsame : ∀ other, other = runId.1 ∨ other = creatingLeaf runId → SameBelow t u other := by
      rintro other (rfl | rfl)
      · exact hroot
      · exact hcreating
    refine ⟨hleaf, hmarked.congr (hsame leaf hleaf), (hquarantine []).trans hvacant, ?_⟩
    intro other hother hne
    exact (hsame other hother []).trans (alone other hother hne)

theorem markDeletion_wp {deletionStarted : Bool} (here : w.tree = t)
    (started : deletionStarted = true → DeletionMarked runId t)
    (begins : deletionStarted = false → t.entry [deletionMarkerLeaf runId] = none)
    (intact : good → Intact runId t) :
    (markDeletion runId deletionStarted).wp (guarded runId good) (Ends good fun _ t' =>
      Beside runId t t' ∧ DeletionMarked runId t' ∧
        (good → t'.entry [deletionMarkerLeaf runId] = some (.file (markerContent runId)))) w := by
  unfold markDeletion
  split
  · rename_i h
    obtain ⟨content, hcontent, named⟩ := started h
    rw [Prog.wp_pure]
    show _ ∧ _ ∧ _
    rw [here]
    refine ⟨fun _ _ _ => rfl, ⟨content, hcontent, named⟩, fun hgood => ?_⟩
    exact (intact hgood).marker (by rw [hcontent]; simp)
  · rename_i h
    have vacant := begins (Bool.eq_false_iff.mpr h)
    apply Ends.mono _ (writeDeletionMarker_wp here vacant fun hgood => ?_)
    · rintro - t' ⟨hbeside, hmarker⟩
      exact ⟨hbeside, ⟨_, hmarker, says_markerContent runId⟩, fun _ => hmarker⟩
    · by_contra present
      exact ((intact hgood).quarantine present).2 vacant

theorem ours_source (h : leaf = runId.1 ∨ leaf = creatingLeaf runId) : Ours runId leaf := by
  obtain h | h := h
  · exact .inl h
  · exact .inr (.inl h)

theorem setAside_wp {source : Option Text} (here : w.tree = t) (h : From runId t source)
    (marked : DeletionMarked runId t) :
    (setAside runId source).wp (guarded runId good) (Ends good fun _ t' =>
      t'.entry [runId.1] = none ∧ t'.entry [creatingLeaf runId] = none ∧
      t'.entry [quarantineLeaf runId] = some .directory ∧
      SameBelow t t' (deletionMarkerLeaf runId)) w := by
  cases source with
  | none =>
    obtain ⟨h₁, h₂, h₃⟩ := h
    unfold setAside
    rw [Prog.wp_pure]
    show _ ∧ _ ∧ _ ∧ _
    rw [here]
    exact ⟨h₁, h₂, h₃, fun _ => rfl⟩
  | some leaf =>
    obtain ⟨hleaf, hmarked, hvacant, alone⟩ := h
    have hne : leaf ≠ quarantineLeaf runId := by
      obtain rfl | rfl := hleaf
      · exact root_ne_quarantine runId
      · exact creating_ne_quarantine runId
    have apart : ¬ [leaf] <+: [] ++ [quarantineLeaf runId] := fun hpre => hne (below_leaf hpre).symm
    have movable : FileTree.Movable t [leaf] [] (quarantineLeaf runId) :=
      ⟨t.root, hvacant, by simp, apart⟩
    have gone : ∀ other, other = runId.1 ∨ other = creatingLeaf runId →
        (t.move [leaf] [] (quarantineLeaf runId)).entry [other] = none := by
      intro other hother
      have hq : other ≠ quarantineLeaf runId := by
        obtain rfl | rfl := hother
        · exact root_ne_quarantine runId
        · exact creating_ne_quarantine runId
      by_cases heq : other = leaf
      · rw [heq]
        exact FileTree.move_gone movable (List.prefix_refl _) fun hpre =>
          hne (below_leaf hpre)
      · rw [sameBelow_move heq hq []]
        exact alone other hother heq
    have hquarantine : (t.move [leaf] [] (quarantineLeaf runId)).entry [quarantineLeaf runId] =
        some .directory := (FileTree.move_here movable).trans hmarked.directory
    have hmarker : SameBelow t (t.move [leaf] [] (quarantineLeaf runId))
        (deletionMarkerLeaf runId) := by
      apply sameBelow_move
      · rintro rfl
        obtain h | h := hleaf
        · exact root_not_markerLeaf runId (.inl h.symm)
        · exact creating_not_markerLeaf runId (.inl h.symm)
      · exact fun h => quarantine_not_markerLeaf runId (.inl h.symm)
    obtain ⟨content, hcontent, -⟩ := marked
    unfold setAside
    apply orElse_wp
    apply rename_wp here
    · exact fun _ => ⟨by rw [hmarked.directory]; simp, movable⟩
    · intro _
      refine ⟨lawful_move (ours_source hleaf) (.inr (.inr (.inl rfl))) (.inl ⟨hleaf, hmarked⟩)
        movable, fun _ intact => intact.congr ?_ ?_ ?_ (.inl (hmarker []))⟩
      · exact fun present => absurd (gone _ (.inl rfl)) present
      · exact fun present => absurd (gone _ (.inr rfl)) present
      · refine fun _ => ⟨hquarantine, ?_⟩
        rw [hmarker [], hcontent]
        simp
    · exact fun _ => ⟨gone _ (.inl rfl), gone _ (.inr rfl), hquarantine, hmarker⟩

/-- The deletion marker goes when there is no quarantine. -/
theorem admits_unmark {content : Bytes}
    (hmarker : t.entry [deletionMarkerLeaf runId] = some (.file content))
    (absent : good → t.entry [quarantineLeaf runId] = none) :
    Admits runId good t (t.prune [deletionMarkerLeaf runId]) where
  lawful := by
    refine lawful_prune (.inr (.inr (.inr (.inl rfl)))) fun h => ?_
    rw [hmarker] at h
    cases h
  intact hgood intact := by
    have hroot : SameBelow t (t.prune [deletionMarkerLeaf runId]) runId.1 :=
      sameBelow_prune fun h => root_not_markerLeaf runId (.inl h)
    have hcreating : SameBelow t (t.prune [deletionMarkerLeaf runId]) (creatingLeaf runId) :=
      sameBelow_prune fun h => creating_not_markerLeaf runId (.inl h)
    have hquarantine : SameBelow t (t.prune [deletionMarkerLeaf runId]) (quarantineLeaf runId) :=
      sameBelow_prune fun h => quarantine_not_markerLeaf runId (.inl h)
    apply intact.congr
    · intro present
      rw [hroot []] at present
      rw [hcreating [], hquarantine []]
      exact ⟨hroot, (intact.root present).2⟩
    · intro present
      rw [hcreating []] at present
      rw [hquarantine []]
      obtain ⟨hmarked | hpristine, hnone⟩ := intact.creating present
      · exact ⟨.inl (hmarked.congr hcreating), hnone⟩
      · exact ⟨.inr (hpristine.congr hcreating), hnone⟩
    · intro present
      rw [hquarantine []] at present
      exact absurd (absent hgood) present
    · exact .inr (.inl (FileTree.prune_below (by simp) (List.prefix_refl _)))

theorem unmark_wp (here : w.tree = t) {content : Bytes}
    (hmarker : t.entry [deletionMarkerLeaf runId] = some (.file content))
    (absent : good → t.entry [quarantineLeaf runId] = none) :
    (remove [deletionMarkerLeaf runId]).wp (guarded runId good)
      (Ends good fun _ t' => t' = t.prune [deletionMarkerLeaf runId]) w := by
  apply remove_wp here
  · exact fun _ => ⟨by simp, _, hmarker, by simp⟩
  · exact fun _ => admits_unmark hmarker absent
  · exact fun _ => rfl

/-- **A deletion of what is the Run's leaves nothing.** -/
theorem deleteOwned_wp {deletionStarted : Bool} {source : Option Text} (here : w.tree = t)
    (h : From runId t source) (started : deletionStarted = true → DeletionMarked runId t)
    (begins : deletionStarted = false → t.entry [deletionMarkerLeaf runId] = none)
    (intact : good → Intact runId t) :
    (deleteOwned runId deletionStarted source).wp (guarded runId good)
      (Ends good fun _ t' => Clean runId t') w := by
  unfold deleteOwned
  apply Ends.seq (markDeletion_wp here started begins intact)
  rintro - v₁ ⟨hbeside, marked, hexact⟩
  apply Ends.seq
  · exact look_wp (t := v₁.tree) rfl (by simp) rfl fun _ => trivial
  rintro - v₂ ⟨h₂, -⟩
  apply Ends.seq (setAside_wp h₂ (h.congr hbeside) marked)
  rintro - v₃ ⟨hroot, hcreating, hquarantine, hmarker⟩
  obtain ⟨content, hcontent, named⟩ := marked
  have hcontent₃ := (hmarker []).trans hcontent
  apply Ends.seq (assertContainer_wp rfl fun _ => hquarantine)
  rintro - v₄ ⟨h₄, -⟩
  apply Ends.seq (removeMarkedTree_wp h₄ ⟨content, hcontent₃, named⟩ fun hgood =>
    ⟨hquarantine, (hmarker []).trans (hexact hgood)⟩)
  rintro - v₅ h₅
  have hother : ∀ leaf, leaf ≠ quarantineLeaf runId →
      v₅.tree.entry [leaf] = v₃.tree.entry [leaf] := by
    intro leaf hleaf
    rw [h₅]
    exact sameBelow_prune hleaf []
  have hgone : v₅.tree.entry [quarantineLeaf runId] = none := by
    rw [h₅]
    exact FileTree.prune_below (by simp) (List.prefix_refl _)
  have hne : deletionMarkerLeaf runId ≠ quarantineLeaf runId := fun h =>
    quarantine_not_markerLeaf runId (.inl h.symm)
  apply Ends.mono _ (unmark_wp rfl ((hother _ hne).trans hcontent₃) fun _ => hgone)
  rintro - t' rfl
  have hsame : ∀ leaf, leaf ≠ deletionMarkerLeaf runId →
      (v₅.tree.prune [deletionMarkerLeaf runId]).entry [leaf] = v₅.tree.entry [leaf] :=
    fun leaf hleaf => sameBelow_prune hleaf []
  refine ⟨?_, ?_, ?_, FileTree.prune_below (by simp) (List.prefix_refl _)⟩
  · rw [hsame _ fun h => root_not_markerLeaf runId (.inl h), hother _ (root_ne_quarantine runId)]
    exact hroot
  · rw [hsame _ fun h => creating_not_markerLeaf runId (.inl h),
      hother _ (creating_ne_quarantine runId)]
    exact hcreating
  · rw [hsame _ hne.symm]
    exact hgone

end

/-! ## 4. A directory under construction that has no marker -/

section

variable {runId : RunId} {body : Text} {good : Prop} {w : World} {t u v : RunBase}

/-- Only the directory under construction is touched. -/
def Within (runId : RunId) (t u : RunBase) : Prop :=
  ∀ leaf, leaf ≠ creatingLeaf runId → SameBelow t u leaf

theorem Within.trans (h : Within runId t u) (h' : Within runId u v) : Within runId t v :=
  fun leaf hleaf rest => (h' leaf hleaf rest).trans (h leaf hleaf rest)

theorem within_prune {rest : Path} : Within runId t (t.prune (creatingLeaf runId :: rest)) :=
  fun _ hleaf => sameBelow_prune hleaf

theorem admits_pristine (h : Pristine runId t)
    (h' : u.entry [creatingLeaf runId] ≠ none → Pristine runId u) (within : Within runId t u) :
    Admits runId good t u where
  lawful := by
    refine ⟨fun leaf rest foreign => within leaf (fun heq => foreign (.inr (.inl heq))) rest, ?_⟩
    intro leaf rest here gone
    by_cases heq : leaf = creatingLeaf runId
    · exact .inr (.inl ⟨heq, h⟩)
    · rw [within leaf heq] at gone
      exact absurd here gone
  intact _ intact := by
    have hroot := within _ (root_ne_creating runId)
    have hquarantine := within _ (creating_ne_quarantine runId).symm
    have hmarker := within (deletionMarkerLeaf runId) fun heq =>
      creating_not_markerLeaf runId (.inl heq.symm)
    have hpresent : t.entry [creatingLeaf runId] ≠ none := by
      rw [h.directory]
      simp
    have hnone := (intact.creating hpresent).2
    apply intact.congr
    · intro present
      rw [hroot []] at present
      exact absurd (intact.root present).2.1 hpresent
    · exact fun present => ⟨.inr (h' present), (hquarantine []).trans hnone⟩
    · intro present
      rw [hquarantine []] at present
      exact absurd hnone present
    · exact .inl (hmarker [])

theorem shellAll_append (commands more : List ShellCommand) :
    shellAll (commands ++ more) = (do shellAll commands; shellAll more) := by
  induction commands with
  | nil => rfl
  | cons command commands ih =>
    show (do shell command; shellAll (commands ++ more)) = _
    rw [ih]
    exact (Prog.bind_assoc _ _ _).symm

/-- An empty directory under construction has no marker. -/
theorem Pristine.of_empty (hdir : t.entry [creatingLeaf runId] = some .directory)
    (empty : FileTree.Empty t [creatingLeaf runId]) : Pristine runId t where
  directory := hdir
  only name node hnode := by
    have := empty name
    rw [show [creatingLeaf runId] ++ [name] = [creatingLeaf runId, name] from rfl, hnode] at this
    cases this
  temporary name node hnode := by
    have := FileTree.none_of_none (empty metadataName) [name]
    rw [show [creatingLeaf runId] ++ [metadataName] ++ [name] =
      [creatingLeaf runId, metadataName, name] from rfl, hnode] at this
    cases this

theorem rmdir_creating_wp (here : w.tree = t) (pristine : Pristine runId t)
    (expected : good → FileTree.Empty t [creatingLeaf runId]) :
    (shell (.rmdir [creatingLeaf runId])).wp (guarded runId good) (Ends good fun _ t' =>
      t' = t.prune [creatingLeaf runId]) w := by
  have gone : (t.prune [creatingLeaf runId]).entry [creatingLeaf runId] = none :=
    FileTree.prune_below (by simp) (List.prefix_refl _)
  apply shell_wp here (by simp)
  · exact fun hgood => ⟨by simp, pristine.directory, expected hgood⟩
  · exact fun _ => admits_pristine pristine (fun present => absurd gone present) within_prune
  · exact fun _ => rfl

theorem stillThere_wp (here : w.tree = t) (gone : t.entry [creatingLeaf runId] = none) :
    (do
      let there ← sftpExists [creatingLeaf runId]
      require (!there) (.backend "Remote Run creation staging still exists") :
        SshProg Unit).wp (guarded runId good) (Ends good fun _ t' => t' = t) w := by
  apply Ends.seq (leafExists_wp here)
  rintro there v ⟨hv, hthere⟩
  apply require_wp hv
  · exact fun _ => rfl
  · intro _
    cases there with
    | false => rfl
    | true => exact absurd gone (hthere.mp rfl)

theorem removeBare_wp (here : w.tree = t) (hdir : t.entry [creatingLeaf runId] = some .directory)
    (empty : FileTree.Empty t [creatingLeaf runId]) :
    (removeBare runId).wp (guarded runId good) (Ends good fun _ t' =>
      t'.entry [creatingLeaf runId] = none ∧ Within runId t t') w := by
  have gone : (t.prune [creatingLeaf runId]).entry [creatingLeaf runId] = none :=
    FileTree.prune_below (by simp) (List.prefix_refl _)
  unfold removeBare
  apply Ends.seq (R := fun _ t' => t' = t.prune [creatingLeaf runId])
  · unfold shellAll
    apply Ends.seq
    · exact look_wp here (by simp) rfl fun _ => hdir
    rintro - v₁ ⟨h₁, -⟩
    unfold shellAll
    apply Ends.seq
    · exact look_wp h₁ (by simp) rfl fun _ =>
        ⟨hdir, fun name => iff_of_false (fun h => h (empty name)) List.not_mem_nil⟩
    rintro - v₂ ⟨h₂, -⟩
    unfold shellAll
    apply Ends.seq (rmdir_creating_wp h₂ (.of_empty hdir empty) fun _ => empty)
    exact fun _ _ h => h
  rintro - v h
  apply Ends.mono _ (stillThere_wp h gone)
  rintro - t' rfl
  exact ⟨gone, within_prune⟩

theorem markerTemporaries_wp {children : List (Text × Kind)} (here : w.tree = t)
    (expected : good → ∀ child ∈ children, isMarkerTemporary child.1 = true ∧ child.2 = .file) :
    (markerTemporaries children).wp (guarded runId good) (Ends good fun names t' =>
      t' = t ∧ names = children.map Prod.fst ∧
        ∀ child ∈ children, isMarkerTemporary child.1 = true ∧ child.2 = .file) w := by
  induction children with
  | nil => exact ⟨here, rfl, by simp⟩
  | cons child children ih =>
    obtain ⟨name, kind⟩ := child
    unfold markerTemporaries
    split
    · rename_i h
      intro hgood
      obtain ⟨hname, hkind⟩ := expected hgood (name, kind) List.mem_cons_self
      obtain h | h := h
      · exact absurd (h.symm.trans hname) Bool.false_ne_true
      · exact absurd hkind h
    · rename_i h
      apply Ends.seq (ih fun hgood child hchild =>
        expected hgood child (List.mem_cons_of_mem _ hchild))
      rintro names v ⟨hv, rfl, hall⟩
      refine ⟨hv, rfl, ?_⟩
      intro child hchild
      obtain rfl | hchild := List.mem_cons.mp hchild
      · simpa using h
      · exact hall child hchild

/-- The directory under construction has `.termroom` in it, with temporary files of the marker. -/
structure Skeleton (runId : RunId) (t : RunBase) : Prop extends Pristine runId t where
  metadata : t.entry [creatingLeaf runId, metadataName] = some .directory

theorem Pristine.prune {rest : Path} (h : Pristine runId t) (hrest : rest ≠ []) :
    Pristine runId (t.prune (creatingLeaf runId :: rest)) := by
  have keeps : ∀ path node, (t.prune (creatingLeaf runId :: rest)).entry path = some node →
      t.entry path = some node := by
    intro path node hnode
    by_cases below : creatingLeaf runId :: rest <+: path
    · rw [FileTree.prune_below (by simp) below] at hnode
      cases hnode
    · rwa [FileTree.prune_other below] at hnode
  refine ⟨?_, fun name node hnode => h.only name node (keeps _ _ hnode),
    fun name node hnode => h.temporary name node (keeps _ _ hnode)⟩
  rw [FileTree.prune_other]
  · exact h.directory
  · intro hpre
    exact hrest (List.prefix_nil.mp (List.cons_prefix_cons.mp hpre).2)

theorem Skeleton.prune {name : Text} (h : Skeleton runId t) :
    Skeleton runId (t.prune [creatingLeaf runId, metadataName, name]) where
  toPristine := h.toPristine.prune (by simp)
  metadata := by
    rw [FileTree.prune_other]
    · exact h.metadata
    · intro hpre
      have := hpre.length_le
      simp at this

theorem admits_prune {rest : Path} (h : Pristine runId t) (hrest : rest ≠ []) :
    Admits runId good t (t.prune (creatingLeaf runId :: rest)) :=
  admits_pristine h (fun _ => h.prune hrest) within_prune

/-- What is left of the names is less with each. -/
theorem removeTemporaries_wp {names : List Text} (here : w.tree = t) (skeleton : Skeleton runId t)
    (only : ∀ name, t.entry [creatingLeaf runId, metadataName, name] ≠ none → name ∈ names) :
    (shellAll (names.map fun name =>
      .removeFile [creatingLeaf runId, metadataName, name])).wp (guarded runId good)
      (Ends good fun _ t' => Skeleton runId t' ∧ Within runId t t' ∧
        FileTree.Empty t' [creatingLeaf runId, metadataName]) w := by
  induction names generalizing w t with
  | nil =>
    show _ ∧ _ ∧ _
    rw [here]
    refine ⟨skeleton, fun _ _ _ => rfl, fun name => ?_⟩
    by_contra present
    exact absurd (only name present) List.not_mem_nil
  | cons name names ih =>
    rw [List.map_cons]
    unfold shellAll
    have can : t.entry [creatingLeaf runId, metadataName, name] = none ∨
        ∃ content, t.entry [creatingLeaf runId, metadataName, name] = some (.file content) := by
      cases hnode : t.entry [creatingLeaf runId, metadataName, name] with
      | none => exact .inl rfl
      | some node =>
        obtain ⟨content, rfl⟩ := (skeleton.temporary name node hnode).2
        exact .inr ⟨content, rfl⟩
    apply Ends.seq (R := fun _ t' => t' = t.prune [creatingLeaf runId, metadataName, name])
    · exact shell_wp here (by simp) (fun _ => can)
        (fun _ => admits_prune skeleton.toPristine (by simp)) fun _ => rfl
    rintro - v hv
    apply Ends.mono _ (ih hv skeleton.prune ?_)
    · rintro - t' ⟨hskeleton, hwithin, hempty⟩
      exact ⟨hskeleton, within_prune.trans hwithin, hempty⟩
    · intro other present
      by_cases below : [creatingLeaf runId, metadataName, name] <+:
          [creatingLeaf runId, metadataName, other]
      · exact absurd (FileTree.prune_below (by simp) below) present
      · rw [FileTree.prune_other below] at present
        obtain rfl | hother := List.mem_cons.mp (only other present)
        · exact absurd (List.prefix_refl _) below
        · exact hother

/-- What the script looks at before it removes anything. -/
theorem lookSkeleton_wp (here : w.tree = t)
    (hdir : t.entry [creatingLeaf runId] = some .directory)
    (hmetadata : t.entry [creatingLeaf runId, metadataName] = some .directory)
    (only : ∀ name, t.entry [creatingLeaf runId, name] ≠ none ↔ name = metadataName) :
    (shellAll [.realDirectory [creatingLeaf runId],
      .realDirectory [creatingLeaf runId, metadataName],
      .listed [creatingLeaf runId] [metadataName]]).wp (guarded runId good)
      (Ends good fun _ t' => t' = t) w := by
  unfold shellAll
  apply Ends.seq
  · exact look_wp here (by simp) rfl fun _ => hdir
  rintro - v₁ ⟨h₁, -⟩
  unfold shellAll
  apply Ends.seq
  · exact look_wp h₁ (by simp) rfl fun _ => hmetadata
  rintro - v₂ ⟨h₂, -⟩
  unfold shellAll
  apply Ends.seq
  · exact look_wp h₂ (by simp) rfl fun _ =>
      ⟨hdir, fun name => (only name).trans List.mem_singleton.symm⟩
  rintro - v₃ ⟨h₃, -⟩
  exact h₃

/-- What it removes when no temporary file is left. -/
theorem takeDown_wp (here : w.tree = t) (skeleton : Skeleton runId t)
    (empty : FileTree.Empty t [creatingLeaf runId, metadataName]) :
    (shellAll [.listed [creatingLeaf runId, metadataName] [],
      .rmdir [creatingLeaf runId, metadataName], .rmdir [creatingLeaf runId]]).wp
      (guarded runId good)
      (Ends good fun _ t' => t'.entry [creatingLeaf runId] = none ∧ Within runId t t') w := by
  unfold shellAll
  apply Ends.seq
  · exact look_wp here (by simp) rfl fun _ => ⟨skeleton.metadata,
      fun name => iff_of_false (fun h => h (empty name)) List.not_mem_nil⟩
  rintro - v₁ ⟨h₁, -⟩
  unfold shellAll
  apply Ends.seq (R := fun _ t' => t' = t.prune [creatingLeaf runId, metadataName])
  · exact shell_wp h₁ (by simp) (fun _ => ⟨by simp, skeleton.metadata, empty⟩)
      (fun _ => admits_prune skeleton.toPristine (by simp)) fun _ => rfl
  rintro - v₂ h₂
  have pristine : Pristine runId (t.prune [creatingLeaf runId, metadataName]) :=
    skeleton.toPristine.prune (by simp)
  have bare : FileTree.Empty (t.prune [creatingLeaf runId, metadataName])
      [creatingLeaf runId] := by
    intro name
    by_contra present
    obtain ⟨node, hnode⟩ := Option.ne_none_iff_exists'.mp present
    obtain ⟨rfl, -⟩ := pristine.only name node hnode
    exact present (FileTree.prune_below (by simp) (List.prefix_refl _))
  unfold shellAll
  apply Ends.seq (rmdir_creating_wp h₂ pristine fun _ => bare)
  rintro - v₃ h₃
  show _ ∧ _
  rw [h₃]
  exact ⟨FileTree.prune_below (by simp) (List.prefix_refl _), within_prune.trans within_prune⟩

theorem removeSkeleton_wp (here : w.tree = t)
    (hdir : t.entry [creatingLeaf runId] = some .directory)
    (only : ∀ name, t.entry [creatingLeaf runId, name] ≠ none ↔ name = metadataName)
    (expected : good → Pristine runId t) :
    (removeSkeleton runId).wp (guarded runId good) (Ends good fun _ t' =>
      t'.entry [creatingLeaf runId] = none ∧ Within runId t t') w := by
  obtain ⟨node, hnode⟩ := Option.ne_none_iff_exists'.mp ((only metadataName).mpr rfl)
  unfold removeSkeleton
  apply Ends.seq (kind_wp here fun _ => ⟨node, hnode, not_through [creatingLeaf runId] hdir⟩)
  rintro kind v₁ ⟨h₁, hkind⟩
  apply Ends.seq (require_wp (R := fun _ t' => t' = t ∧
      t.entry [creatingLeaf runId, metadataName] = some .directory) h₁
    (fun h => ⟨rfl, directory_of_kind [creatingLeaf runId] hdir hkind (of_decide_eq_true h)⟩)
    fun hgood => by
      obtain ⟨-, rfl⟩ := (expected hgood).only metadataName node hnode
      exact decide_eq_true (kind_of_entry [creatingLeaf runId] hdir hnode hkind))
  rintro - v₂ ⟨h₂, hmetadata⟩
  apply Ends.seq (listdirAttr_wp h₂ fun _ => hmetadata)
  rintro children v₃ ⟨h₃, -, -, hchildren⟩
  apply Ends.seq (markerTemporaries_wp h₃ fun hgood child hchild => by
    obtain ⟨node, hnode, hkind⟩ := (hchildren child.1 child.2).mp hchild
    obtain ⟨hname, content, rfl⟩ := (expected hgood).temporary child.1 node hnode
    exact ⟨hname, hkind.symm⟩)
  rintro names v₄ ⟨h₄, rfl, hall⟩
  have skeleton : Skeleton runId t := by
    refine ⟨⟨hdir, ?_, ?_⟩, hmetadata⟩
    · intro name node hnode
      obtain rfl := (only name).mp (by rw [hnode]; simp)
      rw [hmetadata] at hnode
      exact ⟨rfl, (Option.some.inj hnode).symm⟩
    · intro name node hnode
      obtain ⟨htemporary, hkind⟩ := hall _ ((hchildren name (kindOf node)).mpr ⟨node, hnode, rfl⟩)
      exact ⟨htemporary, kindOf_file hkind⟩
  have listed : ∀ name, t.entry [creatingLeaf runId, metadataName, name] ≠ none →
      name ∈ children.map Prod.fst := by
    intro name present
    obtain ⟨node, hnode⟩ := Option.ne_none_iff_exists'.mp present
    exact List.mem_map.mpr ⟨_, (hchildren name (kindOf node)).mpr ⟨node, hnode, rfl⟩, rfl⟩
  apply Ends.seq (R := fun _ t' => t'.entry [creatingLeaf runId] = none ∧ Within runId t t')
  · rw [shellAll_append, shellAll_append]
    apply Ends.seq (R := fun _ t' => Skeleton runId t' ∧ Within runId t t' ∧
      FileTree.Empty t' [creatingLeaf runId, metadataName])
    · apply Ends.seq (lookSkeleton_wp h₄ hdir hmetadata only)
      rintro - v₅ h₅
      exact removeTemporaries_wp h₅ skeleton listed
    · rintro - v₅ ⟨hskeleton, hwithin, hempty⟩
      apply Ends.mono _ (takeDown_wp rfl hskeleton hempty)
      rintro - t' ⟨hgone, hrest⟩
      exact ⟨hgone, hwithin.trans hrest⟩
  rintro - v₅ ⟨hgone, hwithin⟩
  apply Ends.mono _ (stillThere_wp rfl hgone)
  rintro - t' rfl
  exact ⟨hgone, hwithin⟩

/-- **A creation that has no marker can be taken away**, and nothing else is. -/
theorem removePristineCreation_wp (here : w.tree = t) (expected : good → Pristine runId t) :
    (removePristineCreation runId).wp (guarded runId good) (Ends good fun _ t' =>
      t'.entry [creatingLeaf runId] = none ∧ Within runId t t') w := by
  unfold removePristineCreation
  apply Ends.seq (kind_wp here fun hgood => ⟨_, (expected hgood).directory, not_through_leaf⟩)
  rintro kind v₁ ⟨h₁, hkind⟩
  apply Ends.seq (require_wp (R := fun _ t' => t' = t ∧
      t.entry [creatingLeaf runId] = some .directory) h₁
    (fun h => ⟨rfl, directory_of_kind [] t.root hkind (of_decide_eq_true h)⟩)
    fun hgood => decide_eq_true (kind_of_entry [] t.root (expected hgood).directory hkind))
  rintro - v₂ ⟨h₂, hdir⟩
  apply Ends.seq (listdirAttr_wp h₂ fun _ => hdir)
  rintro entries v₃ ⟨h₃, -, nodup, hentries⟩
  have listed : ∀ name, t.entry [creatingLeaf runId, name] ≠ none ↔
      name ∈ entries.map Prod.fst := by
    intro name
    rw [Option.ne_none_iff_exists', List.mem_map]
    constructor
    · rintro ⟨node, hnode⟩
      exact ⟨_, (hentries name (kindOf node)).mpr ⟨node, hnode, rfl⟩, rfl⟩
    · rintro ⟨⟨_, kind⟩, hmem, rfl⟩
      obtain ⟨node, hnode, -⟩ := (hentries _ kind).mp hmem
      exact ⟨node, hnode⟩
  split
  · rename_i h
    subst h
    apply removeBare_wp h₃ hdir
    intro name
    by_contra present
    exact absurd ((listed name).mp present) List.not_mem_nil
  split
  · rename_i h
    rw [h] at listed
    exact removeSkeleton_wp h₃ hdir (fun name => (listed name).trans List.mem_singleton) expected
  · rename_i hne hother
    intro hgood
    exfalso
    have all : ∀ name ∈ entries.map Prod.fst, name = metadataName := by
      intro name hname
      obtain ⟨node, hnode⟩ := Option.ne_none_iff_exists'.mp ((listed name).mpr hname)
      exact ((expected hgood).only name node hnode).1
    have hone : (entries.map Prod.fst).length ≤ 1 := by
      rw [List.eq_replicate_of_mem all, List.nodup_replicate] at nodup
      exact nodup
    obtain ⟨entry, rest, rfl⟩ := List.exists_cons_of_ne_nil hne
    obtain rfl : rest = [] := by simpa using hone
    exact hother (congrArg (· :: []) (all entry.1 List.mem_cons_self))

end

/-! ## 5. The whole deletion -/

section

variable {runId : RunId} {body : Text} {good : Prop} {w : World} {t : RunBase}

theorem unmarked_wp {deletionStarted : Bool} (here : w.tree = t)
    (started : deletionStarted = true → DeletionMarked runId t)
    (begins : deletionStarted = false → t.entry [deletionMarkerLeaf runId] = none)
    (absent : good → t.entry [quarantineLeaf runId] = none) :
    (unmark runId deletionStarted).wp (guarded runId good) (Ends good fun _ t' =>
      t'.entry [deletionMarkerLeaf runId] = none ∧
        ∀ leaf, leaf ≠ deletionMarkerLeaf runId → SameBelow t t' leaf) w := by
  unfold unmark
  split
  · rename_i h
    obtain ⟨content, hcontent, -⟩ := started h
    apply Ends.mono _ (unmark_wp here hcontent absent)
    rintro - t' rfl
    exact ⟨FileTree.prune_below (by simp) (List.prefix_refl _), fun leaf => sameBelow_prune⟩
  · rename_i h
    show _ ∧ _
    rw [here]
    exact ⟨begins (Bool.eq_false_iff.mpr h), fun _ _ _ => rfl⟩

theorem deleteUnmarked_wp {deletionStarted : Bool} (here : w.tree = t)
    (started : deletionStarted = true → DeletionMarked runId t)
    (begins : deletionStarted = false → t.entry [deletionMarkerLeaf runId] = none)
    (root : t.entry [runId.1] = none) (quarantine : t.entry [quarantineLeaf runId] = none)
    (expected : good → Pristine runId t) :
    (deleteUnmarked runId deletionStarted).wp (guarded runId good)
      (Ends good fun _ t' => Clean runId t') w := by
  unfold deleteUnmarked
  apply Ends.seq (unmarked_wp here started begins fun _ => quarantine)
  rintro - v₁ ⟨hmarker, hsame⟩
  apply Ends.seq
  · exact look_wp (t := v₁.tree) rfl (by simp) rfl fun _ => trivial
  rintro - v₂ ⟨h₂, -⟩
  have hcreating := hsame (creatingLeaf runId) fun h => creating_not_markerLeaf runId (.inl h)
  apply Ends.mono _ (removePristineCreation_wp h₂ fun hgood => (expected hgood).congr hcreating)
  rintro - t' ⟨hgone, hwithin⟩
  refine ⟨?_, hgone, ?_, ?_⟩
  · rw [hwithin _ (root_ne_creating runId) [],
      hsame _ (fun h => root_not_markerLeaf runId (.inl h)) []]
    exact root
  · rw [hwithin _ (creating_ne_quarantine runId).symm [],
      hsame _ (fun h => quarantine_not_markerLeaf runId (.inl h)) []]
    exact quarantine
  · rw [hwithin _ (fun h => creating_not_markerLeaf runId (.inl h.symm)) []]
    exact hmarker

theorem Pristine.no_marker (h : Pristine runId t) :
    t.entry [creatingLeaf runId, metadataName, markerName] = none := by
  by_contra present
  obtain ⟨node, hnode⟩ := Option.ne_none_iff_exists'.mp present
  have := (h.temporary markerName node hnode).1
  rw [marker_not_temporary] at this
  cases this

/-- Where the calls have been, the marker is looked for in real directories. -/
theorem Intact.marker_path (h : Intact runId t)
    (present : t.entry [creatingLeaf runId] ≠ none) :
    ¬ Through t [creatingLeaf runId, metadataName, markerName] := by
  obtain ⟨hmarked | hpristine, -⟩ := h.creating present
  · exact not_through [creatingLeaf runId, metadataName] hmarked.metadata
  · refine not_through_next [creatingLeaf runId] hpristine.directory fun hlink => ?_
    cases (hpristine.only metadataName _ hlink).2

theorem deleteCreation_wp {deletionStarted : Bool} (here : w.tree = t)
    (started : deletionStarted = true → DeletionMarked runId t)
    (begins : deletionStarted = false → t.entry [deletionMarkerLeaf runId] = none)
    (root : t.entry [runId.1] = none) (creating : t.entry [creatingLeaf runId] ≠ none)
    (quarantine : t.entry [quarantineLeaf runId] = none) (intact : good → Intact runId t) :
    (deleteCreation runId deletionStarted).wp (guarded runId good)
      (Ends good fun _ t' => Clean runId t') w := by
  unfold deleteCreation
  apply Ends.seq (sftpExists_wp here fun hgood => (intact hgood).marker_path creating)
  rintro marked v₁ ⟨h₁, hmarked⟩
  have known : good → (marked = true ↔
      t.entry [creatingLeaf runId, metadataName, markerName] ≠ none) := fun hgood =>
    hmarked.resolve_left ((intact hgood).marker_path creating)
  split
  · rename_i h
    apply Ends.seq (assertTree_wp h₁ _)
    · rintro - v₂ ⟨h₂, htree⟩
      apply deleteOwned_wp h₂ _ started begins intact
      refine ⟨.inr rfl, htree, quarantine, ?_⟩
      rintro other (rfl | rfl) hne
      · exact root
      · exact absurd rfl hne
    · intro hgood
      obtain ⟨htree | hpristine, -⟩ := (intact hgood).creating creating
      · exact htree
      · exact absurd hpristine.no_marker ((known hgood).mp h)
  · rename_i h
    apply deleteUnmarked_wp h₁ started begins root quarantine
    intro hgood
    obtain ⟨htree | hpristine, -⟩ := (intact hgood).creating creating
    · obtain ⟨content, hcontent, -⟩ := htree.marker
      exact absurd ((known hgood).mpr (by rw [hcontent]; simp)) h
    · exact hpristine

/-- At most one of the three names is taken. -/
theorem Intact.alone (h : Intact runId t) {original creating quarantine : Bool}
    (horiginal : original = true ↔ t.entry [runId.1] ≠ none)
    (hcreating : creating = true ↔ t.entry [creatingLeaf runId] ≠ none)
    (hquarantine : quarantine = true ↔ t.entry [quarantineLeaf runId] ≠ none) :
    original.toNat + creating.toNat + quarantine.toNat ≤ 1 := by
  have hroot : original = true → creating = false ∧ quarantine = false := by
    intro hr
    obtain ⟨-, hc, hq⟩ := h.root (horiginal.mp hr)
    exact ⟨Bool.eq_false_iff.mpr fun h => hcreating.mp h hc,
      Bool.eq_false_iff.mpr fun h => hquarantine.mp h hq⟩
  have hstaging : creating = true → quarantine = false := by
    intro hc
    exact Bool.eq_false_iff.mpr fun h' => hquarantine.mp h' (h.creating (hcreating.mp hc)).2
  cases original with
  | true =>
    obtain ⟨rfl, rfl⟩ := hroot rfl
    decide
  | false =>
    cases creating with
    | true =>
      obtain rfl := hstaging rfl
      decide
    | false => cases quarantine <;> decide

theorem assertStarted_wp {deletionStarted : Bool} (here : w.tree = t)
    (hstarted : deletionStarted = true ↔ t.entry [deletionMarkerLeaf runId] ≠ none)
    (intact : good → Intact runId t) :
    (assertStarted runId deletionStarted).wp (guarded runId good) (Ends good fun _ t' =>
      t' = t ∧ (deletionStarted = true → DeletionMarked runId t)) w := by
  unfold assertStarted
  split
  · rename_i h
    apply Ends.mono _ (assertDeletionMarker_wp here fun hgood =>
      ⟨_, (intact hgood).marker (hstarted.mp h), says_markerContent runId⟩)
    exact fun _ t' ht' => ⟨ht'.1, fun _ => ht'.2⟩
  · rename_i h
    exact ⟨here, fun h' => absurd h' h⟩

theorem assertSetAside_wp {deletionStarted : Bool} (here : w.tree = t)
    (hstarted : deletionStarted = true ↔ t.entry [deletionMarkerLeaf runId] ≠ none)
    (present : t.entry [quarantineLeaf runId] ≠ none) (intact : good → Intact runId t) :
    (assertSetAside runId deletionStarted).wp (guarded runId good) (Ends good fun _ t' =>
      t' = t ∧ t.entry [quarantineLeaf runId] = some .directory) w := by
  have expected : good → t.entry [quarantineLeaf runId] = some .directory := fun hgood =>
    ((intact hgood).quarantine present).1
  unfold assertSetAside
  split
  · exact assertContainer_wp here expected
  · rename_i h
    unfold assertQuarantined
    apply Ends.seq (assertContainer_wp here expected)
    rintro - v ⟨hv, hdir⟩
    apply Ends.mono _ (assertTree_wp hv _)
    · exact fun _ t' ht' => ⟨ht'.1, hdir⟩
    · exact fun hgood => absurd (hstarted.mpr ((intact hgood).quarantine present).2) h

theorem deleteFound_wp {originalExists creatingExists quarantineExists deletionStarted : Bool}
    (here : w.tree = t) (horiginal : originalExists = true ↔ t.entry [runId.1] ≠ none)
    (hcreating : creatingExists = true ↔ t.entry [creatingLeaf runId] ≠ none)
    (hquarantine : quarantineExists = true ↔ t.entry [quarantineLeaf runId] ≠ none)
    (hstarted : deletionStarted = true ↔ t.entry [deletionMarkerLeaf runId] ≠ none)
    (alone : originalExists.toNat + creatingExists.toNat + quarantineExists.toNat ≤ 1)
    (started : deletionStarted = true → DeletionMarked runId t)
    (intact : good → Intact runId t) :
    (deleteFound runId originalExists creatingExists quarantineExists deletionStarted).wp
      (guarded runId good) (Ends good fun _ t' => Clean runId t') w := by
  have none_of : ∀ {b : Bool} {leaf : Text}, (b = true ↔ t.entry [leaf] ≠ none) → b = false →
      t.entry [leaf] = none := by
    intro b leaf h hb
    by_contra present
    rw [h.mpr present] at hb
    cases hb
  have begins := none_of hstarted
  unfold deleteFound
  split
  · rename_i h
    obtain rfl : creatingExists = false := by
      cases creatingExists
      · rfl
      · simp [h] at alone
        omega
    obtain rfl : quarantineExists = false := by
      cases quarantineExists
      · rfl
      · simp [h] at alone
    apply Ends.seq (assertTree_wp here fun hgood =>
      ((intact hgood).root (horiginal.mp h)).1.elim fun _ h => h.2.toMarked)
    rintro - v₁ ⟨h₁, htree⟩
    apply Ends.seq (deleteOwned_wp h₁ _ started begins intact)
    · exact fun _ _ hclean => hclean
    refine ⟨.inl rfl, htree, none_of hquarantine rfl, ?_⟩
    rintro other (rfl | rfl) hne
    · exact absurd rfl hne
    · exact none_of hcreating rfl
  rename_i horiginal'
  have root := none_of horiginal (Bool.eq_false_iff.mpr horiginal')
  split
  · rename_i h
    obtain rfl : quarantineExists = false := by
      cases quarantineExists
      · rfl
      · simp [h] at alone
    apply Ends.seq (deleteCreation_wp here started begins root (hcreating.mp h)
      (none_of hquarantine rfl) intact)
    exact fun _ _ hclean => hclean
  rename_i hcreating'
  have creating := none_of hcreating (Bool.eq_false_iff.mpr hcreating')
  split
  · rename_i h
    apply Ends.seq (assertSetAside_wp here hstarted (hquarantine.mp h) intact)
    rintro - v₁ ⟨h₁, hdir⟩
    apply Ends.seq (deleteOwned_wp h₁ _ started begins intact)
    · exact fun _ _ hclean => hclean
    · exact ⟨root, creating, hdir⟩
  · rename_i h
    have quarantine := none_of hquarantine (Bool.eq_false_iff.mpr h)
    unfold deleteMissing
    apply Ends.seq (R := fun _ t' => Clean runId t')
    · apply Ends.seq
      · exact look_wp here (by simp) rfl fun _ => trivial
      rintro - v₁ ⟨h₁, -⟩
      apply Ends.mono _ (unmarked_wp h₁ started begins fun _ => quarantine)
      rintro - t' ⟨hmarker, hsame⟩
      refine ⟨?_, ?_, ?_, hmarker⟩
      · rw [hsame _ (fun h => root_not_markerLeaf runId (.inl h)) []]
        exact root
      · rw [hsame _ (fun h => creating_not_markerLeaf runId (.inl h)) []]
        exact creating
      · rw [hsame _ (fun h => quarantine_not_markerLeaf runId (.inl h)) []]
        exact quarantine
    · exact fun _ _ hclean => hclean

/-- **A deletion that ends leaves nothing of the Run**, whatever it found; where the calls have
    been, it ends, unless an operation breaks. -/
theorem deleteRunRoot_wp (here : w.tree = t) (intact : good → Intact runId t) :
    (deleteRunRoot runId).wp (guarded runId good)
      (Ends good fun _ t' => Clean runId t') w := by
  unfold deleteRunRoot
  apply Ends.seq (leafExists_wp here)
  rintro originalExists v₁ ⟨h₁, horiginal⟩
  apply Ends.seq (leafExists_wp h₁)
  rintro creatingExists v₂ ⟨h₂, hcreating⟩
  apply Ends.seq (leafExists_wp h₂)
  rintro quarantineExists v₃ ⟨h₃, hquarantine⟩
  apply Ends.seq (leafExists_wp h₃)
  rintro deletionStarted v₄ ⟨h₄, hstarted⟩
  apply Ends.seq (require_wp (R := fun _ t' => t' = t ∧
      originalExists.toNat + creatingExists.toNat + quarantineExists.toNat ≤ 1) h₄
    (fun h => ⟨rfl, of_decide_eq_true h⟩)
    fun hgood => decide_eq_true ((intact hgood).alone horiginal hcreating hquarantine))
  rintro - v₅ ⟨h₅, alone⟩
  apply Ends.seq (assertStarted_wp h₅ hstarted intact)
  rintro - v₆ ⟨h₆, started⟩
  exact deleteFound_wp h₆ horiginal hcreating hquarantine hstarted alone started intact

end

/-! ## 6. Creation -/

section

variable {runId : RunId} {body : Text} {good : Prop} {w : World} {t u v : RunBase}

/-- Programs leave what the calls leave, and a broken operation is not forgotten. -/
theorem kept_wp {α : Type} {p : SshProg α} {Q : Except SshError α → World → Prop}
    (h : p.wp (guarded runId good) Q w) (intact : good → Intact runId w.tree) :
    p.wp (guarded runId good) (fun r v => Q r v ∧ (good → Intact runId v.tree)) w := by
  apply wp_keeps _ _ h intact
  · rintro u v rfl hu
    exact hu
  · exact fun o answer u v hu _ admits hgood => admits.intact hgood (hu hgood)

theorem faulty_wp {α : Type} {p : SshProg α} {Q : Except SshError α → World → Prop} {broke : Prop}
    (h : p.wp (guarded runId good) Q w) (hw : broke → w.faulty = true) :
    p.wp (guarded runId good) (fun r v => Q r v ∧ (broke → v.faulty = true)) w := by
  apply wp_keeps _ _ h hw
  · rintro u v rfl hu
    exact hu
  · rintro o answer u v hu (⟨-, hflag⟩ | ⟨-, -, hflag⟩) - hbroke
    · exact hflag.trans (hu hbroke)
    · exact hflag

theorem discardCreation_wp (here : w.tree = t) (intact : good → Intact runId t) :
    (discardCreation runId).wp (guarded runId good) (Ends good fun _ t' =>
      t'.entry [creatingLeaf runId] = none ∧ (Clean runId t' ∨ Within runId t t')) w := by
  unfold discardCreation
  apply Ends.seq (leafExists_wp here)
  rintro there v₁ ⟨h₁, hthere⟩
  split
  · rename_i h
    have present := hthere.mp h
    apply Ends.seq (sftpExists_wp h₁ fun hgood => (intact hgood).marker_path present)
    rintro marked v₂ ⟨h₂, hmarked⟩
    have known : good → (marked = true ↔
        t.entry [creatingLeaf runId, metadataName, markerName] ≠ none) := fun hgood =>
      hmarked.resolve_left ((intact hgood).marker_path present)
    split
    · rename_i hm
      apply Ends.seq (assertTree_wp h₂ _)
      · rintro - v₃ ⟨h₃, -⟩
        apply Ends.seq (deleteRunRoot_wp h₃ intact)
        exact fun _ _ hclean => ⟨hclean.creating, .inl hclean⟩
      · intro hgood
        obtain ⟨htree | hpristine, -⟩ := (intact hgood).creating present
        · exact htree
        · exact absurd hpristine.no_marker ((known hgood).mp hm)
    · rename_i hm
      apply Ends.mono _ (removePristineCreation_wp h₂ fun hgood => ?_)
      · exact fun _ t' ht' => ⟨ht'.1, .inr ht'.2⟩
      · obtain ⟨htree | hpristine, -⟩ := (intact hgood).creating present
        · obtain ⟨content, hcontent, -⟩ := htree.marker
          exact absurd ((known hgood).mpr (by rw [hcontent]; simp)) hm
        · exact hpristine
  · rename_i h
    show _ ∧ _
    rw [h₁]
    refine ⟨?_, .inr fun _ _ _ => rfl⟩
    by_contra present
    exact h (hthere.mpr present)

/-- The directory under construction, and what has been written in it. -/
structure Building (runId : RunId) (files : List (Text × Bytes)) (t : RunBase) : Prop where
  root : t.entry [runId.1] = none
  quarantine : t.entry [quarantineLeaf runId] = none
  directory : t.entry [creatingLeaf runId] = some .directory
  metadata : t.entry [creatingLeaf runId, metadataName] = some .directory
  written : ∀ file ∈ files, t.entry [creatingLeaf runId, metadataName, file.1] = some (.file file.2)
  plain : ∀ file ∈ files, ∀ other id, file.1 ≠ temporaryName other id
  absent : ∀ name, name ∉ files.map Prod.fst → (∀ other id, name ≠ temporaryName other id) →
    t.entry [creatingLeaf runId, metadataName, name] = none

theorem intact_building (hroot : t.entry [runId.1] = none)
    (hquarantine : t.entry [quarantineLeaf runId] = none) (hu : Within runId t u)
    (hv : Within runId t v)
    (h : v.entry [creatingLeaf runId] ≠ none →
      Marked runId v (creatingLeaf runId) ∨ Pristine runId v)
    (intact : Intact runId u) : Intact runId v := by
  have hroot' : v.entry [runId.1] = none := (hv _ (root_ne_creating runId) []).trans hroot
  have hquarantine' : v.entry [quarantineLeaf runId] = none :=
    (hv _ (creating_ne_quarantine runId).symm []).trans hquarantine
  have hmarker : deletionMarkerLeaf runId ≠ creatingLeaf runId := fun h =>
    creating_not_markerLeaf runId (.inl h.symm)
  apply intact.congr
  · exact fun present => absurd hroot' present
  · exact fun present => ⟨h present, hquarantine'⟩
  · exact fun present => absurd hquarantine' present
  · exact .inl ((hv _ hmarker []).trans (hu _ hmarker []).symm)

theorem Wrote.within {temporary name : Text} {value : Bytes}
    (h : Wrote t u [creatingLeaf runId, metadataName] temporary name value) : Within runId t u := by
  intro leaf hleaf rest
  apply h.other
  · exact fun hpath => hleaf (List.cons.inj hpath).1
  · exact fun hpath => hleaf (List.cons.inj hpath).1

theorem Wrote.child {temporary name child : Text} {value : Bytes}
    (h : Wrote t u [creatingLeaf runId, metadataName] temporary name value) :
    u.entry [creatingLeaf runId, child] = t.entry [creatingLeaf runId, child] := by
  apply h.other
  · intro hpath
    simpa using congrArg List.length hpath
  · intro hpath
    simpa using congrArg List.length hpath

theorem Wrote.top {temporary name : Text} {value : Bytes}
    (h : Wrote t u [creatingLeaf runId, metadataName] temporary name value) :
    u.entry [creatingLeaf runId] = t.entry [creatingLeaf runId] := by
  apply h.other
  · intro hpath
    simpa using congrArg List.length hpath
  · intro hpath
    simpa using congrArg List.length hpath

theorem Wrote.sibling {temporary name other : Text} {value : Bytes}
    (h : Wrote t u [creatingLeaf runId, metadataName] temporary name value)
    (htemporary : other ≠ temporary) (hname : other ≠ name) :
    u.entry [creatingLeaf runId, metadataName, other] =
      t.entry [creatingLeaf runId, metadataName, other] := by
  apply h.other
  · exact fun hpath => htemporary (by simpa using hpath)
  · exact fun hpath => hname (by simpa using hpath)

/-- One more file in `.termroom`. -/
theorem buildFile_wp {files : List (Text × Bytes)} {name : Text} {value : Bytes}
    (here : w.tree = t) (h : Building runId files t) (hname : name ∉ files.map Prod.fst)
    (plain : ∀ other id, name ≠ temporaryName other id)
    (owned : ∀ id u,
      Wrote t u [creatingLeaf runId, metadataName] (temporaryName name id) name value →
      Marked runId u (creatingLeaf runId) ∨ Pristine runId u) :
    (sftpAtomicWrite [creatingLeaf runId, metadataName] name value).wp (guarded runId good)
      (Ends good fun _ t' => Building runId ((name, value) :: files) t' ∧
        ∀ child, t'.entry [creatingLeaf runId, child] = t.entry [creatingLeaf runId, child]) w := by
  have vacant := h.absent name hname plain
  apply Ends.mono _ (sftpAtomicWrite_wp here (fun _ => ⟨h.metadata, vacant⟩) _)
  · rintro - t' ⟨hvalue, -, -, id, hwrote⟩
    refine ⟨⟨?_, ?_, ?_, ?_, ?_, ?_, ?_⟩, fun child => hwrote.child⟩
    · exact (hwrote.within _ (root_ne_creating runId) []).trans h.root
    · exact (hwrote.within _ (creating_ne_quarantine runId).symm []).trans h.quarantine
    · exact hwrote.top.trans h.directory
    · exact hwrote.child.trans h.metadata
    · intro file hfile
      obtain rfl | hfile := List.mem_cons.mp hfile
      · exact hvalue
      · rw [hwrote.sibling (h.plain file hfile name id)]
        · exact h.written file hfile
        · intro heq
          rw [← heq] at hname
          exact hname (List.mem_map_of_mem hfile)
    · intro file hfile
      obtain rfl | hfile := List.mem_cons.mp hfile
      · exact plain
      · exact h.plain file hfile
    · intro other hother htemporary
      rw [List.map_cons, List.mem_cons, not_or] at hother
      rw [hwrote.sibling (htemporary name id) hother.1]
      exact h.absent other hother.2 htemporary
  · intro id u v hu hv
    refine ⟨hu.lawful hv ?_, fun _ => ?_⟩
    · intro last _ leaf rest hpath
      exact .inr (.inl (List.cons.inj hpath).1)
    · exact intact_building h.root h.quarantine hu.within hv.within fun _ => owned id v hv

theorem plain_name {name : Text} (h : name.length < 51) (other : Text) (id : RunId) :
    name ≠ temporaryName other id := by
  rintro rfl
  rw [temporaryName_length] at h
  omega

theorem Building.marked {files : List (Text × Bytes)} (h : Building runId files t)
    (hmarker : (markerName, markerContent runId) ∈ files) :
    Marked runId t (creatingLeaf runId) :=
  ⟨h.directory, h.metadata, _, h.written _ hmarker, says_markerContent runId⟩

/-- A file beside the marker leaves it. -/
theorem Marked.wrote {name : Text} {value : Bytes} {id : RunId}
    (h : Marked runId t (creatingLeaf runId)) (hname : markerName ≠ name)
    (hwrote : Wrote t u [creatingLeaf runId, metadataName] (temporaryName name id) name value) :
    Marked runId u (creatingLeaf runId) := by
  obtain ⟨content, hcontent, named⟩ := h.marker
  refine ⟨hwrote.top.trans h.directory, hwrote.child.trans h.metadata, content, ?_, named⟩
  rw [hwrote.sibling (plain_name (by decide) name id) hname]
  exact hcontent

/-- One more file beside the marker. -/
theorem layFile_wp {files : List (Text × Bytes)} {name : Text} {value : Bytes}
    (here : w.tree = t) (h : Building runId files t)
    (hmarker : (markerName, markerContent runId) ∈ files)
    (work : t.entry [creatingLeaf runId, workName] = some .directory)
    (hname : name ∉ files.map Prod.fst) (short : name.length < 51) :
    (sftpAtomicWrite [creatingLeaf runId, metadataName] name value).wp (guarded runId good)
      (Ends good fun _ t' => Building runId ((name, value) :: files) t' ∧
        t'.entry [creatingLeaf runId, workName] = some .directory) w := by
  have hne : markerName ≠ name := by
    rintro rfl
    exact hname (List.mem_map_of_mem hmarker)
  apply Ends.mono _ (buildFile_wp here h hname (plain_name short)
    fun id u hwrote => .inl ((h.marked hmarker).wrote hne hwrote))
  exact fun _ t' ht' => ⟨ht'.1, (ht'.2 workName).trans work⟩

/-- What is there when the two directories have been made. -/
structure Begun (runId : RunId) (t : RunBase) : Prop
    extends Building runId [] t, Pristine runId t where
  empty : FileTree.Empty t [creatingLeaf runId, metadataName]

/-- Until the marker is there, there is nothing else. -/
theorem Begun.owned {id : RunId} (h : Begun runId t)
    (hwrote : Wrote t u [creatingLeaf runId, metadataName] (temporaryName markerName id) markerName
      (markerContent runId)) :
    Marked runId u (creatingLeaf runId) ∨ Pristine runId u := by
  have hdir := hwrote.top.trans h.toBuilding.directory
  obtain hold | ⟨hnew, -⟩ := hwrote.name
  · refine .inr ⟨hdir, fun name node hnode => h.only name node (hwrote.child.symm.trans hnode), ?_⟩
    intro name node hnode
    by_cases htemporary : name = temporaryName markerName id
    · subst htemporary
      refine ⟨isMarkerTemporary_temporaryName id, ?_⟩
      obtain hnone | ⟨part, hpart⟩ := hwrote.temporary
      · exact absurd (hnode.symm.trans hnone) (by simp)
      · exact ⟨part, Option.some.inj (hnode.symm.trans hpart)⟩
    by_cases hname : name = markerName
    · subst hname
      exact absurd (hnode.symm.trans (hold.trans (h.empty markerName))) (by simp)
    · rw [hwrote.sibling htemporary hname] at hnode
      exact absurd (hnode.symm.trans (h.empty name)) (by simp)
  · exact .inl ⟨hdir, hwrote.child.trans h.metadata, _, hnew, says_markerContent runId⟩

theorem beginRoot_wp (here : w.tree = t) (clean : Clean runId t) :
    (beginRoot runId).wp (guarded runId good) (Ends good fun _ t' => Begun runId t') w := by
  have hnone : ∀ rest, t.entry (creatingLeaf runId :: rest) = none :=
    FileTree.none_of_none clean.creating
  have hvacant : t.entry ([] ++ [creatingLeaf runId]) ≠ some .directory := by
    rw [List.nil_append, hnone []]
    simp
  have hfirst : Within runId t (t.put [] (creatingLeaf runId) .directory) := fun leaf hleaf =>
    sameBelow_put fun rest hpath => hleaf (List.cons.inj hpath).1
  have hdir : (t.put [] (creatingLeaf runId) .directory).entry [creatingLeaf runId] =
      some .directory := FileTree.put_here t.root hvacant
  have hempty : FileTree.Empty (t.put [] (creatingLeaf runId) .directory) [creatingLeaf runId] := by
    intro name
    rw [FileTree.put_other (by simp)]
    exact hnone [name]
  have hpristine := Pristine.of_empty hdir hempty
  unfold beginRoot
  apply Ends.seq (R := fun _ t' => t' = t.put [] (creatingLeaf runId) .directory)
  · apply mkdir_wp here
    · exact fun _ => ⟨t.root, hnone []⟩
    · intro _
      refine ⟨lawful_put (fun top rest hpath => .inr (.inl (List.cons.inj hpath).1)) hvacant, ?_⟩
      exact fun _ => intact_building clean.root clean.quarantine (fun _ _ _ => rfl) hfirst
        fun _ => .inr hpristine
    · exact fun _ => rfl
  rintro - v hv
  generalize t.put [] (creatingLeaf runId) .directory = t₁ at *
  have hvacant' : t₁.entry ([creatingLeaf runId] ++ [metadataName]) = none := hempty metadataName
  have hsecond : Within runId t₁ (t₁.put [creatingLeaf runId] metadataName .directory) :=
    fun leaf hleaf => sameBelow_put fun rest hpath => hleaf (List.cons.inj hpath).1
  have hbegun : Begun runId (t₁.put [creatingLeaf runId] metadataName .directory) := by
    have htop : (t₁.put [creatingLeaf runId] metadataName .directory).entry [creatingLeaf runId] =
        some .directory := (FileTree.put_other (by simp)).trans hdir
    have hmetadata : (t₁.put [creatingLeaf runId] metadataName .directory).entry
        [creatingLeaf runId, metadataName] = some .directory :=
      FileTree.put_here hdir (by rw [hvacant']; simp)
    have hbelow : ∀ name, (t₁.put [creatingLeaf runId] metadataName .directory).entry
        [creatingLeaf runId, metadataName, name] = none := fun name =>
      (FileTree.put_other (by simp)).trans (FileTree.none_of_none hvacant' [name])
    have hwithin := hfirst.trans hsecond
    refine ⟨⟨?_, ?_, htop, hmetadata, by simp, by simp, fun name _ _ => hbelow name⟩,
      ?_, ?_, hbelow⟩
    · exact (hwithin _ (root_ne_creating runId) []).trans clean.root
    · exact (hwithin _ (creating_ne_quarantine runId).symm []).trans clean.quarantine
    · intro name node hnode
      by_cases hname : name = metadataName
      · subst hname
        exact ⟨rfl, Option.some.inj (hnode.symm.trans hmetadata)⟩
      · rw [FileTree.put_other (by simpa using hname)] at hnode
        exact absurd (hnode.symm.trans (hempty name)) (by simp)
    · intro name node hnode
      exact absurd (hnode.symm.trans (hbelow name)) (by simp)
  apply mkdir_wp hv
  · exact fun _ => ⟨hdir, hvacant'⟩
  · exact fun _ => admits_pristine hpristine (fun _ => hbegun.toPristine) hsecond
  · exact fun _ => hbegun

/-- The files of a finished layout, the last one first. -/
def layoutFiles (runId : RunId) (layout : Layout) (text : Text) : List (Text × Bytes) :=
  [(commandName, utf8 text), (logPipeName, utf8 layout.logPipeScript),
    (runnerName, utf8 layout.runnerScript), (cwdName, utf8 (layout.cwd ++ ['\n'])),
    (markerName, markerContent runId)]

theorem complete_move {layout : Layout} {text : Text}
    (h : Building runId (layoutFiles runId layout text) t)
    (work : t.entry [creatingLeaf runId, workName] = some .directory)
    (movable : FileTree.Movable t [creatingLeaf runId] [] runId.1) :
    Complete runId text (t.move [creatingLeaf runId] [] runId.1) := by
  have moved : ∀ rest, (t.move [creatingLeaf runId] [] runId.1).entry (runId.1 :: rest) =
      t.entry (creatingLeaf runId :: rest) := fun rest => FileTree.move_here movable
  have written : ∀ file ∈ layoutFiles runId layout text,
      (t.move [creatingLeaf runId] [] runId.1).entry [runId.1, metadataName, file.1] =
        some (.file file.2) := fun file hfile => (moved _).trans (h.written file hfile)
  refine ⟨⟨(moved _).trans h.directory, (moved _).trans h.metadata, _,
    written _ (.tail _ (.tail _ (.tail _ (.tail _ (.head _))))), says_markerContent runId⟩,
    (moved _).trans work, ⟨_, written _ (.tail _ (.tail _ (.tail _ (.head _))))⟩,
    ⟨_, written _ (.tail _ (.tail _ (.head _)))⟩, ⟨_, written _ (.tail _ (.head _))⟩,
    written _ (.head _)⟩

/-- The finished layout takes its name. -/
theorem publish_wp {layout : Layout} {text : Text} (here : w.tree = t)
    (h : Building runId (layoutFiles runId layout text) t)
    (work : t.entry [creatingLeaf runId, workName] = some .directory)
    (short : (utf8 text).length ≤ 256 * 1024) :
    (rename [creatingLeaf runId] [] runId.1).wp (guarded runId good)
      (Ends good fun _ t' => Complete runId text t') w := by
  have hmarked := h.marked (by simp [layoutFiles])
  have movable : FileTree.Movable t [creatingLeaf runId] [] runId.1 :=
    ⟨t.root, h.root, by simp, fun hpre => root_ne_creating runId (below_leaf hpre)⟩
  have complete := complete_move h work movable
  have hcreating : (t.move [creatingLeaf runId] [] runId.1).entry [creatingLeaf runId] = none :=
    FileTree.move_gone movable (List.prefix_refl _) fun hpre =>
      root_ne_creating runId (below_leaf hpre).symm
  have hquarantine : SameBelow t (t.move [creatingLeaf runId] [] runId.1) (quarantineLeaf runId) :=
    sameBelow_move (creating_ne_quarantine runId).symm (root_ne_quarantine runId).symm
  have hmarker : SameBelow t (t.move [creatingLeaf runId] [] runId.1) (deletionMarkerLeaf runId) :=
    sameBelow_move (fun h => creating_not_markerLeaf runId (.inl h.symm))
      fun h => root_not_markerLeaf runId (.inl h.symm)
  apply rename_wp here
  · exact fun _ => ⟨by rw [h.directory]; simp, movable⟩
  · intro _
    refine ⟨lawful_move (.inr (.inl rfl)) (.inl rfl) (.inl ⟨.inr rfl, hmarked⟩) movable, ?_⟩
    intro hgood intact
    have hnone := (hquarantine []).trans h.quarantine
    refine ⟨fun _ => ⟨⟨text, short, complete⟩, hcreating, hnone⟩, fun present => absurd hcreating present,
      fun present => absurd hnone present, fun present => ?_⟩
    rw [hmarker []] at present ⊢
    exact intact.marker present
  · exact fun _ => complete

theorem normalizeCommand_length {command text : Text} (h : normalizeCommand command = .ok text) :
    (utf8 text).length ≤ 256 * 1024 := by
  unfold normalizeCommand at h
  split at h
  · cases h
  split at h
  · cases h
  · dsimp only at h
    split at h
    · cases h
    · rename_i short
      obtain rfl := Except.ok.inj h
      exact not_lt.mp short

theorem body_length {layout : Layout} {text : Text} (h : layout.body = .ok text) :
    (utf8 text).length ≤ 256 * 1024 := by
  unfold Layout.body at h
  split at h
  · obtain rfl := Except.ok.inj h
    exact Nat.zero_le _
  · exact normalizeCommand_length h

/-- A layout that has the command of the call. -/
def Made (runId : RunId) (layout : Layout) (t : RunBase) : Prop :=
  ∃ body, layout.body = .ok body ∧ Complete runId body t

/-- **A layout that is built is complete.** Only a command that is none is refused. -/
theorem buildRoot_wp {layout : Layout} (here : w.tree = t) (clean : Clean runId t) :
    (buildRoot runId layout).wp (guarded runId good)
      (EndsOr good (fun _ t' => Made runId layout t') fun e _ => layout.body = .error e) w := by
  unfold buildRoot
  apply EndsOr.seq (beginRoot_wp here clean)
  rintro - v₁ begun
  apply EndsOr.seq (buildFile_wp rfl begun.toBuilding List.not_mem_nil (plain_name (by decide))
    fun id u hwrote => begun.owned hwrote)
  rintro - v₂ ⟨h₂, hchild⟩
  have hmarked := h₂.marked List.mem_cons_self
  have hvacant : v₂.tree.entry [creatingLeaf runId, workName] = none := by
    rw [hchild workName]
    by_contra present
    obtain ⟨node, hnode⟩ := Option.ne_none_iff_exists'.mp present
    exact absurd (begun.only workName node hnode).1 (by decide)
  apply EndsOr.seq (R := fun _ t' => Building runId [(markerName, markerContent runId)] t' ∧
    t'.entry [creatingLeaf runId, workName] = some .directory)
  · have hother : ∀ path, path ≠ [creatingLeaf runId, workName] →
        (v₂.tree.put [creatingLeaf runId] workName .directory).entry path = v₂.tree.entry path :=
      fun path hpath => FileTree.put_other hpath
    have hwithin : Within runId v₂.tree (v₂.tree.put [creatingLeaf runId] workName .directory) :=
      fun leaf hleaf => sameBelow_put fun rest hpath => hleaf (List.cons.inj hpath).1
    have hne : workName ≠ metadataName := by decide
    apply mkdir_wp rfl
    · exact fun _ => ⟨h₂.directory, hvacant⟩
    · intro _
      refine ⟨lawful_put (fun top rest hpath => .inr (.inl (List.cons.inj hpath).1)) ?_, ?_⟩
      · rw [show [creatingLeaf runId] ++ [workName] = [creatingLeaf runId, workName] from rfl,
          hvacant]
        simp
      · refine fun _ => intact_building h₂.root h₂.quarantine (fun _ _ _ => rfl) hwithin fun _ => ?_
        obtain ⟨content, hcontent, named⟩ := hmarked.marker
        refine .inl ⟨(hother _ (by simp)).trans hmarked.directory,
          (hother _ (by simpa using hne.symm)).trans hmarked.metadata, content,
          (hother _ (by simp)).trans hcontent, named⟩
    · intro _
      refine ⟨⟨(hwithin _ (root_ne_creating runId) []).trans h₂.root,
        (hwithin _ (creating_ne_quarantine runId).symm []).trans h₂.quarantine,
        (hother _ (by simp)).trans h₂.directory,
        (hother _ (by simpa using hne.symm)).trans h₂.metadata, ?_, h₂.plain, ?_⟩,
        FileTree.put_here h₂.directory (by
          rw [show [creatingLeaf runId] ++ [workName] = [creatingLeaf runId, workName] from rfl,
            hvacant]
          simp)⟩
      · exact fun file hfile => (hother _ (by simp)).trans (h₂.written file hfile)
      · exact fun name hname hplain => (hother _ (by simp)).trans (h₂.absent name hname hplain)
  rintro - v₃ ⟨h₃, work₃⟩
  apply EndsOr.seq (layFile_wp rfl h₃ (by simp) work₃
    (show cwdName ∉ [markerName] by decide) (by decide))
  rintro - v₄ ⟨h₄, work₄⟩
  apply EndsOr.seq (layFile_wp rfl h₄ (by simp) work₄
    (show runnerName ∉ [cwdName, markerName] by decide) (by decide))
  rintro - v₅ ⟨h₅, work₅⟩
  apply EndsOr.seq (layFile_wp rfl h₅ (by simp) work₅
    (show logPipeName ∉ [runnerName, cwdName, markerName] by decide) (by decide))
  rintro - v₆ ⟨h₆, work₆⟩
  rw [Prog.wp_bind, Prog.wp_ofExcept]
  cases htext : layout.body with
  | error e => exact fun _ => .inr rfl
  | ok text =>
    apply EndsOr.seq (layFile_wp rfl h₆ (by simp) work₆
      (show commandName ∉ [logPipeName, runnerName, cwdName, markerName] by decide) (by decide))
    rintro - v₈ ⟨h₈, work₈⟩
    apply Ends.orRefuse (Ends.mono _ (publish_wp rfl h₈ work₈ (body_length htext)))
    exact fun _ t' complete => ⟨text, htext, complete⟩

theorem createRoot_wp {layout : Layout} (here : w.tree = t) (root : t.entry [runId.1] = none)
    (quarantine : t.entry [quarantineLeaf runId] = none)
    (marker : t.entry [deletionMarkerLeaf runId] = none) (intact : good → Intact runId t) :
    (createRoot runId layout).wp (guarded runId good)
      (EndsOr good (fun _ t' => Made runId layout t') fun e _ => layout.body = .error e) w := by
  unfold createRoot
  apply EndsOr.seq (leafExists_wp here)
  rintro left v₁ ⟨h₁, hleft⟩
  apply EndsOr.seq (R := fun _ t' => Clean runId t')
  · unfold discardLeft
    split
    · apply Ends.mono _ (discardCreation_wp h₁ intact)
      rintro - t' ⟨hgone, hclean | hwithin⟩
      · exact hclean
      · exact ⟨(hwithin _ (root_ne_creating runId) []).trans root, hgone,
          (hwithin _ (creating_ne_quarantine runId).symm []).trans quarantine,
          (hwithin _ (fun h => creating_not_markerLeaf runId (.inl h.symm)) []).trans marker⟩
    · rename_i h
      show Clean runId v₁.tree
      rw [h₁]
      refine ⟨root, ?_, quarantine, marker⟩
      by_contra present
      exact h (hleft.mpr present)
  rintro - v₂ clean
  rw [Prog.wp_bind, Prog.wp_attempt]
  apply Prog.wp_mono _ (kept_wp (buildRoot_wp rfl clean) fun _ => clean.intact)
  rintro r v₃ ⟨hr, intact₃⟩
  rw [onResult_ok]
  cases r with
  | ok a =>
    obtain ⟨body, hbody, complete⟩ := hr
    apply Ends.orRefuse (Ends.mono _ (assertTree_wp rfl fun _ => complete.toMarked))
    rintro - t' ⟨rfl, -⟩
    exact ⟨body, hbody, complete⟩
  | error e =>
    show Prog.wp _ (_ >>= _) _ v₃
    rw [Prog.wp_bind, Prog.wp_attempt]
    have later := @faulty_wp _ _ _ _ _ _ (v₃.faulty = true) (discardCreation_wp rfl intact₃) id
    apply Prog.wp_mono _ later
    exact fun q v₄ h hgood => (hr hgood).imp_left h.2

/-- What a creation is told that finds a layout with another command. -/
def otherCommand : SshError := .backend "Remote Run id already belongs to a different command"

/-- A layout with this command was there, and is as it was. -/
structure Stands (runId : RunId) (t t' : RunBase) (other : Text) : Prop where
  complete : Complete runId other t
  same : t' = t

/-- The creation takes what it found for its own. -/
def Claimed (runId : RunId) (layout : Layout) (t t' : RunBase) : Prop :=
  ∃ other, Stands runId t t' other ∧ (layout.command = none ∨ layout.body = .ok other)

/-- The creation refuses the command that it was given, or that it found. -/
def Refused (runId : RunId) (layout : Layout) (t : RunBase) (e : SshError) (t' : RunBase) : Prop :=
  layout.body = .error e ∨ ∃ other body, Stands runId t t' other ∧ layout.body = .ok body ∧
    other ≠ body ∧ e = otherCommand

theorem utf8_injective {a b : Text} (h : utf8 a = utf8 b) : a = b :=
  Option.some.inj (decodeUtf8_utf8.symm.trans ((congrArg decodeUtf8 h).trans decodeUtf8_utf8))

theorem claimCommand_wp {layout : Layout} {text : Text} (here : w.tree = t)
    (found : good → Laid runId t) (hbody : layout.body = .ok text) :
    (do
      let actual ← read [runId.1, metadataName, commandName] (256 * 1024)
      require (actual = utf8 text) otherCommand : SshProg Unit).wp (guarded runId good)
      (EndsOr good (fun _ t' => good → Claimed runId layout t t') (Refused runId layout t)) w := by
  apply EndsOr.seq (read_wp here fun hgood => (found hgood).elim fun other h =>
    ⟨_, h.2.command, h.1⟩)
  rintro actual v ⟨hv, hactual⟩
  unfold require
  split
  · rename_i same
    show good → _
    intro hgood
    obtain ⟨other, -, complete⟩ := found hgood
    obtain rfl := utf8_injective
      ((hactual _ complete.command).1.symm.trans (of_decide_eq_true same))
    exact ⟨other, ⟨complete, hv⟩, .inr hbody⟩
  · rename_i differs
    intro hgood
    obtain ⟨other, -, complete⟩ := found hgood
    refine .inr (.inr ⟨other, text, ⟨complete, hv⟩, hbody, ?_, rfl⟩)
    rintro rfl
    exact differs (decide_eq_true (hactual _ complete.command).1)

theorem claimRoot_wp {layout : Layout} {kind : Kind} (here : w.tree = t)
    (hkind : ∃ node, t.entry [runId.1] = some node ∧ kindOf node = kind)
    (intact : good → Intact runId t) :
    (claimRoot runId kind layout).wp (guarded runId good)
      (EndsOr good (fun _ t' => good → Claimed runId layout t t') (Refused runId layout t)) w := by
  obtain ⟨node, hnode, rfl⟩ := hkind
  have found : good → Laid runId t := fun hgood =>
    ((intact hgood).root (by rw [hnode]; simp)).1
  unfold claimRoot
  apply EndsOr.seq (require_wp (R := fun _ t' => t' = t) here (fun _ => rfl) fun hgood => by
    obtain ⟨other, -, complete⟩ := found hgood
    have hdir := complete.directory
    rw [hnode] at hdir
    rw [Option.some.inj hdir]
    rfl)
  rintro - v₁ h₁
  apply EndsOr.seq (assertTree_wp h₁ fun hgood => (found hgood).elim fun _ h => h.2.toMarked)
  rintro - v₂ ⟨h₂, -⟩
  cases hcommand : layout.command with
  | none =>
    show good → _
    intro hgood
    obtain ⟨other, -, complete⟩ := found hgood
    exact ⟨other, ⟨complete, h₂⟩, .inl hcommand⟩
  | some command =>
    have hbody : layout.body = normalizeCommand command := by
      unfold Layout.body
      rw [hcommand]
    dsimp only
    rw [Prog.wp_bind, Prog.wp_ofExcept]
    cases htext : normalizeCommand command with
    | error e => exact fun _ => .inr (.inl (hbody.trans htext))
    | ok text => exact claimCommand_wp h₂ found (hbody.trans htext)

theorem deletionBegun_wp (here : w.tree = t) :
    (deletionBegun runId).wp (guarded runId good) (Ends good fun begun t' => t' = t ∧
      (begun = false →
        t.entry [quarantineLeaf runId] = none ∧ t.entry [deletionMarkerLeaf runId] = none)) w := by
  unfold deletionBegun
  apply Ends.seq (leafExists_wp here)
  rintro quarantined v₁ ⟨h₁, hquarantined⟩
  split
  · exact ⟨h₁, fun h => absurd h (by simp)⟩
  · rename_i h
    apply Ends.mono _ (leafExists_wp h₁)
    rintro started t' ⟨ht', hstarted⟩
    refine ⟨ht', fun hnot => ⟨?_, ?_⟩⟩
    · by_contra present
      exact h (hquarantined.mpr present)
    · by_contra present
      rw [hstarted.mpr present] at hnot
      cases hnot

theorem finishDeletion_wp {begun : Bool} (here : w.tree = t) (intact : good → Intact runId t)
    (untouched : begun = false →
      t.entry [quarantineLeaf runId] = none ∧ t.entry [deletionMarkerLeaf runId] = none) :
    (finishDeletion runId begun).wp (guarded runId good) (Ends good fun _ t' =>
      (t' = t ∨ t'.entry [runId.1] = none) ∧
      t'.entry [quarantineLeaf runId] = none ∧ t'.entry [deletionMarkerLeaf runId] = none) w := by
  unfold finishDeletion
  split
  · apply Ends.seq (deleteRunRoot_wp here intact)
    intro _ _ clean
    exact ⟨.inr clean.root, clean.quarantine, clean.marker⟩
  · rename_i h
    show _ ∧ _
    rw [here]
    exact ⟨.inl rfl, untouched (Bool.eq_false_iff.mpr h)⟩

/-- **A creation that ends has a complete layout**, its own or the one that was there: nothing is
    refused but a command that is none or not that of the layout. -/
theorem createRunLayout_wp {layout : Layout} (here : w.tree = t)
    (intact : good → Intact runId t) :
    (createRunLayout runId layout).wp (guarded runId good)
      (EndsOr good (fun _ t' => good → Made runId layout t' ∨ Claimed runId layout t t')
        (Refused runId layout t)) w := by
  unfold createRunLayout
  apply EndsOr.seq (deletionBegun_wp here)
  rintro begun v₁ ⟨h₁, hbegun⟩
  have finished := finishDeletion_wp h₁ intact hbegun
  rw [Prog.wp_bind]
  apply Prog.wp_mono _ (kept_wp finished fun hgood => by rw [h₁]; exact intact hgood)
  rintro r v₂ ⟨hr, intact₂⟩
  cases r with
  | error e => exact fun hgood => .inl (hr hgood)
  | ok a =>
    obtain ⟨hroot, hquarantine, hmarker⟩ := hr
    rw [onResult_ok, Prog.wp_bind]
    apply perform_wp
    intro answer v step
    rw [onResult_ok]
    obtain ⟨⟨hanswer, hv⟩, -⟩ | ⟨⟨e, he, rfl⟩, hbroken, hflag⟩ := step
    · refine ⟨by rw [hv]; exact .refl, ?_⟩
      obtain rfl := hanswer.resolve_right not_through_leaf
      unfold kindAt
      split
      · rename_i kind h
        split at h
        · rename_i node hnode
          have same : v₂.tree = t := hroot.resolve_right (by rw [hnode]; simp)
          rw [same] at hv hnode intact₂
          apply Prog.wp_mono _ (claimRoot_wp hv ⟨node, hnode, Except.ok.inj h⟩ intact₂)
          intro r u hr
          cases r with
          | ok a => exact fun hgood => .inr (hr hgood)
          | error e => exact hr
        · cases h
      · rename_i h
        split at h
        · cases h
        · rename_i hnone
          apply Prog.wp_mono _ (createRoot_wp hv hnone hquarantine hmarker intact₂)
          intro r u hr
          cases r with
          | ok a => exact fun _ => .inl hr
          | error e => exact fun hgood => (hr hgood).imp_right .inl
      · rename_i e he h
        split at h
        · cases h
        · exact absurd (Except.error.inj h).symm he
    · have hv : v.tree = v₂.tree := still_of_broken (o := .lstat [runId.1]) (fun _ h => h.2) hbroken
      refine ⟨by rw [hv]; exact .refl, ?_⟩
      cases e with
      | missing => exact absurd rfl he
      | failure => exact fun _ => .inl hflag
      | connection => exact fun _ => .inl hflag

end

/-! ## 7. Histories -/

/-- `delete_remote_run_root`. -/
def deleteCall (runId : RunId) : SshProg Unit := do
  let _ ← deleteRunRoot runId
  pure ()

/-- The calls for one Run: each creation has a layout of its own. -/
inductive Calls (runId : RunId) : SshProg Unit → Prop
  | create (layout : Layout) : Calls runId (createRunLayout runId layout)
  | delete : Calls runId (deleteCall runId)

section

variable {runId : RunId} {good : Prop} {base w u v : World}

theorem deleteCall_wp (intact : good → Intact runId w.tree) :
    (deleteCall runId).wp (guarded runId good)
      (Ends good fun _ t' => Clean runId t') w := by
  unfold deleteCall
  apply Ends.seq (deleteRunRoot_wp rfl intact)
  exact fun _ _ hclean => hclean

/-- Every operation of a call is lawful, from any state. -/
theorem Lawful.of_performs {p : SshProg Unit} {Q : Except SshError Unit → World → Prop}
    (h : Performs Eq Step p w u v) (hwp : p.wp (guarded runId False) Q w) :
    Lawful runId u.tree v.tree := by
  obtain ⟨_, _, admits⟩ := Performs.ok (c := guarded runId False) (fun _ => trivial) h hwp
  exact admits.lawful

/-- Calls that stopped anywhere leave what the next one can finish. -/
theorem intact_of_cuts (fresh : Clean runId base.tree)
    (history : Cuts Eq Step (Calls runId) base w) : Intact runId w.tree := by
  apply Cuts.keeps (c := guarded runId True) (J := fun w => Intact runId w.tree) _
    (fun _ _ => trivial) _ history _ fresh.intact
  · rintro u v rfl hu
    exact hu
  · exact fun o answer u v hu _ admits => admits.intact trivial hu
  · intro p hp u hu
    cases hp with
    | create layout => exact ⟨_, createRunLayout_wp rfl fun _ => hu⟩
    | delete => exact ⟨_, deleteCall_wp fun _ => hu⟩

end

/-- **The calls for a Run touch what is the Run's, and finish what was left.**

No operation of a call, from any state of the Run base, touches another name than the Run's, or
takes a directory away that does not carry the Run's marker, is not under construction without
one, and is not set aside with the deletion marker beside it. From a base where none of the Run's
names is but those of temporary files of its deletion marker, behind any calls with any commands
that were cut off or had operations break, a call in which none breaks comes to its end. A deletion
leaves no name of the Run but such a temporary file's: a deletion that is cut off while it writes
the marker may leave one, and no call removes it. A creation leaves a complete layout with its
command, or takes the one that was there for its own, or refuses: a command that is none, or
another one than that of the layout that was there. -/
theorem run_tree_recovers (runId : RunId) :
    (∀ (layout : Layout) (w u v : World),
      Performs Eq Step (createRunLayout runId layout) w u v ∨
        Performs Eq Step (deleteCall runId) w u v → Lawful runId u.tree v.tree) ∧
    ∀ base w : World, Clean runId base.tree → Cuts Eq Step (Calls runId) base w →
      (∀ r v, Exec Step (deleteRunRoot runId) ⟨w.tree, false⟩ r v → v.faulty = false →
        (∃ missing, r = .ok missing) ∧ ∀ leaf, Ours runId leaf → v.tree.entry [leaf] ≠ none →
          ∃ id, leaf = temporaryName (deletionMarkerLeaf runId) id) ∧
      (∀ layout : Layout, ∀ r v,
        Exec Step (createRunLayout runId layout) ⟨w.tree, false⟩ r v → v.faulty = false →
          (r = .ok () ∧ (Made runId layout v.tree ∨ Claimed runId layout w.tree v.tree)) ∨
          ∃ e, r = .error e ∧ Refused runId layout w.tree e v.tree) := by
  refine ⟨?_, fun base w fresh history => ⟨?_, ?_⟩⟩
  · rintro layout w u v (h | h)
    · exact .of_performs h (createRunLayout_wp rfl False.elim)
    · exact .of_performs h (deleteCall_wp False.elim)
  · intro r v h calm
    have intact := intact_of_cuts fresh history
    have hwp : (deleteRunRoot runId).wp (guarded runId True)
        (Ends True fun _ t' => Clean runId t') ⟨w.tree, false⟩ :=
      deleteRunRoot_wp rfl fun _ => intact
    have hends : Ends True (fun _ t' => Clean runId t') r v :=
      Exec.meets (c := guarded runId True) (fun _ => rfl) (fun _ => trivial) h hwp
    cases r with
    | ok missing => exact ⟨⟨missing, rfl⟩, fun leaf own present => hends.left own present⟩
    | error e => exact absurd (calm.symm.trans (hends trivial)) Bool.false_ne_true
  · intro layout r v h calm
    have intact := intact_of_cuts fresh history
    have hends := Exec.meets (c := guarded runId True) (fun _ => rfl) (fun _ => trivial) h
      (createRunLayout_wp rfl fun _ => intact)
    cases r with
    | ok done => exact .inl ⟨rfl, hends trivial⟩
    | error e =>
      rcases hends trivial with faulty | refused
      · exact absurd (calm.symm.trans faulty) Bool.false_ne_true
      · exact .inr ⟨e, rfl, refused⟩

end Termroom.Ssh.RunTree
