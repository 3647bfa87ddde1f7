import Mathlib

/-!
# A tree of files

A tree says what is at each path, and what has something below it is a directory: that is a field
of the structure, so that no operation can leave an orphan behind. Paths are lists of names and
the tree's own directory has the empty one.

There are three ways to change a tree: to put something at a path, to take a path away with all
below it, and to move a path to where nothing is. `Pruned` is what is left by a removal that was
cut off in the middle.
-/

set_option autoImplicit false

namespace Data

inductive FileNode (β : Type) where
  | directory
  | file (content : β)
  | symlink
  deriving DecidableEq, Repr

structure FileTree (ν β : Type) where
  entry : List ν → Option (FileNode β)
  root : entry [] = some .directory
  closed : ∀ {path name}, entry (path ++ [name]) ≠ none → entry path = some .directory

namespace FileTree

variable {ν β : Type}

instance (node : Option (FileNode β)) : Decidable (node = some .directory) :=
  match node with
  | some .directory => isTrue rfl
  | some (.file _) | some .symlink | none => isFalse (by simp)

instance (node : Option (FileNode β)) : Decidable (node = none) :=
  match node with
  | none => isTrue rfl
  | some _ => isFalse (by simp)

/-! ## 1. What is below a path -/

section

variable {t u v : FileTree ν β} {path dir : List ν} {name : ν} {node : FileNode β}

theorem none_of_parent (h : t.entry path ≠ some .directory) : t.entry (path ++ [name]) = none := by
  by_contra present
  exact h (t.closed present)

/-- Nothing is below what is missing, or no directory. -/
theorem none_below (h : t.entry path ≠ some .directory) (name : ν) (rest : List ν) :
    t.entry (path ++ name :: rest) = none := by
  induction rest using List.reverseRecOn with
  | nil => exact none_of_parent h
  | append_singleton rest last ih =>
    have hassoc : path ++ name :: (rest ++ [last]) = (path ++ name :: rest) ++ [last] := by simp
    rw [hassoc]
    exact none_of_parent (by rw [ih]; simp)

theorem none_of_none (h : t.entry path = none) (rest : List ν) : t.entry (path ++ rest) = none := by
  cases rest with
  | nil => rwa [List.append_nil]
  | cons name rest => exact none_below (by rw [h]; simp) name rest

/-- There is nothing in a directory, or no directory. -/
def Empty (t : FileTree ν β) (path : List ν) : Prop := ∀ name, t.entry (path ++ [name]) = none

/-- The path may be removed part by part: what is left is as it was. -/
def Pruned (t u : FileTree ν β) (path : List ν) : Prop :=
  ∀ other, u.entry other = t.entry other ∨ (path <+: other ∧ u.entry other = none)

theorem Pruned.same {other : List ν} (h : Pruned t u path) (apart : ¬ path <+: other) :
    u.entry other = t.entry other := (h other).resolve_right fun hr => apart hr.1

end

/-! ## 2. Changes -/

variable [DecidableEq ν] (t : FileTree ν β)

/-- What is put at a path replaces no directory, and needs one to be in. -/
def put (dir : List ν) (name : ν) (node : FileNode β) : FileTree ν β :=
  if h : t.entry dir = some .directory ∧ t.entry (dir ++ [name]) ≠ some .directory then
    { entry := Function.update t.entry (dir ++ [name]) (some node)
      root := by
        rw [Function.update_of_ne (by simp)]
        exact t.root
      closed := by
        intro path last present
        have apart : dir ≠ dir ++ [name] := by simp
        by_cases here : path ++ [last] = dir ++ [name]
        · obtain ⟨rfl, rfl⟩ := List.append_singleton_inj.mp here
          rw [Function.update_of_ne apart]
          exact h.1
        · rw [Function.update_of_ne here] at present
          have parent := t.closed present
          have other : path ≠ dir ++ [name] := by
            rintro rfl
            exact h.2 parent
          rw [Function.update_of_ne other]
          exact parent }
  else t

/-- A path is taken away, with all that is below it. -/
def prune (path : List ν) : FileTree ν β :=
  if h : path = [] then t
  else
    { entry := fun other => if path <+: other then none else t.entry other
      root := by
        rw [if_neg (by simpa using h)]
        exact t.root
      closed := by
        intro other name present
        by_cases below : path <+: other ++ [name]
        · rw [if_pos below] at present
          exact absurd rfl present
        · rw [if_neg below] at present
          have apart : ¬ path <+: other := fun hpath => below (hpath.trans (List.prefix_append _ _))
          rw [if_neg apart]
          exact t.closed present }

/-- A path is moved to where nothing is. -/
def move (src dir : List ν) (name : ν) : FileTree ν β :=
  if h : t.entry dir = some .directory ∧ t.entry (dir ++ [name]) = none ∧ src ≠ [] ∧
      ¬ src <+: dir ++ [name] then
    { entry := fun other =>
        if dir ++ [name] <+: other then t.entry (src ++ other.drop (dir.length + 1))
        else if src <+: other then none
        else t.entry other
      root := by
        rw [if_neg (by simp), if_neg (by simpa using h.2.2.1)]
        exact t.root
      closed := by
        intro other last present
        obtain ⟨hdir, hvacant, hsrc, hapart⟩ := h
        by_cases inside : dir ++ [name] <+: other
        · obtain ⟨rest, rfl⟩ := inside
          have hrest : (dir ++ [name] ++ rest).drop (dir.length + 1) = rest := by simp
          have hlast :
              (dir ++ [name] ++ rest ++ [last]).drop (dir.length + 1) = rest ++ [last] := by
            simp
          rw [if_pos (by simp), hlast, ← List.append_assoc] at present
          rw [if_pos (by simp), hrest]
          exact t.closed present
        rw [if_neg inside]
        by_cases here : dir ++ [name] <+: other ++ [last]
        · -- what is moved stands in its new directory
          rcases List.prefix_concat_iff.mp here with same | below
          · obtain ⟨rfl, rfl⟩ := List.append_singleton_inj.mp same
            have outside : ¬ src <+: dir := fun hsub => hapart (hsub.trans (List.prefix_append _ _))
            rw [if_neg outside]
            exact hdir
          · exact absurd below inside
        rw [if_neg here] at present
        by_cases gone : src <+: other ++ [last]
        · rw [if_pos gone] at present
          exact absurd rfl present
        rw [if_neg gone] at present
        have outside : ¬ src <+: other := fun hsub => gone (hsub.trans (List.prefix_append _ _))
        rw [if_neg outside]
        exact t.closed present }
  else t

/-! ## 3. What is where afterwards -/

section

variable {t} {path src dir other rest : List ν} {name : ν} {node : FileNode β}

theorem put_here (hdir : t.entry dir = some .directory)
    (hold : t.entry (dir ++ [name]) ≠ some .directory) :
    (t.put dir name node).entry (dir ++ [name]) = some node := by
  rw [put, dif_pos ⟨hdir, hold⟩]
  exact Function.update_self _ _ _

theorem put_other (h : other ≠ dir ++ [name]) :
    (t.put dir name node).entry other = t.entry other := by
  unfold put
  split
  · exact Function.update_of_ne h _ _
  · rfl

theorem prune_below (hne : path ≠ []) (h : path <+: other) : (t.prune path).entry other = none := by
  rw [prune, dif_neg hne]
  exact if_pos h

theorem prune_other (h : ¬ path <+: other) : (t.prune path).entry other = t.entry other := by
  unfold prune
  split
  · rfl
  · exact if_neg h

theorem prune_pruned (hne : path ≠ []) : Pruned t (t.prune path) path := by
  intro other
  by_cases h : path <+: other
  · exact .inr ⟨h, prune_below hne h⟩
  · exact .inl (prune_other h)

/-- What a move needs. -/
structure Movable (t : FileTree ν β) (src dir : List ν) (name : ν) : Prop where
  parent : t.entry dir = some .directory
  vacant : t.entry (dir ++ [name]) = none
  source : src ≠ []
  apart : ¬ src <+: dir ++ [name]

theorem move_here (h : Movable t src dir name) :
    (t.move src dir name).entry (dir ++ name :: rest) = t.entry (src ++ rest) := by
  have hpath : dir ++ name :: rest = dir ++ [name] ++ rest := by simp
  have hdrop : (dir ++ [name] ++ rest).drop (dir.length + 1) = rest := by simp
  rw [move, dif_pos ⟨h.parent, h.vacant, h.source, h.apart⟩, hpath]
  dsimp only
  rw [if_pos (List.prefix_append _ _), hdrop]

theorem move_gone (h : Movable t src dir name) (hsrc : src <+: other)
    (apart : ¬ dir ++ [name] <+: other) : (t.move src dir name).entry other = none := by
  rw [move, dif_pos ⟨h.parent, h.vacant, h.source, h.apart⟩]
  dsimp only
  rw [if_neg apart, if_pos hsrc]

theorem move_other (hsrc : ¬ src <+: other) (hdst : ¬ dir ++ [name] <+: other) :
    (t.move src dir name).entry other = t.entry other := by
  unfold move
  split
  · dsimp only
    rw [if_neg hdst, if_neg hsrc]
  · rfl

end

end FileTree

end Data
