import Mathlib.Logic.Relation
import Mathlib.Tactic.Common

/-!
# Paths through symbolic links

A tree of named nodes has directories, files and links. A walk through it goes on by steps, each
of them taken in a directory: it stays, it goes up, or it goes down to a name, which must be
there. Where the node it goes down to is a link, the steps of the link's target come first. A
walk that finds no node, or no directory, ends where it is; it leaves the tree where it goes up
from the root.

`lexical` is the same walk with no look at the nodes: the two agree as long as no link is crossed
(`lexical_of_straight`). Any chain of links that leads out of the tree contains one link whose
own target goes up from the root (`contained_iff`), so that it is enough to look at the targets
one by one.
-/

set_option autoImplicit false

namespace Data.Links

variable {α : Type}

inductive Step (α : Type) where
  | stay
  | up
  | down (name : α)
  deriving DecidableEq, Repr

inductive Node (α : Type) where
  | directory
  | file
  | link (target : List (Step α))
  deriving DecidableEq, Repr

/-- Where a walk is, and what is ahead of it. -/
structure Walk (α : Type) where
  here : List α
  ahead : List (Step α)

/-! ## 1. Walks -/

section walks

variable (nodes : List α → Option (Node α))

inductive Moves : Walk α → Walk α → Prop
  | stay {here : List α} {ahead : List (Step α)} (inDirectory : nodes here = some .directory) :
      Moves ⟨here, .stay :: ahead⟩ ⟨here, ahead⟩
  | up {here : List α} {ahead : List (Step α)} (inDirectory : nodes here = some .directory)
      (inside : here ≠ []) : Moves ⟨here, .up :: ahead⟩ ⟨here.dropLast, ahead⟩
  | enter {here : List α} {name : α} {ahead : List (Step α)}
      (inDirectory : nodes here = some .directory)
      (node : nodes (here ++ [name]) = some .directory) :
      Moves ⟨here, .down name :: ahead⟩ ⟨here ++ [name], ahead⟩
  | find {here : List α} {name : α} {ahead : List (Step α)}
      (inDirectory : nodes here = some .directory) (node : nodes (here ++ [name]) = some .file) :
      Moves ⟨here, .down name :: ahead⟩ ⟨here ++ [name], ahead⟩
  | follow {here : List α} {name : α} {ahead target : List (Step α)}
      (inDirectory : nodes here = some .directory)
      (link : nodes (here ++ [name]) = some (.link target)) :
      Moves ⟨here, .down name :: ahead⟩ ⟨here, target ++ ahead⟩

abbrev Reaches : Walk α → Walk α → Prop := Relation.ReflTransGen (Moves nodes)

/-- The next step goes up from the root. -/
def Walk.Leaves (w : Walk α) : Prop := ∃ ahead, w = ⟨[], .up :: ahead⟩

/-- The walk leaves the tree in the end. -/
def Escapes (w : Walk α) : Prop := ∃ v, Reaches nodes w v ∧ v.Leaves

/-- The steps go up where the steps before lead to the root. -/
def Oversteps (here : List α) (steps : List (Step α)) : Prop :=
  ∃ before after, steps = before ++ .up :: after ∧ Reaches nodes ⟨here, before⟩ ⟨[], []⟩

/-- The steps meet a link. -/
def Crosses : List α → List (Step α) → Prop
  | _, [] => False
  | here, .stay :: ahead => Crosses here ahead
  | here, .up :: ahead => Crosses here.dropLast ahead
  | here, .down name :: ahead =>
    (∃ target, nodes (here ++ [name]) = some (.link target)) ∨ Crosses (here ++ [name]) ahead

end walks

/-- Where the steps lead with no link followed; nowhere, if they go up from the root. -/
def lexical [DecidableEq α] : List α → List (Step α) → Option (List α)
  | here, [] => some here
  | here, .stay :: ahead => lexical here ahead
  | here, .up :: ahead => if here = [] then none else lexical here.dropLast ahead
  | here, .down name :: ahead => lexical (here ++ [name]) ahead

variable {nodes : List α → Option (Node α)} {w v u : Walk α} {here root : List α}
  {steps more : List (Step α)}

/-! ## 2. Going on -/

theorem Moves.extend (h : Moves nodes w v) :
    Moves nodes ⟨w.here, w.ahead ++ more⟩ ⟨v.here, v.ahead ++ more⟩ := by
  cases h with
  | stay inDirectory => exact .stay inDirectory
  | up inDirectory inside => exact .up inDirectory inside
  | enter inDirectory node => exact .enter inDirectory node
  | find inDirectory node => exact .find inDirectory node
  | @follow here name ahead target inDirectory link =>
    show Moves nodes ⟨here, .down name :: (ahead ++ more)⟩ ⟨here, (target ++ ahead) ++ more⟩
    rw [List.append_assoc]
    exact .follow inDirectory link

/-- More steps ahead do not change where a walk goes first. -/
theorem Reaches.extend (h : Reaches nodes w v) :
    Reaches nodes ⟨w.here, w.ahead ++ more⟩ ⟨v.here, v.ahead ++ more⟩ := by
  induction h with
  | refl => exact .refl
  | tail _ last ih => exact ih.tail last.extend

theorem Moves.deterministic (h : Moves nodes w v) (h' : Moves nodes w u) : v = u := by
  cases h with
  | stay => cases h'; rfl
  | up => cases h'; rfl
  | enter _ node =>
    cases h' with
    | enter => rfl
    | find => rfl
    | follow _ link => exact absurd (node.symm.trans link) (by simp)
  | find _ node =>
    cases h' with
    | enter => rfl
    | find => rfl
    | follow _ link => exact absurd (node.symm.trans link) (by simp)
  | follow _ link =>
    cases h' with
    | enter _ node => exact absurd (node.symm.trans link) (by simp)
    | find _ node => exact absurd (node.symm.trans link) (by simp)
    | follow _ link' =>
      obtain rfl := Node.link.inj (Option.some.inj (link.symm.trans link'))
      rfl

theorem Walk.Leaves.stuck (h : v.Leaves) : ¬Moves nodes v u := by
  intro hmove
  obtain ⟨ahead, rfl⟩ := h
  cases hmove with
  | up _ inside => exact inside rfl

/-- A walk that escapes does so from everywhere on its way. -/
theorem Escapes.later (hwv : Reaches nodes w v) : Escapes nodes w ↔ Escapes nodes v := by
  constructor
  · intro ⟨out, hout, hleaves⟩
    refine ⟨out, ?_, hleaves⟩
    induction hwv using Relation.ReflTransGen.head_induction_on with
    | refl => exact hout
    | head move _ ih =>
      apply ih
      rcases Relation.ReflTransGen.cases_head hout with rfl | ⟨next, hnext, hrest⟩
      · exact absurd move hleaves.stuck
      · rwa [move.deterministic hnext]
  · intro ⟨out, hout, hleaves⟩
    exact ⟨out, hwv.trans hout, hleaves⟩

/-! ## 3. Leaving -/

theorem Oversteps.escapes (h : Oversteps nodes here steps) : Escapes nodes ⟨here, steps⟩ := by
  obtain ⟨before, after, rfl, hroot⟩ := h
  exact ⟨_, hroot.extend, after, rfl⟩

/-- A step that comes first changes nothing about the overstepping behind it. -/
theorem Oversteps.cons {s : Step α} {next : List α}
    (move : ∀ ahead, Moves nodes ⟨here, s :: ahead⟩ ⟨next, ahead⟩)
    (h : Oversteps nodes next steps) : Oversteps nodes here (s :: steps) := by
  obtain ⟨before, after, rfl, hroot⟩ := h
  exact ⟨s :: before, after, rfl, .head (move _) hroot⟩

/-- **A walk that leaves the tree goes up from the root by its own steps, or along a link that
    does so by its own.** -/
theorem Escapes.oversteps (h : Escapes nodes ⟨here, steps⟩) :
    Oversteps nodes here steps ∨
      ∃ dir name target, nodes (dir ++ [name]) = some (.link target) ∧ Oversteps nodes dir target := by
  obtain ⟨v, hreach, hleaves⟩ := h
  generalize hw : (⟨here, steps⟩ : Walk α) = w at hreach
  induction hreach using Relation.ReflTransGen.head_induction_on generalizing here steps with
  | refl =>
    obtain ⟨ahead, rfl⟩ := hleaves
    cases hw
    exact .inl ⟨[], ahead, rfl, .refl⟩
  | head move _ ih =>
    subst hw
    cases move with
    | stay inDirectory => exact (ih rfl).imp_left (.cons fun _ => .stay inDirectory)
    | up inDirectory inside => exact (ih rfl).imp_left (.cons fun _ => .up inDirectory inside)
    | enter inDirectory node => exact (ih rfl).imp_left (.cons fun _ => .enter inDirectory node)
    | find inDirectory node => exact (ih rfl).imp_left (.cons fun _ => .find inDirectory node)
    | @follow _ name ahead target inDirectory link =>
      -- the link's own steps come first: it oversteps in them, or in what follows them
      rcases ih rfl with ⟨before, after, hsplit, hroot⟩ | hlink
      · rcases List.append_eq_append_iff.mp hsplit with ⟨rest, hbefore, hahead⟩ | ⟨rest, ht, hrest⟩
        · subst hbefore hahead
          exact .inl ⟨.down name :: rest, after, rfl, .head (.follow inDirectory link) hroot⟩
        · cases rest with
          | nil =>
            simp only [List.append_nil] at ht
            subst ht
            refine .inl ⟨[.down name], after, ?_, .head (.follow inDirectory link) ?_⟩
            · rw [List.singleton_append, ← List.nil_append (ahead), ← hrest]
            · rw [List.append_nil]
              exact hroot
          | cons s rest =>
            obtain ⟨rfl, -⟩ := List.cons.inj hrest
            exact .inr ⟨_, name, target, link, before, rest, ht, hroot⟩
      · exact .inr hlink

/-- **No link leads out of the tree, if and only if none goes up from the root by its own
    target.** -/
theorem contained_iff :
    (∀ dir name target, nodes (dir ++ [name]) = some (.link target) →
      ¬Escapes nodes ⟨dir, target⟩) ↔
      ∀ dir name target, nodes (dir ++ [name]) = some (.link target) →
        ¬Oversteps nodes dir target := by
  constructor
  · intro h dir name target link hover
    exact h dir name target link hover.escapes
  · intro h dir name target link hescapes
    rcases hescapes.oversteps with hover | ⟨dir', name', target', link', hover⟩
    · exact h dir name target link hover
    · exact h dir' name' target' link' hover

/-! ## 4. Lexically -/

variable [DecidableEq α]

/-- Where no link is crossed, the walk leads where it says. -/
theorem lexical_of_straight (straight : ¬Crosses nodes here steps)
    (h : Reaches nodes ⟨here, steps⟩ ⟨root, []⟩) : lexical here steps = some root := by
  generalize hw : (⟨here, steps⟩ : Walk α) = w at h
  induction h using Relation.ReflTransGen.head_induction_on generalizing here steps with
  | refl =>
    cases hw
    rfl
  | head move _ ih =>
    subst hw
    cases move with
    | @stay here ahead =>
      have hlexical : lexical here ahead = some root := ih straight rfl
      exact hlexical
    | @up here ahead _ inside =>
      rw [lexical, if_neg inside]
      exact ih straight rfl
    | @enter here name ahead =>
      have hlexical : lexical (here ++ [name]) ahead = some root :=
        ih (fun hcrosses => straight (.inr hcrosses)) rfl
      exact hlexical
    | @find here name ahead =>
      have hlexical : lexical (here ++ [name]) ahead = some root :=
        ih (fun hcrosses => straight (.inr hcrosses)) rfl
      exact hlexical
    | follow _ link => exact absurd (.inl ⟨_, link⟩) straight

/-- Steps that go up lead somewhere below the root before. -/
theorem lexical_before {before after : List (Step α)} {there : List α}
    (h : lexical here (before ++ .up :: after) = some there) :
    ∃ dir, lexical here before = some dir ∧ dir ≠ [] := by
  induction before generalizing here with
  | nil =>
    refine ⟨here, rfl, fun hroot => ?_⟩
    rw [List.nil_append, lexical, if_pos hroot] at h
    exact nomatch h
  | cons s before ih =>
    cases s with
    | stay => exact ih h
    | down name => exact ih h
    | up =>
      rw [List.cons_append, lexical] at h
      split at h
      · exact nomatch h
      · rename_i hroot
        obtain ⟨dir, hdir, hne⟩ := ih h
        exact ⟨dir, by rwa [lexical, if_neg hroot], hne⟩

/-- Steps that lexically stay in the tree overstep only behind a link. -/
theorem oversteps_iff {there : List α} (h : lexical here steps = some there) :
    Oversteps nodes here steps ↔ ∃ before after, steps = before ++ .up :: after ∧
      Crosses nodes here before ∧ Reaches nodes ⟨here, before⟩ ⟨[], []⟩ := by
  constructor
  · intro ⟨before, after, hsteps, hroot⟩
    refine ⟨before, after, hsteps, ?_, hroot⟩
    by_contra straight
    rw [hsteps] at h
    obtain ⟨dir, hdir, hne⟩ := lexical_before h
    exact hne (Option.some.inj (hdir.symm.trans (lexical_of_straight straight hroot)))
  · intro ⟨before, after, hsteps, _, hroot⟩
    exact ⟨before, after, hsteps, hroot⟩

omit [DecidableEq α] in
/-- Names of directories lead down. -/
theorem reaches_names {names : List α}
    (directories : ∀ n ≤ names.length, nodes (here ++ names.take n) = some .directory) :
    Reaches nodes ⟨here, names.map .down ++ more⟩ ⟨here ++ names, more⟩ := by
  induction names generalizing here with
  | nil =>
    rw [List.append_nil]
    exact .refl
  | cons name names ih =>
    have first := directories 0 (Nat.zero_le _)
    have second := directories 1 (by simp)
    refine .head (.enter (by simpa using first) (by simpa using second)) ?_
    have hhere : here ++ name :: names = (here ++ [name]) ++ names := by simp
    rw [hhere]
    apply ih
    intro n hn
    have := directories (n + 1) (by simpa using hn)
    rwa [List.take_succ_cons, ← List.singleton_append, ← List.append_assoc] at this

end Data.Links
