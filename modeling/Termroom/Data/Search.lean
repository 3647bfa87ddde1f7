import Mathlib.Data.List.Basic
import Mathlib.Logic.Relation
import Mathlib.Tactic.Common

/-!
# Searching a graph

A search from a list of roots along the edges of a finite graph: a stack of what is still to be
looked at, and what has been selected. Nothing is selected twice, so that the search ends on any
graph, and what it selects is what can be reached (`mem_search`), whatever the order of the edges.
-/

set_option autoImplicit false

namespace Data.Search

variable {α : Type} [DecidableEq α]

def successors (edges : List (α × α)) (node : α) : List α :=
  (edges.filter fun edge => edge.1 = node).map Prod.snd

/-- The edges from nodes that have not been selected. -/
def unused (edges : List (α × α)) (selected : List α) : List (α × α) :=
  edges.filter fun edge => edge.1 ∉ selected

/-- Selecting a node uses up its edges. -/
theorem length_unused {edges : List (α × α)} {selected : List α} {node : α}
    (h : node ∉ selected) :
    (unused edges selected).length =
      (unused edges (node :: selected)).length + (successors edges node).length := by
  unfold unused successors
  rw [List.length_map]
  induction edges with
  | nil => rfl
  | cons edge edges ih =>
    by_cases hnode : edge.1 = node
    · simp only [List.filter_cons, hnode, h, List.mem_cons, true_or, not_true_eq_false,
        not_false_eq_true, decide_true, decide_false, if_true, Bool.false_eq_true, if_false,
        List.length_cons] at ih ⊢
      omega
    · by_cases hmem : edge.1 ∈ selected
      · simpa [List.filter_cons, hnode, hmem] using ih
      · simp only [List.filter_cons, hnode, hmem, List.mem_cons, or_self, not_false_eq_true,
          decide_true, decide_false, if_true, Bool.false_eq_true, if_false,
          List.length_cons] at ih ⊢
        omega

/-- What `pending` leads to is added to `selected`. -/
def search (edges : List (α × α)) : (pending selected : List α) → List α
  | [], selected => selected
  | node :: pending, selected =>
    if node ∈ selected then search edges pending selected
    else search edges (successors edges node ++ pending) (node :: selected)
termination_by pending selected => pending.length + (unused edges selected).length
decreasing_by
  · simp only [List.length_cons]
    omega
  · rename_i h
    rw [length_unused h, List.length_append, List.length_cons]
    omega

/-- There is an edge from `a` to `b`. -/
def Edge (edges : List (α × α)) (a b : α) : Prop := (a, b) ∈ edges

variable {edges : List (α × α)} {pending selected : List α} {node other : α}

theorem mem_successors : other ∈ successors edges node ↔ Edge edges node other := by
  unfold successors Edge
  simp

theorem nodup_search (h : selected.Nodup) : (search edges pending selected).Nodup := by
  induction pending, selected using search.induct edges with
  | case1 selected =>
    unfold search
    exact h
  | case2 node pending selected hmem ih =>
    unfold search
    rw [if_pos hmem]
    exact ih h
  | case3 node pending selected hmem ih =>
    unfold search
    rw [if_neg hmem]
    exact ih (List.nodup_cons.mpr ⟨hmem, h⟩)

/-- What leads from selected nodes is selected, or still to be looked at. -/
def Closed (edges : List (α × α)) (pending selected : List α) : Prop :=
  ∀ a ∈ selected, ∀ b, Edge edges a b → b ∈ selected ∨ b ∈ pending

omit [DecidableEq α] in
theorem Closed.skip (h : Closed edges (node :: pending) selected) (hmem : node ∈ selected) :
    Closed edges pending selected := by
  intro a ha b hb
  rcases h a ha b hb with hb | hb
  · exact .inl hb
  · rcases List.mem_cons.mp hb with rfl | hb
    · exact .inl hmem
    · exact .inr hb

theorem Closed.select (h : Closed edges (node :: pending) selected) :
    Closed edges (successors edges node ++ pending) (node :: selected) := by
  intro a ha b hb
  rcases List.mem_cons.mp ha with rfl | ha
  · exact .inr (List.mem_append_left _ (mem_successors.mpr hb))
  · rcases h a ha b hb with hb | hb
    · exact .inl (List.mem_cons_of_mem _ hb)
    · rcases List.mem_cons.mp hb with rfl | hb
      · exact .inl List.mem_cons_self
      · exact .inr (List.mem_append_right _ hb)

theorem subset_search : selected ⊆ search edges pending selected := by
  induction pending, selected using search.induct edges with
  | case1 selected =>
    unfold search
    exact fun _ h => h
  | case2 node pending selected hmem ih =>
    unfold search
    rw [if_pos hmem]
    exact ih
  | case3 node pending selected hmem ih =>
    unfold search
    rw [if_neg hmem]
    exact fun _ h => ih (List.mem_cons_of_mem _ h)

theorem pending_subset_search : pending ⊆ search edges pending selected := by
  induction pending, selected using search.induct edges with
  | case1 selected => exact List.nil_subset _
  | case2 node pending selected hmem ih =>
    unfold search
    rw [if_pos hmem]
    exact List.cons_subset.mpr ⟨subset_search hmem, ih⟩
  | case3 node pending selected hmem ih =>
    unfold search
    rw [if_neg hmem]
    refine List.cons_subset.mpr ⟨subset_search List.mem_cons_self, fun other h => ?_⟩
    exact ih (List.mem_append_right _ h)

theorem closed_search (h : Closed edges pending selected) :
    Closed edges [] (search edges pending selected) := by
  induction pending, selected using search.induct edges with
  | case1 selected =>
    unfold search
    exact h
  | case2 node pending selected hmem ih =>
    unfold search
    rw [if_pos hmem]
    exact ih (h.skip hmem)
  | case3 node pending selected hmem ih =>
    unfold search
    rw [if_neg hmem]
    exact ih h.select

/-- Whatever is selected can be reached, or was selected before. -/
theorem search_reached (h : other ∈ search edges pending selected) :
    other ∈ selected ∨ ∃ root ∈ pending, Relation.ReflTransGen (Edge edges) root other := by
  induction pending, selected using search.induct edges with
  | case1 selected =>
    unfold search at h
    exact .inl h
  | case2 node pending selected hmem ih =>
    unfold search at h
    rw [if_pos hmem] at h
    rcases ih h with hother | ⟨root, hroot, path⟩
    · exact .inl hother
    · exact .inr ⟨root, List.mem_cons_of_mem _ hroot, path⟩
  | case3 node pending selected hmem ih =>
    unfold search at h
    rw [if_neg hmem] at h
    rcases ih h with hother | ⟨root, hroot, path⟩
    · rcases List.mem_cons.mp hother with rfl | hother
      · exact .inr ⟨other, List.mem_cons_self, .refl⟩
      · exact .inl hother
    · rcases List.mem_append.mp hroot with hroot | hroot
      · exact .inr ⟨node, List.mem_cons_self, .head (mem_successors.mp hroot) path⟩
      · exact .inr ⟨root, List.mem_cons_of_mem _ hroot, path⟩

/-- **What a search selects is what can be reached from its roots.** -/
theorem mem_search {roots : List α} : other ∈ search edges roots [] ↔
    ∃ root ∈ roots, Relation.ReflTransGen (Edge edges) root other := by
  constructor
  · intro h
    rcases search_reached h with hnil | reached
    · cases hnil
    · exact reached
  · rintro ⟨root, hroot, path⟩
    have closed : Closed edges [] (search edges roots []) := by
      apply closed_search
      intro a ha
      cases ha
    induction path with
    | refl => exact pending_subset_search hroot
    | tail _ step ih => exact (closed _ ih _ step).resolve_right List.not_mem_nil

end Data.Search
