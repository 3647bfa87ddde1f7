import Mathlib

/-!
# The greatest of a list

A bounded heap keeps the greatest elements that it is offered: while there is room an element is
pushed, and then it replaces the least one if it is greater. Whatever the order in which they are
offered, what is kept in the end are the greatest (`best_greatest`).

The heap is a list with its least element first.
-/

set_option autoImplicit false

namespace Data.TopK

variable {α κ : Type} [LinearOrder κ] (key : α → κ)

/-- `heapq.heappush`. -/
def heappush (heap : List α) (x : α) : List α := heap.orderedInsert (fun a b => key a ≤ key b) x

/-- `heapq.heapreplace`. -/
def heapreplace (heap : List α) (x : α) : List α := heappush key heap.tail x

/-- A heap of at most `k` elements is offered another one. -/
def offer (k : Nat) (heap : List α) (x : α) : List α :=
  if heap.length < k then heappush key heap x
  else
    match heap with
    | [] => []
    | least :: _ => if key least < key x then heapreplace key heap x else heap

/-- The heap that was offered all elements of a list, the last one first. -/
def best (k : Nat) (all : List α) : List α := all.foldr (fun x heap => offer key k heap x) []

/-- The `k` greatest elements of a list, in descending order. -/
structure Greatest (k : Nat) (all kept : List α) : Prop where
  descending : kept.Pairwise fun a b => key b < key a
  length : kept.length = min k all.length
  subset : kept ⊆ all
  greater : ∀ a ∈ all, a ∉ kept → ∀ b ∈ kept, key a < key b

/-- A heap and what has been dropped. -/
structure Holds (k : Nat) (all heap dropped : List α) : Prop where
  ascending : heap.Pairwise fun a b => key a < key b
  perm : (heap ++ dropped).Perm all
  bounded : heap.length ≤ k
  full : dropped ≠ [] → heap.length = k
  less : ∀ a ∈ dropped, ∀ b ∈ heap, key a < key b

variable {key} {k : Nat} {all heap dropped : List α} {x a : α}

theorem perm_heappush : (heappush key heap x).Perm (x :: heap) :=
  List.perm_orderedInsert _ x heap

theorem mem_heappush : a ∈ heappush key heap x ↔ a = x ∨ a ∈ heap := by
  rw [perm_heappush.mem_iff, List.mem_cons]

theorem heappush_ascending (h : heap.Pairwise fun a b => key a < key b)
    (fresh : ∀ a ∈ heap, key a ≠ key x) :
    (heappush key heap x).Pairwise fun a b => key a < key b := by
  induction heap with
  | nil => exact List.pairwise_singleton _ _
  | cons least rest ih =>
    obtain ⟨hleast, hrest⟩ := List.pairwise_cons.mp h
    have hne := fresh least List.mem_cons_self
    unfold heappush
    rw [List.orderedInsert_cons]
    split_ifs with hle
    · have hlt := lt_of_le_of_ne hle hne.symm
      refine List.pairwise_cons.mpr ⟨fun b hb => ?_, h⟩
      rcases List.mem_cons.mp hb with rfl | hb
      · exact hlt
      · exact hlt.trans (hleast b hb)
    · have hlt := lt_of_not_ge hle
      refine List.pairwise_cons.mpr ⟨fun b hb => ?_, ?_⟩
      · rcases mem_heappush.mp hb with rfl | hb
        · exact hlt
        · exact hleast b hb
      · exact ih hrest fun a ha => fresh a (List.mem_cons_of_mem _ ha)

/-- **An element that is offered** is kept, or it or the least one is dropped. -/
theorem Holds.offer (h : Holds key k all heap dropped) (fresh : ∀ a ∈ all, key a ≠ key x) :
    ∃ dropped', Holds key k (x :: all) (TopK.offer key k heap x) dropped' := by
  have kept : ∀ a ∈ heap, key a ≠ key x := fun a ha =>
    fresh a (h.perm.subset (List.mem_append_left _ ha))
  unfold TopK.offer
  split_ifs with hroom
  · have hnone : dropped = [] := by
      by_contra hne
      exact absurd (h.full hne) (Nat.ne_of_lt hroom)
    subst hnone
    refine ⟨[], heappush_ascending h.ascending kept, ?_, ?_, fun h => absurd rfl h, by simp⟩
    · have hperm := h.perm
      rw [List.append_nil] at hperm ⊢
      exact perm_heappush.trans (hperm.cons x)
    · rw [perm_heappush.length_eq]
      exact hroom
  · have hk : heap.length = k := Nat.le_antisymm h.bounded (Nat.le_of_not_lt hroom)
    cases heap with
    | nil =>
      refine ⟨x :: dropped, h.ascending, ?_, h.bounded, fun _ => hk, by simp⟩
      exact h.perm.cons x
    | cons least rest =>
      obtain ⟨hleast, hrest⟩ := List.pairwise_cons.mp h.ascending
      dsimp only
      split_ifs with hlt
      · -- the least element makes room
        refine ⟨least :: dropped, ?_, ?_, ?_, fun _ => ?_, ?_⟩
        · exact heappush_ascending hrest fun a ha => kept a (List.mem_cons_of_mem _ ha)
        · have hpush : (heapreplace key (least :: rest) x).Perm (x :: rest) := perm_heappush
          refine (hpush.append_right _).trans ?_
          exact (List.perm_middle.trans h.perm).cons x
        · exact perm_heappush.length_eq.trans_le h.bounded
        · exact perm_heappush.length_eq.trans hk
        · intro a ha b hpushed
          have hb : b = x ∨ b ∈ rest := mem_heappush.mp hpushed
          clear hpushed
          rcases List.mem_cons.mp ha with rfl | ha
          · rcases hb with rfl | hb
            · exact hlt
            · exact hleast b hb
          · have ha := h.less a ha
            rcases hb with rfl | hb
            · exact (ha least List.mem_cons_self).trans hlt
            · exact ha b (List.mem_cons_of_mem _ hb)
      · have hlt : key x < key least :=
          lt_of_le_of_ne (le_of_not_gt hlt) (kept least List.mem_cons_self).symm
        refine ⟨x :: dropped, h.ascending, ?_, h.bounded, fun _ => hk, ?_⟩
        · exact List.perm_middle.trans (h.perm.cons x)
        · intro a ha b hb
          rcases List.mem_cons.mp ha with rfl | ha
          · rcases List.mem_cons.mp hb with rfl | hb
            · exact hlt
            · exact hlt.trans (hleast b hb)
          · exact h.less a ha b hb

theorem best_holds (h : (all.map key).Nodup) :
    ∃ dropped, Holds key k all (best key k all) dropped := by
  induction all with
  | nil => exact ⟨[], .nil, .refl _, Nat.zero_le _, fun h => absurd rfl h, by simp⟩
  | cons x all ih =>
    obtain ⟨hx, hall⟩ := List.nodup_cons.mp h
    obtain ⟨dropped, hholds⟩ := ih hall
    exact hholds.offer fun a ha heq => hx (heq ▸ List.mem_map_of_mem ha)

/-- **The heap holds the greatest elements**, whatever the order in which they are offered. -/
theorem best_greatest (h : (all.map key).Nodup) {kept : List α}
    (hperm : kept.Perm (best key k all)) (sorted : kept.Pairwise fun a b => key b ≤ key a) :
    Greatest key k all kept := by
  obtain ⟨dropped, hholds⟩ := @best_holds α κ _ key k all h
  have hall := hholds.perm.length_eq
  rw [List.length_append] at hall
  refine ⟨?_, ?_, ?_, ?_⟩
  · have distinct : kept.Pairwise fun a b => key a ≠ key b := by
      have : (best key k all).Pairwise fun a b => key a ≠ key b := hholds.ascending.imp ne_of_lt
      exact (hperm.pairwise_iff fun h => h.symm).mpr this
    exact (sorted.and distinct).imp fun h => lt_of_le_of_ne h.1 h.2.symm
  · rw [hperm.length_eq]
    have hbound := hholds.bounded
    by_cases hnone : dropped = []
    · rw [hnone, List.length_nil] at hall
      omega
    · have hfull := hholds.full hnone
      omega
  · intro a ha
    exact hholds.perm.subset (List.mem_append_left _ (hperm.subset ha))
  · intro a ha hnot b hb
    rcases List.mem_append.mp (hholds.perm.symm.subset ha) with ha | ha
    · exact absurd (hperm.symm.subset ha) hnot
    · exact hholds.less a ha b (hperm.subset hb)

end Data.TopK
