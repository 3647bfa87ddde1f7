import Mathlib.Tactic.Common

/-!
# Lists split at a separator

`splitOn` cuts a list into its parts, `intercalate` joins parts. A list lies below another one
where it continues it after a separator: its parts then continue the other's.
-/

set_option autoImplicit false

namespace Data.Split

variable {α : Type} {x c : α} {xs ys : List α} {ls ts : List (List α)}

theorem mem_intercalate (h : c ∈ [x].intercalate ls) : c = x ∨ ∃ part ∈ ls, c ∈ part := by
  induction ls with
  | nil => exact absurd h List.not_mem_nil
  | cons part ls ih =>
    cases ls with
    | nil =>
      rw [List.intercalate_singleton] at h
      exact .inr ⟨part, List.mem_cons_self, h⟩
    | cons next ls =>
      rw [List.intercalate_cons_cons, List.append_assoc, List.mem_append, List.mem_append] at h
      rcases h with h | h | h
      · exact .inr ⟨part, List.mem_cons_self, h⟩
      · exact .inl (List.mem_singleton.mp h)
      · refine (ih h).imp_right fun ⟨part', hpart, hc⟩ => ?_
        exact ⟨part', List.mem_cons_of_mem _ hpart, hc⟩

theorem intercalate_append (hls : ls ≠ []) (hts : ts ≠ []) :
    [x].intercalate (ls ++ ts) = [x].intercalate ls ++ x :: [x].intercalate ts := by
  induction ls with
  | nil => exact absurd rfl hls
  | cons part ls ih =>
    cases ls with
    | nil =>
      rw [List.singleton_append, List.intercalate_cons_of_ne_nil hts,
        List.intercalate_singleton, List.append_assoc]
      rfl
    | cons next ls =>
      have ih := ih (List.cons_ne_nil _ _)
      rw [List.cons_append] at ih ⊢
      rw [List.cons_append, List.intercalate_cons_cons, ih, List.intercalate_cons_cons]
      simp only [List.append_assoc]

variable [DecidableEq α]

theorem mem_of_mem_splitOn {part : List α} (hpart : part ∈ xs.splitOn x) (hc : c ∈ part) :
    c ∈ xs := by
  induction xs generalizing part with
  | nil =>
    rw [List.splitOn_nil, List.mem_singleton] at hpart
    exact absurd (hpart ▸ hc) List.not_mem_nil
  | cons a xs ih =>
    rw [List.splitOn_cons_eq_if_modifyHead] at hpart
    split at hpart
    · rcases List.mem_cons.mp hpart with rfl | hpart
      · exact absurd hc List.not_mem_nil
      · exact List.mem_cons_of_mem _ (ih hpart hc)
    · cases hsplit : xs.splitOn x with
      | nil => exact absurd hsplit (List.splitOn_ne_nil _ _)
      | cons head tail =>
        rw [hsplit, List.modifyHead_cons] at hpart
        rcases List.mem_cons.mp hpart with rfl | hpart
        · rcases List.mem_cons.mp hc with rfl | hc
          · exact List.mem_cons_self
          · exact List.mem_cons_of_mem _ (ih (hsplit ▸ List.mem_cons_self) hc)
        · exact List.mem_cons_of_mem _ (ih (hsplit ▸ List.mem_cons_of_mem _ hpart) hc)

theorem notMem_of_mem_splitOn {part : List α} (hpart : part ∈ xs.splitOn x) : x ∉ part := by
  induction xs generalizing part with
  | nil =>
    rw [List.splitOn_nil, List.mem_singleton] at hpart
    exact hpart ▸ List.not_mem_nil
  | cons a xs ih =>
    rw [List.splitOn_cons_eq_if_modifyHead] at hpart
    split at hpart
    · rcases List.mem_cons.mp hpart with rfl | hpart
      · exact List.not_mem_nil
      · exact ih hpart
    · rename_i ha
      cases hsplit : xs.splitOn x with
      | nil => exact absurd hsplit (List.splitOn_ne_nil _ _)
      | cons head tail =>
        rw [hsplit, List.modifyHead_cons] at hpart
        rcases List.mem_cons.mp hpart with rfl | hpart
        · intro hx
          rcases List.mem_cons.mp hx with rfl | hx
          · exact ha (BEq.refl _)
          · exact ih (hsplit ▸ List.mem_cons_self) hx
        · exact ih (hsplit ▸ List.mem_cons_of_mem _ hpart)

theorem splitOn_inj (h : xs.splitOn x = ys.splitOn x) : xs = ys := by
  have joined := congrArg (fun parts => [x].intercalate parts) h
  simpa only [List.intercalate_splitOn] using joined

/-- To continue a list after a separator is to continue its parts. -/
theorem below_iff :
    (xs ++ [x]) <+: ys ↔ ∃ ts, ts ≠ [] ∧ xs.splitOn x ++ ts = ys.splitOn x := by
  constructor
  · rintro ⟨rest, rfl⟩
    refine ⟨rest.splitOn x, List.splitOn_ne_nil _ _, ?_⟩
    rw [List.append_assoc, List.singleton_append, List.splitOn_append_cons_self]
  · rintro ⟨ts, hts, h⟩
    have joined := congrArg (fun parts => [x].intercalate parts) h
    simp only [List.intercalate_splitOn, intercalate_append (List.splitOn_ne_nil _ _) hts]
      at joined
    rw [← joined]
    exact ⟨_, by rw [List.append_assoc]; rfl⟩

/-! ## Parts that come in pieces

A list that comes piece by piece is cut as soon as a separator is there: the parts before the
last one are closed, the last one is open. -/

/-- The parts that a separator closes. -/
def closedParts (x : α) (xs : List α) : List (List α) := (xs.splitOn x).dropLast

/-- What is behind the last separator. -/
def openPart (x : α) (xs : List α) : List α := (xs.splitOn x).getLastD []

theorem closed_open (x : α) (xs : List α) :
    closedParts x xs ++ [openPart x xs] = xs.splitOn x := by
  have h := List.splitOn_ne_nil x xs
  rw [closedParts, openPart, List.getLastD_eq_getLast?, List.getLast?_eq_some_getLast h]
  exact List.dropLast_concat_getLast h

theorem closed_open_unique {part : List α} (h : xs.splitOn x = ls ++ [part]) :
    closedParts x xs = ls ∧ openPart x xs = part := by
  simp [closedParts, openPart, h]

theorem closed_open_of_notMem (h : x ∉ xs) : closedParts x xs = [] ∧ openPart x xs = xs :=
  closed_open_unique (List.splitOn_eq_singleton h)

/-- The cut starts again with what is open. -/
theorem splitOn_append (x : α) (xs ys : List α) :
    (xs ++ ys).splitOn x = closedParts x xs ++ (openPart x xs ++ ys).splitOn x := by
  have join : ∀ (ls : List (List α)) (part : List α), (∀ l ∈ ls, x ∉ l) →
      ([x].intercalate (ls ++ [part]) ++ ys).splitOn x = ls ++ (part ++ ys).splitOn x := by
    intro ls part h
    induction ls with
    | nil => simp
    | cons l ls ih =>
      obtain ⟨hl, hls⟩ := List.forall_mem_cons.mp h
      rw [List.cons_append, List.intercalate_cons_of_ne_nil (by simp), List.append_assoc,
        List.append_assoc, List.singleton_append, List.splitOn_append_cons_self_of_not_mem hl,
        ih hls]
      rfl
  have closed : ∀ l ∈ closedParts x xs, x ∉ l :=
    fun l hl => notMem_of_mem_splitOn (closed_open x xs ▸ List.mem_append_left _ hl)
  have h := join _ (openPart x xs) closed
  rwa [closed_open, List.intercalate_splitOn] at h

/-- **A list in two pieces is cut as in one.** -/
theorem parts_append :
    closedParts x (xs ++ ys) = closedParts x xs ++ closedParts x (openPart x xs ++ ys) ∧
      openPart x (xs ++ ys) = openPart x (openPart x xs ++ ys) := by
  apply closed_open_unique
  rw [splitOn_append, List.append_assoc, closed_open]

theorem parts_cons {part : List α} (h : x ∉ part) :
    closedParts x (part ++ x :: xs) = part :: closedParts x xs ∧
      openPart x (part ++ x :: xs) = openPart x xs := by
  apply closed_open_unique
  rw [List.splitOn_append_cons_self_of_not_mem h, List.cons_append, closed_open]

end Data.Split
