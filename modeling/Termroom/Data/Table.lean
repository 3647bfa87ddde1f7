import Mathlib.Data.List.Nodup

/-!
# Keyed rows

A table is the list of its rows, in the order they were inserted, with a primary key `key`.
`find` is the SELECT by primary key and `replace` the UPDATE of one row.

A unique index is a function `index` of the row: two rows with the same primary key are one
row, so what the index asks is that no two keys share a value. Where it is partial (the rows
its WHERE clause leaves out), `index` answers `none`. `clashes` is the check that INSERT and
UPDATE make, and `Indexed` what it keeps.
-/

set_option autoImplicit false

namespace Data.Table

variable {ρ κ ι : Type} [DecidableEq κ] [DecidableEq ι]
variable (key : ρ → κ) (index : ρ → Option ι)

/-! ## 1. Rows by key -/

def find (k : κ) (rows : List ρ) : Option ρ := rows.find? fun r => key r = k

def replace (r : ρ) (rows : List ρ) : List ρ := rows.map fun x => if key x = key r then r else x

variable {key index} {k : κ} {r x : ρ} {rows : List ρ}

theorem find_mem (h : find key k rows = some r) : r ∈ rows := List.mem_of_find?_eq_some h

theorem find_key (h : find key k rows = some r) : key r = k := by
  simpa using List.find?_some h

theorem find_eq_none : find key k rows = none ↔ ∀ r ∈ rows, key r ≠ k := by
  simp [find]

theorem find_of_mem (nodup : (rows.map key).Nodup) (h : r ∈ rows) :
    find key (key r) rows = some r := by
  cases hf : find key (key r) rows with
  | none => exact absurd rfl (find_eq_none.mp hf r h)
  | some s => rw [List.inj_on_of_nodup_map nodup (find_mem hf) h (find_key hf)]

theorem find_append_ne (h : key r ≠ k) : find key k (rows ++ [r]) = find key k rows := by
  simp [find, List.find?_append, h]

theorem find_append_self (h : find key (key r) rows = none) :
    find key (key r) (rows ++ [r]) = some r := by
  unfold find at h ⊢
  rw [List.find?_append, h]
  simp

theorem mem_replace (h : x ∈ replace key r rows) : x = r ∨ x ∈ rows ∧ key x ≠ key r := by
  obtain ⟨y, hy, rfl⟩ := List.mem_map.mp h
  by_cases hk : key y = key r
  · rw [if_pos hk]; exact .inl rfl
  · rw [if_neg hk]; exact .inr ⟨hy, hk⟩

theorem mem_replace_of_ne (h : x ∈ rows) (hk : key x ≠ key r) : x ∈ replace key r rows :=
  List.mem_map.mpr ⟨x, h, if_neg hk⟩

theorem mem_replace_self (h : x ∈ rows) (hk : key x = key r) : r ∈ replace key r rows :=
  List.mem_map.mpr ⟨x, h, if_pos hk⟩

theorem map_key_replace : (replace key r rows).map key = rows.map key := by
  unfold replace
  rw [List.map_map]
  refine List.map_congr_left fun x _ => ?_
  show key (if key x = key r then r else x) = key x
  split
  · rename_i h; exact h.symm
  · rfl

theorem find_replace_ne (h : key r ≠ k) :
    find key k (replace key r rows) = find key k rows := by
  induction rows with
  | nil => rfl
  | cons x rows ih =>
    have ih : (replace key r rows).find? _ = rows.find? _ := ih
    unfold find
    show List.find? _ ((if key x = key r then r else x) :: replace key r rows) = _
    by_cases hx : key x = key r
    · simp [hx, h, ih]
    · rw [if_neg hx, List.find?_cons, List.find?_cons, ih]

theorem find_replace_self (h : find key (key r) rows = some x) :
    find key (key r) (replace key r rows) = some r := by
  induction rows with
  | nil => exact absurd h (by simp [find])
  | cons y rows ih =>
    unfold find at h ih ⊢
    show List.find? _ ((if key y = key r then r else y) :: replace key r rows) = _
    by_cases hy : key y = key r
    · simp [hy]
    · rw [List.find?_cons_of_neg (by simpa using hy)] at h
      simpa [hy] using ih h

theorem find_append_key (hk : key r = k) (h : find key k rows = none) :
    find key k (rows ++ [r]) = some r := by
  subst hk
  exact find_append_self h

theorem find_replace_key (hk : key r = k) (h : find key k rows = some x) :
    find key k (replace key r rows) = some r := by
  subst hk
  exact find_replace_self h

/-- A row is found in every arrangement of the rows. -/
theorem find_perm {rest : List ρ} (h : rows.Perm (r :: rest)) (nodup : (rows.map key).Nodup) :
    find key (key r) rows = some r :=
  find_of_mem nodup (h.mem_iff.mpr List.mem_cons_self)

theorem replace_perm {rest : List ρ} (h : rows.Perm (x :: rest)) (nodup : (rows.map key).Nodup)
    (hk : key x = key r) : (replace key r rows).Perm (r :: rest) := by
  have nodup := (h.map key).nodup_iff.mp nodup
  have others : replace key r rest = rest := by
    unfold replace
    rw [List.map_congr_left, List.map_id]
    intro y hy
    apply if_neg
    intro hyk
    apply (List.nodup_cons.mp nodup).1
    rw [hk, ← hyk]
    exact List.mem_map.mpr ⟨y, hy, rfl⟩
  have moved : (replace key r rows).Perm (replace key r (x :: rest)) := h.map _
  have head : replace key r (x :: rest) = r :: rest := by
    show (if key x = key r then r else x) :: replace key r rest = _
    rw [if_pos hk, others]
  rwa [head] at moved

/-! ## 2. Unique indexes -/

variable (key index)

/-- No two rows of the index share a value. -/
def Indexed (rows : List ρ) : Prop :=
  ∀ a ∈ rows, ∀ b ∈ rows, ∀ i, index a = some i → index b = some i → key a = key b

/-- Another row has the value the index would give `r`. -/
def clashes (r : ρ) (rows : List ρ) : Bool :=
  rows.any fun x => key x ≠ key r && (index x).isSome && index x = index r

variable {key index}

theorem not_clashes {i : ι} (h : clashes key index r rows = false) (hx : x ∈ rows)
    (hi : index x = some i) (hr : index r = some i) : key x = key r := by
  have := List.any_eq_false.mp h x hx
  simpa [hi, hr] using this

theorem clashes_eq_false :
    clashes key index r rows = false ↔
      ∀ x ∈ rows, key x ≠ key r → index x = none ∨ index x ≠ index r := by
  unfold clashes
  rw [List.any_eq_false]
  apply forall₂_congr
  intro x _
  cases index x <;> simp

theorem Indexed.append (h : Indexed key index rows) (hc : clashes key index r rows = false) :
    Indexed key index (rows ++ [r]) := by
  intro a ha b hb i hai hbi
  rcases List.mem_append.mp ha with old | new <;> rcases List.mem_append.mp hb with old' | new'
  · exact h a old b old' i hai hbi
  · obtain rfl := List.mem_singleton.mp new'
    exact not_clashes hc old hai hbi
  · obtain rfl := List.mem_singleton.mp new
    exact (not_clashes hc old' hbi hai).symm
  · rw [List.mem_singleton.mp new, List.mem_singleton.mp new']

theorem Indexed.replace (h : Indexed key index rows) (hc : clashes key index r rows = false) :
    Indexed key index (replace key r rows) := by
  intro a ha b hb i hai hbi
  rcases mem_replace ha with rfl | ⟨old, -⟩ <;> rcases mem_replace hb with rfl | ⟨old', -⟩
  · rfl
  · exact (not_clashes hc old' hbi hai).symm
  · exact not_clashes hc old hai hbi
  · exact h a old b old' i hai hbi

omit [DecidableEq κ] in
/-- **A unique index holds at most one row a value.** -/
theorem Indexed.length_le_one (h : Indexed key index rows) (nodup : (rows.map key).Nodup)
    (i : ι) : (rows.filter fun r => index r = some i).length ≤ 1 := by
  have hnodup : (rows.filter fun r => index r = some i).Nodup := nodup.of_map.filter _
  have hall : ∀ a ∈ rows.filter (fun r => index r = some i),
      ∀ b ∈ rows.filter (fun r => index r = some i), a = b := by
    intro a ha b hb
    obtain ⟨ha, hai⟩ := List.mem_filter.mp ha
    obtain ⟨hb, hbi⟩ := List.mem_filter.mp hb
    exact List.inj_on_of_nodup_map nodup ha hb
      (h a ha b hb i (by simpa using hai) (by simpa using hbi))
  match hl : rows.filter fun r => index r = some i with
  | [] => simp
  | [_] => simp
  | a :: b :: _ =>
    rw [hl] at hnodup hall
    have hab : a = b := hall a (by simp) b (by simp)
    exact absurd hab (by simpa using fun e => (List.nodup_cons.mp hnodup).1 (by simp [e]))

end Data.Table
