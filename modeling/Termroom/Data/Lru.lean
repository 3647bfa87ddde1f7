import Mathlib

/-!
# An ordered dictionary as a bounded cache

The entries are a list of keys and values, the longest unused first. `touch` moves an entry to the
end, `put` writes one there, and `trim` drops entries from the front until there are no more than
a bound. Whatever is written is read back, if there is room for one entry at all, and each key
keeps one entry.
-/

set_option autoImplicit false

namespace Data.Lru

variable {κ β : Type}

/-- Each key has one entry. -/
def Distinct (entries : List (κ × β)) : Prop := (entries.map Prod.fst).Nodup

/-! ## 1. Trimming -/

section

variable {entries : List (κ × β)} {bound : Nat} {e : κ × β}

/-- `popitem(last=False)` while there are more than `bound`. -/
def trim (bound : Nat) (entries : List (κ × β)) : List (κ × β) :=
  entries.drop (entries.length - bound)

theorem mem_trim (h : e ∈ trim bound entries) : e ∈ entries := List.mem_of_mem_drop h

theorem Distinct.trim (h : Distinct entries) : Distinct (trim bound entries) :=
  h.sublist ((List.drop_sublist _ _).map _)

theorem length_trim : (trim bound entries).length ≤ bound := by
  unfold trim
  rw [List.length_drop]
  omega

end

/-! ## 2. Entries by key -/

variable [DecidableEq κ]

def get (entries : List (κ × β)) (key : κ) : Option β :=
  (entries.find? fun e => e.1 = key).map Prod.snd

def remove (entries : List (κ × β)) (key : κ) : List (κ × β) := entries.filter fun e => e.1 ≠ key

/-- `move_to_end`, of a key that may be missing. -/
def touch (entries : List (κ × β)) (key : κ) : List (κ × β) :=
  remove entries key ++ entries.filter fun e => e.1 = key

/-- An assignment, and `move_to_end`. -/
def put (entries : List (κ × β)) (key : κ) (value : β) : List (κ × β) :=
  remove entries key ++ [(key, value)]

variable {entries : List (κ × β)} {key : κ} {value : β} {bound : Nat} {e : κ × β}

theorem mem_remove : e ∈ remove entries key ↔ e ∈ entries ∧ e.1 ≠ key := by
  simp [remove]

theorem touch_perm : (touch entries key).Perm entries := by
  have := List.filter_append_perm (fun e : κ × β => decide (e.1 ≠ key)) entries
  simpa [touch, remove] using this

theorem mem_put (h : e ∈ put entries key value) : e = (key, value) ∨ e ∈ entries ∧ e.1 ≠ key := by
  rcases List.mem_append.mp h with h | h
  · exact .inr (mem_remove.mp h)
  · exact .inl (List.mem_singleton.mp h)

theorem get_mem (h : get entries key = some value) : (key, value) ∈ entries := by
  obtain ⟨e, he, rfl⟩ := Option.map_eq_some_iff.mp h
  obtain rfl : e.1 = key := by simpa using List.find?_some he
  exact List.mem_of_find?_eq_some he

theorem get_none (h : get entries key = none) : ∀ e ∈ entries, e.1 ≠ key := by
  intro e he hkey
  exact List.find?_eq_none.mp (Option.map_eq_none_iff.mp h) e he (decide_eq_true hkey)

theorem get_of_mem (distinct : Distinct entries) (h : (key, value) ∈ entries) :
    get entries key = some value := by
  cases hget : get entries key with
  | none => exact absurd rfl (get_none hget _ h)
  | some other =>
    have heq := List.inj_on_of_nodup_map distinct (get_mem hget) h rfl
    rw [(Prod.mk.inj heq).2]

theorem Distinct.remove (h : Distinct entries) : Distinct (Lru.remove entries key) :=
  h.sublist (List.filter_sublist.map _)

theorem Distinct.touch (h : Distinct entries) : Distinct (touch entries key) :=
  (touch_perm.map Prod.fst).nodup_iff.mpr h

theorem Distinct.put (h : Distinct entries) : Distinct (put entries key value) := by
  unfold Distinct Lru.put
  rw [List.map_append, List.map_singleton, List.nodup_append]
  refine ⟨h.remove, List.nodup_singleton _, ?_⟩
  intro a ha b hb heq
  obtain ⟨e, he, rfl⟩ := List.mem_map.mp ha
  exact (mem_remove.mp he).2 (heq.trans (List.mem_singleton.mp hb))

/-- What was written last stays. -/
theorem mem_trim_put (room : 0 < bound) : (key, value) ∈ trim bound (put entries key value) := by
  unfold trim put
  rw [List.drop_append_of_le_length]
  · exact List.mem_append_right _ List.mem_cons_self
  · rw [List.length_append, List.length_singleton]
    omega

end Data.Lru
