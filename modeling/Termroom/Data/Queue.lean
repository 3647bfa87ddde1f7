import Mathlib.Data.List.Basic

/-!
# Bounded queues and bounded histories

Two containers with a capacity, which fail in opposite ways. `BoundedQueue` is a FIFO queue
that *refuses* an element when it is full (`put_nowait`); `Ring` is a history that *forgets*
its oldest element (`deque(maxlen=…)`). Both carry their bound as a field, so no later proof
has to re-establish it.

What a ring remembers is its last `cap` pushes and nothing else: `Ring.mem_items` says it
over the whole history of pushes.
-/

set_option autoImplicit false

namespace Data

variable {α : Type _} {cap : Nat}

/-! ## 1. The bounded FIFO queue -/

/-- A FIFO queue of at most `cap` elements, head first. -/
structure BoundedQueue (α : Type _) (cap : Nat) where
  items : List α
  bound : items.length ≤ cap

namespace BoundedQueue

@[ext] theorem ext {q q' : BoundedQueue α cap} (h : q.items = q'.items) : q = q' := by
  cases q; cases q'; cases h; rfl

def empty : BoundedQueue α cap := ⟨[], Nat.zero_le _⟩

def full (q : BoundedQueue α cap) : Bool := q.items.length = cap

/-- Append, or `none` when the queue is full. -/
def putNowait (q : BoundedQueue α cap) (a : α) : Option (BoundedQueue α cap) :=
  if h : q.items.length < cap then
    some ⟨q.items ++ [a], by simpa [Nat.succ_le_iff] using h⟩
  else
    none

/-- Take the head, or `none` when the queue is empty. -/
def getNowait (q : BoundedQueue α cap) : Option (α × BoundedQueue α cap) :=
  match h : q.items with
  | [] => none
  | a :: rest => some (a, ⟨rest, by have := q.bound; simp [h] at this; omega⟩)

@[simp] theorem empty_items : (empty : BoundedQueue α cap).items = [] := rfl

theorem full_iff {q : BoundedQueue α cap} : q.full = true ↔ q.items.length = cap := by
  simp [full]

theorem not_full_iff {q : BoundedQueue α cap} : q.full = false ↔ q.items.length < cap := by
  have := q.bound
  simp [full]; omega

/-- `putNowait` succeeds exactly when there is room, and then appends. -/
theorem putNowait_eq_some {q q' : BoundedQueue α cap} {a : α} :
    q.putNowait a = some q' ↔ q.full = false ∧ q'.items = q.items ++ [a] := by
  rw [not_full_iff, putNowait]
  constructor
  · intro h
    split at h
    · rename_i hlt
      obtain rfl := Option.some.inj h
      exact ⟨hlt, rfl⟩
    · exact absurd h (by simp)
  · rintro ⟨hlt, hq⟩
    rw [dif_pos hlt]
    exact congrArg some (BoundedQueue.ext hq.symm)

theorem putNowait_eq_none {q : BoundedQueue α cap} {a : α} :
    q.putNowait a = none ↔ q.full = true := by
  rw [full_iff, putNowait]
  have := q.bound
  split <;> simp <;> omega

theorem getNowait_eq_some {q q' : BoundedQueue α cap} {a : α} :
    q.getNowait = some (a, q') ↔ q.items = a :: q'.items := by
  rw [getNowait]
  constructor
  · intro h
    split at h
    · exact absurd h (by simp)
    · rename_i b rest hq
      obtain ⟨rfl, rfl⟩ := Prod.mk.inj (Option.some.inj h)
      exact hq
  · intro h
    split
    · rename_i hq; exact absurd (hq.symm.trans h) (by simp)
    · rename_i b rest hq
      obtain ⟨rfl, hr⟩ := List.cons.inj (hq.symm.trans h)
      exact congrArg some (Prod.ext rfl (BoundedQueue.ext hr))

theorem getNowait_eq_none {q : BoundedQueue α cap} : q.getNowait = none ↔ q.items = [] := by
  rw [getNowait]
  split
  · rename_i hq; simp [hq]
  · rename_i b rest hq; simp [hq]

end BoundedQueue

/-! ## 2. The bounded history -/

/-- The last `cap` elements pushed, newest first. -/
structure Ring (α : Type _) (cap : Nat) where
  items : List α
  bound : items.length ≤ cap

namespace Ring

def empty : Ring α cap := ⟨[], Nat.zero_le _⟩

/-- Remember one more element; the oldest falls out once there are `cap`. -/
def push (r : Ring α cap) (a : α) : Ring α cap :=
  ⟨(a :: r.items).take cap, List.length_take_le ..⟩

/-- `r` is what is left of the pushes `history`, newest first. -/
def Holds (r : Ring α cap) (history : List α) : Prop := r.items = history.take cap

theorem holds_empty : (empty : Ring α cap).Holds [] := by simp [Holds, empty]

theorem Holds.push {r : Ring α cap} {history : List α} (h : r.Holds history) (a : α) :
    (r.push a).Holds (a :: history) := by
  cases cap with
  | zero => simp [Holds, Ring.push]
  | succ n =>
    simp only [Holds, Ring.push, List.take_succ_cons] at h ⊢
    rw [h, List.take_take, Nat.min_eq_left (Nat.le_succ n)]

/-- **A ring remembers exactly its last `cap` pushes.** An element is still there iff it was
    pushed with fewer than `cap` pushes after it. -/
theorem Holds.mem_items {r : Ring α cap} {history : List α} (h : r.Holds history) (a : α) :
    a ∈ r.items ↔ ∃ later earlier, history = later ++ a :: earlier ∧ later.length < cap := by
  rw [h, List.mem_iff_append]
  constructor
  · rintro ⟨later, rest, hta⟩
    refine ⟨later, rest ++ history.drop cap, ?_, ?_⟩
    · conv_lhs => rw [← List.take_append_drop cap history, hta]
      simp
    · have hlen : (history.take cap).length ≤ cap := List.length_take_le ..
      rw [hta] at hlen
      simp only [List.length_append, List.length_cons] at hlen
      omega
  · rintro ⟨later, earlier, rfl, hlt⟩
    obtain ⟨k, rfl⟩ : ∃ k, cap = later.length + (k + 1) :=
      ⟨cap - later.length - 1, by omega⟩
    exact ⟨later, earlier.take k, by rw [List.take_length_add_append]; simp⟩

end Ring

end Data
