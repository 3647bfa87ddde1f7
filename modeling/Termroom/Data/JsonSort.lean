import Mathlib
import Termroom.Data.JsonText

/-!
# JSON values with sorted keys

`sortKeys` is what `json.dumps(sort_keys=True)` writes a value as: the fields of every `dict` in
it stand in the order of their names. Every field still reads as it did (`get_sortedFields`), so
that what is written reads back as the sorted value (`loads_sorted`).
-/

set_option autoImplicit false

namespace Data.Json

/-! ## 1. The sorted value -/

mutual

def sortKeys : Json → Json
  | .arr items => .arr (sortItems items)
  | .obj fields => .obj ((sortFields fields).insertionSort fun a b => a.1 ≤ b.1)
  | value => value

def sortItems : List Json → List Json
  | [] => []
  | item :: items => sortKeys item :: sortItems items

/-- The values of the fields, sorted; the fields stay where they are. -/
def sortFields : List (String × Json) → List (String × Json)
  | [] => []
  | (name, value) :: fields => (name, sortKeys value) :: sortFields fields

end

/-- The fields of a sorted `dict`. -/
def sortedFields (fields : JsonObject) : JsonObject :=
  (sortFields fields).insertionSort fun a b => a.1 ≤ b.1

/-! ## 2. Its fields -/

variable {fields others : JsonObject} {name : String} {items : List Json}

@[simp] theorem sortKeys_obj : sortKeys (.obj fields) = .obj (sortedFields fields) := by
  rw [sortKeys]
  rfl

@[simp] theorem sortKeys_arr : sortKeys (.arr items) = .arr (sortItems items) := by
  rw [sortKeys]

@[simp] theorem sortKeys_str {value : String} : sortKeys (.str value) = .str value := by
  rw [sortKeys] <;> simp

@[simp] theorem sortKeys_float {text : String} : sortKeys (.float text) = .float text := by
  rw [sortKeys] <;> simp

@[simp] theorem sortKeys_int {value : Int} : sortKeys (.int value) = .int value := by
  rw [sortKeys] <;> simp

@[simp] theorem sortKeys_bool {value : Bool} : sortKeys (.bool value) = .bool value := by
  rw [sortKeys] <;> simp

@[simp] theorem sortKeys_null : sortKeys .null = .null := by
  rw [sortKeys] <;> simp

theorem sortItems_eq : sortItems items = items.map sortKeys := by
  induction items with
  | nil => rfl
  | cons item items ih => rw [sortItems, List.map_cons, ih]

theorem map_fst_sortFields : (sortFields fields).map Prod.fst = fields.map Prod.fst := by
  induction fields with
  | nil => rfl
  | cons field fields ih =>
    obtain ⟨name, value⟩ := field
    rw [sortFields, List.map_cons, List.map_cons, ih]

theorem lookup_sortFields :
    (sortFields fields).lookup name = (fields.lookup name).map sortKeys := by
  induction fields with
  | nil => rfl
  | cons field fields ih =>
    obtain ⟨other, value⟩ := field
    rw [sortFields, List.lookup_cons, List.lookup_cons, ih]
    cases name == other <;> rfl

theorem mem_of_lookup {value : Json} (h : fields.lookup name = some value) :
    (name, value) ∈ fields := by
  obtain ⟨before, after, rfl, -⟩ := List.lookup_eq_some_iff.mp h
  exact List.mem_append_right _ List.mem_cons_self

theorem lookup_of_mem {value : Json} (nodup : (fields.map Prod.fst).Nodup)
    (h : (name, value) ∈ fields) : fields.lookup name = some value := by
  induction fields with
  | nil => exact absurd h List.not_mem_nil
  | cons field fields ih =>
    obtain ⟨other, first⟩ := field
    obtain ⟨fresh, nodup⟩ := List.nodup_cons.mp nodup
    rcases List.mem_cons.mp h with heq | hmem
    · obtain ⟨rfl, rfl⟩ := Prod.mk.inj heq
      exact List.lookup_cons_self
    · have hne : (name == other) = false := by
        apply beq_false_of_ne
        intro hname
        have hfresh := List.mem_map_of_mem (f := Prod.fst) hmem
        exact fresh (hname ▸ hfresh)
      rw [List.lookup_cons, hne]
      exact ih nodup hmem

/-- A `dict` of the same fields in another order has the same values. -/
theorem lookup_perm (nodup : (fields.map Prod.fst).Nodup) (h : others.Perm fields) :
    others.lookup name = fields.lookup name := by
  have nodup' : (others.map Prod.fst).Nodup := (h.map Prod.fst).nodup_iff.mpr nodup
  apply Option.ext
  intro value
  constructor
  · intro hvalue
    exact lookup_of_mem nodup (h.mem_iff.mp (mem_of_lookup hvalue))
  · intro hvalue
    exact lookup_of_mem nodup' (h.mem_iff.mpr (mem_of_lookup hvalue))

theorem sortedFields_perm : (sortedFields fields).Perm (sortFields fields) :=
  List.perm_insertionSort _ _

/-- **A field of a sorted `dict`** is the field, sorted. -/
theorem get_sortedFields (nodup : (fields.map Prod.fst).Nodup) :
    get (sortedFields fields) name = sortKeys (get fields name) := by
  have nodup' : ((sortFields fields).map Prod.fst).Nodup := by rwa [map_fst_sortFields]
  rw [get, get, lookup_perm nodup' sortedFields_perm, lookup_sortFields]
  cases fields.lookup name with
  | none => exact sortKeys_null.symm
  | some value => rfl

/-! ## 3. Reading it back -/

variable (float : List Char → String)

theorem readableFields_iff :
    ReadableFields float fields ↔ ∀ field ∈ fields, Readable float field.2 := by
  induction fields with
  | nil => simp [ReadableFields]
  | cons field fields ih =>
    rw [List.forall_mem_cons, ← ih]
    rfl

mutual

theorem readable_sortKeys : (value : Json) →
    Readable float value → Readable float (sortKeys value)
  | .null, h | .bool _, h | .int _, h | .float _, h | .str _, h => by simpa using h
  | .arr items, h => by
    rw [sortKeys_arr]
    exact readable_sortItems items h
  | .obj fields, h => by
    rw [sortKeys_obj]
    constructor
    · rw [(sortedFields_perm.map Prod.fst).nodup_iff, map_fst_sortFields]
      exact h.1
    · rw [readableFields_iff]
      intro field hfield
      exact readable_sortFields fields h.2 field (sortedFields_perm.mem_iff.mp hfield)

theorem readable_sortItems : (items : List Json) → ReadableItems float items →
    ReadableItems float (sortItems items)
  | [], _ => trivial
  | item :: items, h => ⟨readable_sortKeys item h.1, readable_sortItems items h.2⟩

theorem readable_sortFields : (fields : JsonObject) → ReadableFields float fields →
    ∀ field ∈ sortFields fields, Readable float field.2
  | [], _ => by
    intro field hfield
    exact absurd hfield List.not_mem_nil
  | (_, value) :: fields, h => by
    rw [sortFields, List.forall_mem_cons]
    exact ⟨readable_sortKeys value h.1, readable_sortFields fields h.2⟩

end

/-- A newline behind a value is skipped. -/
theorem loads_line {value : Json} (h : Readable float value) :
    loads float (dumps value ++ ['\n']) = some value := by
  have ends : Ends ['\n'] := by
    intro c hc
    obtain rfl := Option.mem_some_iff.mp hc
    decide
  have scan := scanOnce_dumps float value h ((dumps value ++ ['\n']).length + 1) ['\n']
    (by simp; omega) ends
  rw [loads, skip_dumps float h, scan]
  rfl

/-- **What is written with sorted keys reads back** as the sorted value. -/
theorem loads_sorted {value : Json} (h : Readable float value) :
    loads float (dumps (sortKeys value) ++ ['\n']) = some (sortKeys value) :=
  loads_line float (readable_sortKeys float value h)

end Data.Json
