import Mathlib
import Termroom.Archive.Manifest

/-!
# Which archives have an acceptable structure

`_validate_structure` reads the members one after the other, and compares each with those before
it. What it decides does not depend on their order: it is a statement about the members, and about
any two of them (`validateStructure_exact`).
-/

set_option autoImplicit false

namespace Termroom.Archive

open Conc Data

variable {limits : ArchiveLimits} {members others : List Member} {m : Member} {entry : ZipEntry}

/-- What the members that pass the checks on their own come to. -/
def entriesOf (members : List Member) (limits : ArchiveLimits) : List ZipEntry :=
  members.filterMap fun m => (entryFromInfo m.info limits).toOption

/-- What is asked of the members: each is sound on its own, no two have one path, none lies below
    a file, and there are not too many nor too large ones. -/
structure Acceptable (members : List Member) (limits : ArchiveLimits) : Prop where
  sound : ∀ m ∈ members, ∃ entry, entryFromInfo m.info limits = .ok entry
  distinct : ((entriesOf members limits).map ZipEntry.relativePath).Nodup
  unnested : ∀ a ∈ entriesOf members limits, a.kind = .file →
    ∀ b ∈ entriesOf members limits, ¬Below a.relativePath b.relativePath
  count : members.length ≤ limits.maxEntries
  total : totalSize (entriesOf members limits) ≤ limits.maxTotalBytes

/-! ## 1. Any two entries -/

theorem kind_ne_directory : entry.kind ≠ .directory ↔ entry.kind = .file := by
  cases entry.kind <;> simp

theorem pairwise_apart_iff {entries : List ZipEntry} : entries.Pairwise Apart ↔
    (entries.map ZipEntry.relativePath).Nodup ∧
      ∀ a ∈ entries, a.kind = .file → ∀ b ∈ entries, ¬Below a.relativePath b.relativePath := by
  constructor
  · intro apart
    constructor
    · rw [List.Nodup, List.pairwise_map]
      exact apart.imp fun h => h.distinct
    · intro a ha hkind b hb hbelow
      by_cases hab : a = b
      · subst hab
        exact Below.irrefl hbelow
      · exact (apart.forall ha hb hab).notBelow (kind_ne_directory.mpr hkind) hbelow
  · intro ⟨distinct, unnested⟩
    rw [List.Nodup, List.pairwise_map] at distinct
    apply distinct.imp_of_mem
    intro a b ha hb hne
    exact ⟨hne, fun hkind => unnested a ha (kind_ne_directory.mp hkind) b hb,
      fun hkind => unnested b hb (kind_ne_directory.mp hkind) a ha⟩

/-! ## 2. The loop -/

theorem entriesOf_cons (h : entryFromInfo m.info limits = .ok entry) :
    entriesOf (m :: members) limits = entry :: entriesOf members limits := by
  unfold entriesOf
  rw [List.filterMap_cons, h]
  rfl

/-- **What the loop accepts** behind the entries that it has seen. -/
theorem validateEntries_ok_iff {seen : List ZipEntry} {declared : Nat}
    (apart : seen.Pairwise Apart) (fits : declared ≤ limits.maxTotalBytes) :
    (∃ r, validateEntries limits seen declared members = .ok r) ↔
      (∀ m ∈ members, ∃ entry, entryFromInfo m.info limits = .ok entry) ∧
      (seen ++ entriesOf members limits).Pairwise Apart ∧
      declared + totalSize (entriesOf members limits) ≤ limits.maxTotalBytes := by
  induction members generalizing seen declared with
  | nil =>
    constructor
    · intro _
      exact ⟨fun m hm => absurd hm List.not_mem_nil, by simpa [entriesOf] using apart, fits⟩
    · intro _
      exact ⟨_, rfl⟩
  | cons m rest ih =>
    constructor
    · rintro ⟨r, h⟩
      obtain ⟨entry, hentry, h⟩ := bind_eq_ok.mp h
      obtain ⟨⟨⟩, hcheck, h⟩ := bind_eq_ok.mp h
      obtain ⟨hlimit, h⟩ := reject_bind_ok.mp h
      obtain ⟨r, hrest, -⟩ := bind_eq_ok.mp h
      have beside := pairwise_snoc apart ((checkApart_ok_iff apart).mp hcheck)
      obtain ⟨hsound, hapart, htotal⟩ := (ih beside (by omega)).mp ⟨r, hrest⟩
      rw [entriesOf_cons hentry]
      refine ⟨List.forall_mem_cons.mpr ⟨⟨entry, hentry⟩, hsound⟩, ?_, ?_⟩
      · rwa [List.append_assoc] at hapart
      · rw [totalSize, List.map_cons, List.sum_cons, ← Nat.add_assoc]
        exact htotal
    · rintro ⟨hsound, hapart, htotal⟩
      obtain ⟨⟨entry, hentry⟩, hrest⟩ := List.forall_mem_cons.mp hsound
      rw [entriesOf_cons hentry] at hapart htotal
      rw [totalSize, List.map_cons, List.sum_cons, ← Nat.add_assoc] at htotal
      have beside : (seen ++ [entry]).Pairwise Apart := by
        apply List.Pairwise.sublist _ hapart
        exact (List.Sublist.refl seen).append (List.singleton_sublist.mpr List.mem_cons_self)
      have check : ∀ e ∈ seen, Apart e entry := by
        intro e he
        exact (List.pairwise_append.mp hapart).2.2 e he entry List.mem_cons_self
      have fits' : declared + entry.size ≤ limits.maxTotalBytes :=
        Nat.le_trans (Nat.le_add_right _ _) htotal
      obtain ⟨r, hr⟩ := (ih beside fits').mpr ⟨hrest, by rwa [List.append_assoc], htotal⟩
      refine ⟨((m, entry) :: r.1, r.2), bind_eq_ok.mpr ⟨entry, hentry, ?_⟩⟩
      rw [bind_eq_ok]
      refine ⟨(), (checkApart_ok_iff apart).mpr check, ?_⟩
      rw [reject_bind_ok]
      exact ⟨by omega, bind_eq_ok.mpr ⟨r, hr, rfl⟩⟩

theorem validateStructure_ok_iff :
    (∃ r, validateStructure members limits = .ok r) ↔ Acceptable members limits := by
  have loop := @validateEntries_ok_iff limits members [] 0 List.Pairwise.nil (Nat.zero_le _)
  rw [List.nil_append, pairwise_apart_iff, Nat.zero_add] at loop
  unfold validateStructure
  constructor
  · rintro ⟨r, h⟩
    obtain ⟨hcount, h⟩ := reject_bind_ok.mp h
    obtain ⟨hsound, ⟨hdistinct, hunnested⟩, htotal⟩ := loop.mp ⟨r, h⟩
    exact ⟨hsound, hdistinct, hunnested, by omega, htotal⟩
  · intro h
    obtain ⟨r, hr⟩ := loop.mpr ⟨h.sound, ⟨h.distinct, h.unnested⟩, h.total⟩
    exact ⟨r, reject_bind_ok.mpr ⟨Nat.not_lt.mpr h.count, hr⟩⟩

/-! ## 3. The order of the members -/

theorem entriesOf_perm (h : others.Perm members) :
    (entriesOf others limits).Perm (entriesOf members limits) := h.filterMap _

theorem Acceptable.perm (h : Acceptable members limits) (perm : others.Perm members) :
    Acceptable others limits where
  sound := by
    intro m hm
    exact h.sound m (perm.mem_iff.mp hm)
  distinct := (((entriesOf_perm perm).map _).nodup_iff).mpr h.distinct
  unnested := by
    intro a ha hkind b hb
    exact h.unnested a ((entriesOf_perm perm).mem_iff.mp ha) hkind b
      ((entriesOf_perm perm).mem_iff.mp hb)
  count := by
    rw [perm.length_eq]
    exact h.count
  total := by
    unfold totalSize
    rw [((entriesOf_perm perm).map ZipEntry.size).sum_eq]
    exact h.total

/-- **The structure is accepted exactly if the members are acceptable**, in whatever order they
    stand. -/
theorem validateStructure_exact (members : List Member) (limits : ArchiveLimits) :
    ((∃ r, validateStructure members limits = .ok r) ↔ Acceptable members limits) ∧
    ∀ others : List Member, others.Perm members →
      ((∃ r, validateStructure others limits = .ok r) ↔
        ∃ r, validateStructure members limits = .ok r) := by
  refine ⟨validateStructure_ok_iff, ?_⟩
  intro others perm
  rw [validateStructure_ok_iff, validateStructure_ok_iff]
  constructor
  · intro h
    exact h.perm perm.symm
  · intro h
    exact h.perm perm

end Termroom.Archive
