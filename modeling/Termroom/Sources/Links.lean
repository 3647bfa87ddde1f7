import Termroom.Data.Links
import Termroom.Sources.Manifest

/-!
# The links of a materialized Source

`validate_contained_symlink_target` goes through the parts of a target one by one and refuses
one that goes up from the Source root. It takes every part for a directory. Where a part is a
link itself, `..` behind it does not lead back to where the part stands, but to the directory
above wherever the link leads; so links that are accepted one by one lead out of the Source
together (`chained_links_leave`), exactly if one of their targets goes up behind a link to the
root (`links_stay_inside_iff`).
-/

set_option autoImplicit false

namespace Termroom.Sources

open Conc Archive Data.Links
open Data (RawText)

/-! ## 1. Resolving a link -/

/-- A part of a path, as a step. -/
def stepOf (part : RawText) : Step RawText :=
  if part = [] ∨ part = [.char '.'] then .stay
  else if part = [.char '.', .char '.'] then .up
  else .down part

def targetSteps (target : RawText) : List (Step RawText) := (splitTarget target).map stepOf

/-- The names on the way to an entry. -/
def WorkspaceEntry.parts (entry : WorkspaceEntry) : List RawText :=
  (splitPath entry.relativePath).map .ofText

/-- What an entry is materialized as. -/
def WorkspaceEntry.node (entry : WorkspaceEntry) : Node RawText :=
  match entry.linkTarget with
  | some target => .link (targetSteps target)
  | none => if entry.kind = .directory then .directory else .file

/-- The tree that is materialized: the entries, and the directories above them. -/
def materializedNode (entries : List WorkspaceEntry) (path : List RawText) :
    Option (Node RawText) :=
  match entries.find? fun e => e.parts = path with
  | some entry => some entry.node
  | none => if path = [] ∨ ∃ e ∈ entries, path <+: e.parts then some .directory else none

/-- Resolving the path of an entry, from the root of the materialized tree, does not leave it. -/
def StaysInside (entries : List WorkspaceEntry) (link : WorkspaceEntry) : Prop :=
  ¬Escapes (materializedNode entries) ⟨[], link.parts.map .down⟩

/-- The directory that an entry is in. -/
def WorkspaceEntry.directory (entry : WorkspaceEntry) : List RawText := entry.parts.dropLast

/-- The target goes up behind parts that pass through a link and lead to the root. -/
def UpFromRoot (entries : List WorkspaceEntry) (link : WorkspaceEntry) (target : RawText) : Prop :=
  ∃ before after, targetSteps target = before ++ .up :: after ∧
    Crosses (materializedNode entries) link.directory before ∧
    Reaches (materializedNode entries) ⟨link.directory, before⟩ ⟨[], []⟩

/-! ## 2. What is known of an accepted link -/

variable {isalpha : Char → Bool} {entries : List WorkspaceEntry} {excludedPrefixes : List Text}
  {link entry : WorkspaceEntry} {path : Text} {target : RawText}

/-- The stack of the check is where the target leads lexically. -/
theorem targetStack_lexical {stack parts r : List RawText}
    (h : targetStack path stack parts = .ok r) : lexical stack (parts.map stepOf) = some r := by
  induction parts generalizing stack with
  | nil => exact congrArg some (Except.ok.inj h)
  | cons part parts ih =>
    unfold targetStack at h
    rw [List.map_cons, stepOf]
    by_cases hstay : part = [] ∨ part = [.char '.']
    · rw [if_pos hstay] at h ⊢
      exact ih h
    rw [if_neg hstay] at h ⊢
    by_cases hup : part = [.char '.', .char '.']
    · rw [if_pos hup] at h ⊢
      rw [lexical]
      split at h
      · cases h
      · rename_i hroot
        rw [if_neg hroot]
        exact ih h
    · rw [if_neg hup] at h ⊢
      split at h
      · cases h
      · exact ih h

theorem contained_lexical (h : Contained isalpha link.relativePath target) :
    ∃ r, lexical link.directory (targetSteps target) = some r := by
  unfold Contained validateContainedSymlinkTarget at h
  obtain ⟨safe, hsafe, h⟩ := bind_eq_ok.mp h
  obtain ⟨hsame, -⟩ := normalize_ok_iff.mp hsafe
  obtain ⟨-, h⟩ := refuse_bind_ok.mp h
  obtain ⟨stack, hstack, -⟩ := bind_eq_ok.mp h
  rw [hsame] at hstack
  refine ⟨stack, ?_⟩
  rw [WorkspaceEntry.directory, WorkspaceEntry.parts, ← List.map_dropLast]
  exact targetStack_lexical hstack

theorem parts_inj : link.parts = entry.parts ↔ link.relativePath = entry.relativePath := by
  constructor
  · intro h
    apply Data.Split.splitOn_inj
    exact List.map_injective_iff.mpr (fun _ _ => Data.RawText.ofText_inj.mp) h
  · intro h
    rw [WorkspaceEntry.parts, WorkspaceEntry.parts, h]

theorem parts_split : ∃ name, link.parts = link.directory ++ [name] := by
  have nonempty : link.parts ≠ [] := by
    rw [WorkspaceEntry.parts, ne_eq, List.map_eq_nil_iff]
    exact splitPath_ne_nil
  exact ⟨_, (List.dropLast_concat_getLast nonempty).symm⟩

theorem materializedNode_link {at_ : List RawText} {steps : List (Step RawText)}
    (h : materializedNode entries at_ = some (.link steps)) : ∃ e ∈ entries, e.parts = at_ ∧
      ∃ target, e.linkTarget = some target ∧ steps = targetSteps target := by
  unfold materializedNode at h
  split at h
  · rename_i e hfound
    refine ⟨e, List.mem_of_find?_eq_some hfound, by simpa using List.find?_some hfound, ?_⟩
    have h := Option.some.inj h
    unfold WorkspaceEntry.node at h
    split at h
    · rename_i target htarget
      exact ⟨target, htarget, (Node.link.inj h).symm⟩
    · split at h <;> exact absurd h (by simp)
  · split at h <;> exact absurd h (by simp)

/-- What is above an entry is a directory. -/
theorem Buildable.directory_above {n : Nat} (h : Buildable isalpha entries excludedPrefixes)
    (mem : link ∈ entries) (hn : n < link.parts.length) :
    materializedNode entries (link.parts.take n) = some .directory := by
  unfold materializedNode
  cases hfound : entries.find? fun e => e.parts = link.parts.take n with
  | none => exact if_pos (.inr ⟨link, mem, List.take_prefix _ _⟩)
  | some e =>
    have hpath : e.parts = link.parts.take n := by simpa using List.find?_some hfound
    have he := List.mem_of_find?_eq_some hfound
    have hbelow : Below e.relativePath link.relativePath := by
      unfold WorkspaceEntry.parts at hpath hn
      rw [← List.map_take] at hpath
      have hsplit := List.map_injective_iff.mpr (fun _ _ => Data.RawText.ofText_inj.mp) hpath
      refine below_iff.mpr ⟨(splitPath link.relativePath).drop n, ?_, ?_⟩
      · rw [ne_eq, List.drop_eq_nil_iff]
        simpa using hn
      · rw [hsplit, List.take_append_drop]
    have hkind : e.kind = .directory := by
      by_contra hother
      exact h.unnested e he link mem hother hbelow
    have hlink := (h.admissible e he).unlinked (by simp [hkind])
    simp [WorkspaceEntry.node, hlink, hkind]

section accepted

variable (h : Buildable isalpha entries excludedPrefixes) (mem : link ∈ entries)
  (htarget : link.linkTarget = some target)

include h mem htarget

theorem Buildable.isLink : link.kind = .symlink := by
  by_contra hkind
  exact absurd (htarget.symm.trans ((h.admissible link mem).unlinked hkind)) (by simp)

theorem Buildable.link_contained : Contained isalpha link.relativePath target := by
  obtain ⟨target', htarget', hcontained⟩ :=
    (h.admissible link mem).link (h.isLink mem htarget)
  obtain rfl := Option.some.inj (htarget.symm.trans htarget')
  exact hcontained

theorem Buildable.node_eq :
    materializedNode entries link.parts = some (.link (targetSteps target)) := by
  unfold materializedNode
  cases hfound : entries.find? fun e => e.parts = link.parts with
  | none =>
    have := List.find?_eq_none.mp hfound link mem
    simp at this
  | some e =>
    have hpath : e.parts = link.parts := by simpa using List.find?_some hfound
    have hmem := List.mem_of_find?_eq_some hfound
    obtain rfl := List.inj_on_of_nodup_map h.distinct hmem mem (parts_inj.mp hpath)
    simp [WorkspaceEntry.node, htarget]

/-- The resolution of a link goes on from its own directory by its target. -/
theorem Buildable.resolves : Reaches (materializedNode entries)
    ⟨[], link.parts.map .down⟩ ⟨link.directory, targetSteps target⟩ := by
  obtain ⟨name, hname⟩ := @parts_split link
  have hlength : link.parts.length = link.directory.length + 1 := by
    rw [hname, List.length_append]
    rfl
  have hlink := h.node_eq mem htarget
  rw [hname] at hlink
  have above : ∀ n ≤ link.directory.length,
      materializedNode entries ([] ++ link.directory.take n) = some .directory := by
    intro n hn
    have habove := h.directory_above mem (n := n) (by omega)
    rwa [hname, List.take_append_of_le_length hn] at habove
  rw [hname, List.map_append]
  refine .tail (reaches_names above) ?_
  have inDirectory := above _ (Nat.le_refl _)
  rw [List.take_length] at inDirectory
  have hmove := @Moves.follow _ (materializedNode entries) link.directory name [] _ inDirectory hlink
  rwa [List.append_nil] at hmove

theorem Buildable.staysInside_iff : StaysInside entries link ↔
    ¬Escapes (materializedNode entries) ⟨link.directory, targetSteps target⟩ :=
  not_congr (Escapes.later (h.resolves mem htarget))

theorem Buildable.upFromRoot_iff : UpFromRoot entries link target ↔
    Oversteps (materializedNode entries) link.directory (targetSteps target) := by
  obtain ⟨there, hlexical⟩ := contained_lexical (h.link_contained mem htarget)
  exact (oversteps_iff hlexical).symm

end accepted

/-! ## 3. Links together -/

/-- **The links of an accepted manifest stay in the Source, if and only if no target goes up
    behind a link to the root.** -/
theorem links_stay_inside_iff {manifest : WorkspaceManifest}
    (h : buildWorkspaceManifest isalpha entries excludedPrefixes = .ok manifest) :
    (∀ link ∈ manifest.entries, link.kind = .symlink → StaysInside manifest.entries link) ↔
      ∀ link ∈ manifest.entries, ∀ target, link.linkTarget = some target →
        ¬UpFromRoot manifest.entries link target := by
  obtain ⟨hbuildable, rfl⟩ := build_ok_iff.mp h
  have hlisted := hbuildable.again
  generalize (manifestOf entries excludedPrefixes).entries = listed at hlisted ⊢
  -- what holds of all links holds of all entries that have a target
  have all (P : List RawText → List (Step RawText) → Prop) :
      (∀ dir name steps, materializedNode listed (dir ++ [name]) = some (.link steps) →
        P dir steps) ↔
        ∀ link ∈ listed, ∀ target, link.linkTarget = some target →
          P link.directory (targetSteps target) := by
    constructor
    · intro hP link mem target htarget
      have hlink := hlisted.node_eq mem htarget
      obtain ⟨name, hname⟩ := @parts_split link
      rw [hname] at hlink
      exact hP _ _ _ hlink
    · intro hP dir name steps hsteps
      obtain ⟨link, mem, hpath, target, htarget, rfl⟩ := materializedNode_link hsteps
      have hdir : link.directory = dir := by
        rw [WorkspaceEntry.directory, hpath, List.dropLast_concat]
      rw [← hdir]
      exact hP link mem target htarget
  have contained := @contained_iff _ (materializedNode listed)
  rw [all fun dir steps => ¬Escapes (materializedNode listed) ⟨dir, steps⟩,
    all fun dir steps => ¬Oversteps (materializedNode listed) dir steps] at contained
  constructor
  · intro hinside
    have hescapes := contained.mp fun link mem target htarget =>
      (hlisted.staysInside_iff mem htarget).mp (hinside link mem (hlisted.isLink mem htarget))
    intro link mem target htarget hup
    exact hescapes link mem target htarget ((hlisted.upFromRoot_iff mem htarget).mp hup)
  · intro hup link mem hkind
    obtain ⟨target, htarget, -⟩ := (hlisted.admissible link mem).link hkind
    have hescapes := contained.mpr fun link mem target htarget hover =>
      hup link mem target htarget ((hlisted.upFromRoot_iff mem htarget).mpr hover)
    exact (hlisted.staysInside_iff mem htarget).mpr (hescapes link mem target htarget)

def linkEntry (path target : String) : WorkspaceEntry :=
  { relativePath := path.toList, kind := .symlink, linkTarget := some (.ofText target.toList) }

/-- `src/current.py` leads up and down again, and to no other link. -/
theorem links_stay_inside_upward : ∃ manifest,
    buildWorkspaceManifest Char.isAlpha [linkEntry "src/current.py" "../main.py"] = .ok manifest ∧
    ∀ link ∈ manifest.entries, link.kind = .symlink → StaysInside manifest.entries link := by
  have built : buildWorkspaceManifest Char.isAlpha [linkEntry "src/current.py" "../main.py"] =
      .ok ⟨[linkEntry "src/current.py" "../main.py"], 0, []⟩ := by decide +kernel
  refine ⟨_, built, (links_stay_inside_iff built).mpr ?_⟩
  intro link mem target htarget ⟨before, after, hsteps, hcrosses, _⟩
  obtain rfl := List.mem_singleton.mp mem
  obtain rfl := Option.some.inj htarget
  -- the only step up is the first one, and nothing is crossed before it
  rw [show targetSteps (.ofText "../main.py".toList) =
    [.up, .down (.ofText "main.py".toList)] by decide +kernel] at hsteps
  cases before with
  | nil => exact hcrosses
  | cons s before =>
    obtain ⟨-, hrest⟩ := List.cons.inj hsteps
    cases before with
    | nil => exact nomatch hrest
    | cons s before => exact absurd (congrArg List.length hrest) (by simp)

/-- `x` leads to the root, so that `x/..` leads above it. -/
def chainedLinks : List WorkspaceEntry := [linkEntry "x" ".", linkEntry "y" "x/.."]

theorem chained_links_leave : ∃ manifest,
    buildWorkspaceManifest Char.isAlpha chainedLinks = .ok manifest ∧
    ¬∀ link ∈ manifest.entries, link.kind = .symlink → StaysInside manifest.entries link := by
  have built : buildWorkspaceManifest Char.isAlpha chainedLinks = .ok ⟨chainedLinks, 0, []⟩ := by
    decide +kernel
  refine ⟨_, built, fun hinside => ?_⟩
  apply hinside (linkEntry "y" "x/..") (by simp [chainedLinks]) rfl
  have root : materializedNode chainedLinks [] = some .directory := by decide +kernel
  have hy : materializedNode chainedLinks [[.char 'y']] = some (.link [.down [.char 'x'], .up]) := by
    decide +kernel
  have hx : materializedNode chainedLinks [[.char 'x']] = some (.link [.stay]) := by decide +kernel
  refine ⟨⟨[], [.up]⟩, ?_, [], rfl⟩
  exact .head (.follow root hy) (.head (.follow root hx) (.head (.stay root) .refl))

end Termroom.Sources
