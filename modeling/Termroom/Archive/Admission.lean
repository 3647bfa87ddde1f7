import Termroom.Archive.Materialize

/-!
# Admission and materialization

An archive is validated twice: by `validate_zip_archive`, on the names as the archive has them,
and by `materialize_zip_archive`, on the names as they were normalized. What the first accepts
the second takes apart again, and finds the same structure and the same contents. The one
disagreement is about a drive: `_WINDOWS_DRIVE` looks at the beginning of the name, and the
parts that are dropped from it can hide a drive behind them.
-/

set_option autoImplicit false

namespace Termroom.Archive

open Conc Data

variable {archive : ZipArchive} {limits : ArchiveLimits} {filename : Option Text}
variable {manifest : ZipManifest} {pairs : List (Member × ZipEntry)} {raw path : Text}

/-! ## 1. What the normalization drops -/

/-- A part that the normalization keeps. -/
def keeps (part : Text) : Bool := !(part.isEmpty || part = ['.'])

/-- The first part that is kept begins with a letter and a colon. -/
def hidesDrive (rawName : Text) : Bool := ((splitPath rawName).find? keeps).any windowsDrive

theorem memberParts_filter {ps parts : List Text} (h : memberParts raw ps = .ok parts) :
    parts = ps.filter keeps := by
  induction ps generalizing parts with
  | nil => exact (Except.ok.inj h).symm
  | cons part ps ih =>
    unfold memberParts at h
    split at h
    · rename_i hskip
      rw [List.filter_cons_of_neg (by simp [keeps, hskip])]
      exact ih h
    rename_i hkeep
    split at h
    · cases h
    cases hrest : memberParts raw ps with
    | error e =>
      rw [hrest] at h
      cases h
    | ok rest =>
      rw [hrest] at h
      rw [List.filter_cons_of_pos (by simpa [keeps] using hkeep), ← ih hrest]
      exact (Except.ok.inj h).symm

theorem windowsDrive_join {parts : List Text} (h : ∀ part ∈ parts, part ≠ []) :
    windowsDrive (joinPath parts) = parts.head?.any windowsDrive := by
  cases parts with
  | nil => rfl
  | cons part rest =>
    -- a part of one letter is followed by a slash, or by nothing
    cases part with
    | nil => exact absurd rfl (h [] List.mem_cons_self)
    | cons c part =>
      cases rest with
      | nil => simp [joinPath]
      | cons next rest =>
        cases part with
        | nil => simp [joinPath, List.intercalate_cons_cons, windowsDrive]
        | cons d part =>
          by_cases hd : d = ':'
          · simp [joinPath, List.intercalate_cons_cons, windowsDrive, hd]
          · simp [joinPath, List.intercalate_cons_cons, windowsDrive, hd]

/-- The normalized name begins with a drive where the name hides one. -/
theorem normalize_drive (h : normalizeZipMemberPath raw = .ok path) :
    windowsDrive path = hidesDrive raw := by
  unfold normalizeZipMemberPath at h
  obtain ⟨-, h⟩ := reject_bind_ok.mp h
  obtain ⟨-, h⟩ := reject_bind_ok.mp h
  obtain ⟨-, h⟩ := reject_bind_ok.mp h
  obtain ⟨-, h⟩ := reject_bind_ok.mp h
  obtain ⟨parts, hparts, h⟩ := bind_eq_ok.mp h
  obtain ⟨-, h⟩ := reject_bind_ok.mp h
  obtain ⟨-, h⟩ := reject_bind_ok.mp h
  obtain rfl := Except.ok.inj h
  have known := memberParts_ok hparts
  rw [windowsDrive_join fun part hpart => (known part hpart).2.1, memberParts_filter hparts,
    List.head?_filter]
  rfl

theorem Accepted.members_eq (h : Accepted archive limits pairs manifest) :
    archive.members = some (pairs.map Prod.fst) := by
  obtain ⟨total, hopen, -⟩ := h.reopens
  obtain ⟨-, hopen⟩ := reject_bind_ok.mp hopen
  cases hmembers : archive.members with
  | none =>
    rw [hmembers] at hopen
    exact nomatch hopen
  | some members =>
    rw [hmembers] at hopen
    exact congrArg some (Except.ok.inj hopen)

/-- The drives of the manifest are those that the names hide. -/
theorem Accepted.drives_iff (h : Accepted archive limits pairs manifest) :
    (∀ e ∈ manifest.entries, windowsDrive e.relativePath = false) ↔
      ∀ m ∈ archive.members.getD [], hidesDrive m.info.origFilename = false := by
  rw [h.members_eq, Option.getD_some]
  constructor
  · intro plain m hm
    obtain ⟨⟨m, e⟩, hp, rfl⟩ := List.mem_map.mp hm
    rw [← normalize_drive (entryFromInfo_ok (h.entry _ hp)).normalized]
    exact plain e (h.mem_entries.mpr ⟨m, hp⟩)
  · intro plain e he
    obtain ⟨m, hp⟩ := h.mem_entries.mp he
    rw [normalize_drive (entryFromInfo_ok (h.entry _ hp)).normalized]
    exact plain m (List.mem_map.mpr ⟨_, hp, rfl⟩)

/-! ## 2. What the sinks are given -/

variable {E : StageError → Prop}

/-- The program raises such exceptions only. -/
def RaisesOnly {α : Type} (E : StageError → Prop) (p : StageProg α) : Prop :=
  p.Uses (fun _ => True) fun r => ∀ e, r = .error e → E e

/-- A sink that raises such exceptions only, where its chunks raise none of their own. -/
structure Sink.RaisesOnly (sink : Sink) (E : StageError → Prop) : Prop where
  makeDirectory : ∀ directory executable,
    Archive.RaisesOnly E (sink.makeDirectory directory executable)
  writeFile : ∀ path chunks executable size, chunks.stream.failure = none →
    Archive.RaisesOnly E chunks.check →
    Archive.RaisesOnly E (sink.writeFile path chunks executable size)

/-- Such an exception, or what the last handler makes of one. -/
def Handled (E : StageError → Prop) (e : StageError) : Prop :=
  E e ∨ ∃ raised, E raised ∧ e = archiveReadError raised

theorem RaisesOnly.pure {α : Type} {a : α} : RaisesOnly E (Pure.pure a) := fun _ => nofun

theorem RaisesOnly.bind {α β : Type} {p : StageProg α} {f : α → StageProg β}
    (hp : RaisesOnly E p) (hf : ∀ a, RaisesOnly E (f a)) : RaisesOnly E (p >>= f) := by
  apply Prog.uses_bind.mpr
  apply Prog.uses_mono (fun _ h => h) _ hp
  intro r hr
  cases r with
  | ok a => exact hf a
  | error e =>
    intro e' he
    exact hr e' (congrArg _ (Except.error.inj he))

theorem RaisesOnly.handled {α : Type} {p : StageProg α} (h : RaisesOnly E p) :
    RaisesOnly (Handled E) p := Prog.uses_mono (fun _ h => h) (fun _ h e he => .inl (h e he)) h

theorem RaisesOnly.readingZip {α : Type} {p : StageProg α} (h : RaisesOnly E p) :
    RaisesOnly (Handled E) (readingZip p) := by
  apply Prog.uses_bind.mpr
  apply Prog.uses_attempt.mpr
  apply Prog.uses_mono (fun _ h => h) _ h
  intro r hr
  apply Prog.uses_ofExcept.mpr
  intro e he
  cases r with
  | ok a => cases he
  | error raised =>
    right
    exact ⟨raised, hr raised rfl, (Except.error.inj he).symm⟩

theorem makeDirectories_raisesOnly {sink : Sink} {directories : List Text}
    (raises : sink.RaisesOnly E) : RaisesOnly E (makeDirectories sink directories) := by
  induction directories with
  | nil => exact .pure
  | cons directory rest ih => exact (raises.makeDirectory directory none).bind fun _ => ih

theorem Accepted.writeFiles_raisesOnly {sink : Sink} {entries : List ZipEntry} {total : Nat}
    (h : Accepted archive limits pairs manifest) (raises : sink.RaisesOnly E)
    (listed : ∀ e ∈ entries, e ∈ manifest.entries)
    (totalLe : total + totalSize entries ≤ limits.maxTotalBytes) :
    RaisesOnly E (writeFiles sink limits pairs total entries) := by
  induction entries generalizing total with
  | nil => exact .pure
  | cons entry rest ih =>
    have hrest := fun e he => listed e (List.mem_cons_of_mem _ he)
    have htotal : totalSize (entry :: rest) = entry.size + totalSize rest := rfl
    obtain ⟨m, hp⟩ := h.mem_entries.mp (listed entry List.mem_cons_self)
    unfold writeFiles
    split
    · exact ih hrest (by omega)
    · rename_i hkind
      have whole := h.whole _ hp hkind
      have hfile : entry.kind = .file := by
        cases hk : entry.kind with
        | file => rfl
        | directory => exact absurd hk hkind
      have single := (entryFromInfo_ok (h.entry _ hp)).file hfile
      rw [h.found hp]
      dsimp only
      rw [whole.iter single (by show total + entry.size ≤ _; omega)]
      exact (raises.writeFile _ _ _ _ rfl .pure).bind fun _ => ih hrest (by omega)

/-- **An accepted archive is materialized**, up to what the sink raises. -/
theorem Accepted.materialize_raisesOnly {sink : Sink}
    (h : Accepted archive limits pairs manifest) (raises : sink.RaisesOnly E)
    (passes : validateMaterializationManifest manifest limits = .ok ()) :
    RaisesOnly (Handled E) (materializeZipArchive archive manifest sink limits) := by
  unfold materializeZipArchive
  rw [passes, h.reopened]
  show RaisesOnly (Handled E) (do
    makeDirectories sink (requiredDirectories manifest.entries)
    Archive.readingZip (writeFiles sink limits pairs 0 manifest.entries))
  apply (makeDirectories_raisesOnly raises).handled.bind
  intro _
  apply RaisesOnly.readingZip
  apply h.writeFiles_raisesOnly raises fun _ he => he
  rw [Nat.zero_add, ← h.total]
  exact h.totalLe

/-! ## 3. Agreement -/

/-- **Where the two validations agree.** For every archive that is accepted: its manifest is
    accepted again, each of its paths normalizes to itself, and to materialize it raises nothing
    but what the sink raises, which the last handler may turn into an archive that cannot be read,
    if and only if none of the names hides a drive behind the parts that are dropped from it. -/
theorem admission_agrees_iff (h : validateZipArchive archive limits filename = .ok manifest) :
    (validateMaterializationManifest manifest limits = .ok () ∧
      (∀ e ∈ manifest.entries, normalizeZipMemberPath e.relativePath = .ok e.relativePath) ∧
      ∀ (sink : Sink) E, sink.RaisesOnly E →
        RaisesOnly (Handled E) (materializeZipArchive archive manifest sink limits)) ↔
    ∀ m ∈ archive.members.getD [], hidesDrive m.info.origFilename = false := by
  obtain ⟨pairs, h⟩ := accepted h
  rw [← h.drives_iff]
  have passes := h.manifest_passes
  constructor
  · intro agree e he
    have again := agree.2.1 e he
    rw [(h.listed he).strict.normalize] at again
    cases hdrive : windowsDrive e.relativePath with
    | false => rfl
    | true =>
      rw [if_pos hdrive] at again
      exact nomatch again
  · intro plain
    rw [if_neg fun ⟨e, he, hdrive⟩ => nomatch (plain e he).symm.trans hdrive] at passes
    refine ⟨passes, fun e he => ?_, fun sink E raises => h.materialize_raisesOnly raises passes⟩
    rw [(h.listed he).strict.normalize, if_neg (by rw [plain e he]; nofun)]

/-- An archive with one file in its root. -/
theorem admission_agrees_flat :
    validateMaterializationManifest ⟨[greetingEntry "hi.txt"], 2, ['.'], 200⟩
        defaultArchiveLimits = .ok () ∧
      (∀ e ∈ [greetingEntry "hi.txt"],
        normalizeZipMemberPath e.relativePath = .ok e.relativePath) ∧
      ∀ (sink : Sink) E, sink.RaisesOnly E →
        RaisesOnly (Handled E) (materializeZipArchive (archiveOf [greeting "hi.txt"])
          ⟨[greetingEntry "hi.txt"], 2, ['.'], 200⟩ sink defaultArchiveLimits) := by
  have accepted : validateZipArchive (archiveOf [greeting "hi.txt"]) defaultArchiveLimits
      (some "a.zip".toList) = .ok ⟨[greetingEntry "hi.txt"], 2, ['.'], 200⟩ := by
    decide +kernel
  apply (admission_agrees_iff accepted).mpr
  decide +kernel

/-- The drive of `./C:hi.txt` is seen only once the dot is gone. -/
theorem hidden_drive_rejected :
    ∃ manifest, validateZipArchive (archiveOf [greeting "./C:hi.txt"]) defaultArchiveLimits
        (some "a.zip".toList) = .ok manifest ∧
      validateMaterializationManifest manifest defaultArchiveLimits =
        .error ⟨"ZIP entry path must be relative", "zip_path_absolute", some "C:hi.txt".toList⟩ := by
  refine ⟨⟨[{ greetingEntry "C:hi.txt" with archiveName := "./C:hi.txt".toList }], 2, ['.'], 200⟩,
    ?_, ?_⟩
  · decide +kernel
  · decide +kernel

end Termroom.Archive
