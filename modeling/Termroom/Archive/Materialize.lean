import Termroom.Archive.Sinks

/-!
# Materializing a ZIP archive

`materialize_zip_archive` drives either sink through the entries of an accepted archive: first
every directory that an entry needs, then every file. It calls `make_directory` without the
keyword that the Node's sink requires. **So on a Node it works for no archive with a
directory**; and where a name looks like one with a drive it works on neither side
(`materializes_iff`).

The files are written while the archive is open, and what a sink raises then goes through the
handler for archives that cannot be read: a failure of the backend becomes one of the archive.
-/

set_option autoImplicit false

namespace Termroom.Archive

open Conc Data

/-! ## 1. The producer -/

/-- The loop of `_validate_materialization_manifest`; its result is the total size. -/
def validateManifestEntries (limits : ArchiveLimits) :
    List ZipEntry → Nat → List ZipEntry → Except ArchiveSafetyError Nat
  | _, total, [] => .ok total
  | seen, total, entry :: rest => do
    let path ← normalizeZipMemberPath entry.relativePath
    reject (path ≠ entry.relativePath) "Invalid ZIP materialization manifest" "zip_manifest"
      entry.relativePath
    reject (entry.archiveName = []) "Invalid ZIP materialization metadata" "zip_manifest" path
    reject (entry.kind = .directory ∧ (entry.size ≠ 0 ∨ entry.executable))
      "Invalid ZIP directory metadata" "zip_manifest" path
    reject (entry.kind = .file ∧ limits.maxSingleFileBytes < entry.size)
      "ZIP manifest exceeds the single-file limit" "zip_single_file_limit" path
    checkApart seen entry "ZIP manifest contains a duplicate path"
      "ZIP manifest contains a path conflict" fun _ => "ZIP manifest contains a path conflict"
    reject (limits.maxTotalBytes < total + entry.size) "ZIP manifest exceeds the total-size limit"
      "zip_total_limit" path
    validateManifestEntries limits (seen ++ [entry]) (total + entry.size) rest

/-- `_validate_materialization_manifest`. -/
def validateMaterializationManifest (manifest : ZipManifest) (limits : ArchiveLimits) :
    Except ArchiveSafetyError Unit := do
  reject (limits.maxUploadBytes < manifest.archiveSize) "Invalid ZIP manifest upload size"
    "zip_manifest" none
  reject (limits.maxEntries < manifest.entries.length) "Invalid ZIP manifest entry count"
    "zip_manifest" none
  let total ← validateManifestEntries limits [] 0 manifest.entries
  reject (total ≠ manifest.totalBytes ∨ cwdRel manifest.entries ≠ manifest.cwdRel)
    "Invalid ZIP manifest totals or working directory" "zip_manifest" none

def directoriesOf (entry : ZipEntry) : List Text :=
  let parts := splitPath entry.relativePath
  let parentLimit := if entry.kind = .directory then parts.length else parts.length - 1
  (List.range' 1 parentLimit).map fun index => joinPath (parts.take index)

/-- `_required_directories`. -/
def requiredDirectories (entries : List ZipEntry) : List Text :=
  (entries.flatMap directoriesOf).dedup.insertionSort fun a b =>
    a.count '/' < b.count '/' ∨ a.count '/' = b.count '/' ∧ a ≤ b

/-- The archive is opened and read again. -/
def reopenArchive (archive : ZipArchive) (manifest : ZipManifest) (limits : ArchiveLimits) :
    Except ArchiveSafetyError (List (Member × ZipEntry)) := do
  reject (limits.maxUploadBytes < archive.size) "ZIP upload exceeds the configured limit"
    "zip_upload_limit" none
  reject (archive.size ≠ manifest.archiveSize) "ZIP archive changed after validation"
    "zip_member_changed" none
  let members ← openArchive archive
  let (pairs, _) ← validateStructure members limits
  reject (sortEntries pairs ≠ manifest.entries) "ZIP archive changed after validation"
    "zip_member_changed" none
  return pairs

def makeDirectories (sink : Sink) : List Text → StageProg Unit
  | [] => pure ()
  | directory :: rest => do
    sink.makeDirectory directory none
    makeDirectories sink rest

def writeFiles (sink : Sink) (limits : ArchiveLimits) (pairs : List (Member × ZipEntry)) :
    Nat → List ZipEntry → StageProg Unit
  | _, [] => pure ()
  | actualTotal, entry :: rest =>
    if entry.kind = .directory then writeFiles sink limits pairs actualTotal rest
    else
      -- the last one of a name, as in the dictionary
      match pairs.reverse.find? fun p => p.2.archiveName = entry.archiveName with
      | none => .raise (.key entry.archiveName)
      | some (m, _) => do
        sink.writeFile entry.relativePath ⟨iterInfoChunks m entry limits actualTotal, pure ()⟩
          entry.executable entry.size
        writeFiles sink limits pairs (actualTotal + entry.size) rest

/-- An `EOFError` or a `RuntimeError`, as those of a sink are that its backend raises. -/
def StageError.runtime : StageError → Bool
  | .remoteRun _ _ | .ssh _ | .node _ _ | .remote (.node _ _) => true
  | .remote (.lost runtime) => runtime
  | _ => false

/-- What the last handler of `materialize_zip_archive` makes of an exception. -/
def archiveReadError (e : StageError) : StageError :=
  if e.runtime then .archive (zipReadError .invalid "archive".toList) else e

/-- The `try` around the open archive. -/
def readingZip {S : Sig} {α : Type} (p : Prog S StageError α) : Prog S StageError α := do
  let r ← p.attempt
  .ofExcept (r.mapError archiveReadError)

/-- `materialize_zip_archive`. -/
def materializeZipArchive (archive : ZipArchive) (manifest : ZipManifest) (sink : Sink)
    (limits : ArchiveLimits) : StageProg Unit := do
  .ofExcept ((validateMaterializationManifest manifest limits).mapError .archive)
  makeDirectories sink (requiredDirectories manifest.entries)
  let pairs ← .ofExcept ((reopenArchive archive manifest limits).mapError .archive)
  readingZip (writeFiles sink limits pairs 0 manifest.entries)

/-! ## 2. The manifest passes -/

section manifest

variable {limits : ArchiveLimits} {path : Text}

theorem mem_directoriesOf {entry : ZipEntry} {d : Text} :
    d ∈ directoriesOf entry ↔
      Below d entry.relativePath ∨ entry.kind = .directory ∧ d = entry.relativePath := by
  have length : 0 < (splitPath entry.relativePath).length :=
    List.length_pos_iff.mpr splitPath_ne_nil
  unfold directoriesOf
  rw [← mem_ancestorPaths]
  unfold ancestorPaths
  dsimp only
  split
  · rename_i hkind
    obtain ⟨n, hn⟩ := Nat.exists_eq_succ_of_ne_zero length.ne'
    rw [hn, List.range'_concat, List.map_append, List.mem_append]
    have whole : joinPath ((splitPath entry.relativePath).take (n + 1)) = entry.relativePath := by
      rw [← Nat.succ_eq_add_one, ← hn, List.take_length, join_splitPath]
    simp [hkind, Nat.add_comm 1 n, whole]
  · rename_i hkind
    simp [hkind]

theorem mem_requiredDirectories {entries : List ZipEntry} {d : Text} :
    d ∈ requiredDirectories entries ↔ ∃ e ∈ entries,
      Below d e.relativePath ∨ e.kind = .directory ∧ d = e.relativePath := by
  unfold requiredDirectories
  rw [List.mem_insertionSort, List.mem_dedup, List.mem_flatMap]
  simp only [mem_directoriesOf]

theorem requiredDirectories_eq_nil {entries : List ZipEntry} :
    requiredDirectories entries = [] ↔
      ∀ e ∈ entries, e.kind = .file ∧ '/' ∉ e.relativePath := by
  rw [List.eq_nil_iff_forall_not_mem]
  simp only [mem_requiredDirectories, not_exists, not_and, not_or]
  constructor
  · intro h e he
    refine ⟨?_, fun hslash => ?_⟩
    · have := (h e.relativePath e he).2
      cases hkind : e.kind with
      | file => rfl
      | directory => exact absurd rfl (this hkind)
    · obtain ⟨a, b, hab⟩ := List.append_of_mem hslash
      exact (h a e he).1 ⟨b, by rw [hab, List.append_assoc]; rfl⟩
  · intro h d e he
    obtain ⟨hkind, hslash⟩ := h e he
    refine ⟨?_, fun hdirectory => ?_⟩
    · rintro ⟨b, hb⟩
      refine hslash (hb ▸ ?_)
      simp
    · exact nomatch hkind.symm.trans hdirectory

/-- What the loop asks of an entry by itself. -/
structure Listed (limits : ArchiveLimits) (entry : ZipEntry) : Prop where
  strict : Strict entry.relativePath
  named : entry.archiveName ≠ []
  directory : entry.kind = .directory → entry.size = 0 ∧ entry.executable = false
  file : entry.kind = .file → entry.size ≤ limits.maxSingleFileBytes

/-- **The manifest of an accepted archive passes**, unless a name is taken for one with a
    drive. -/
theorem validateManifestEntries_listed {seen entries : List ZipEntry} {total : Nat}
    (listed : ∀ e ∈ entries, Listed limits e) (apart : (seen ++ entries).Pairwise Apart)
    (totalLe : total + totalSize entries ≤ limits.maxTotalBytes) :
    if ∃ e ∈ entries, windowsDrive e.relativePath = true then
      ∃ e, validateManifestEntries limits seen total entries = .error e
    else validateManifestEntries limits seen total entries = .ok (total + totalSize entries) := by
  induction entries generalizing seen total with
  | nil => simp [validateManifestEntries, totalSize]
  | cons entry rest ih =>
    obtain ⟨hstrict, hnamed, hdirectory, hfile⟩ := listed entry List.mem_cons_self
    have hseen : seen.Pairwise Apart := (List.pairwise_append.mp apart).1
    have hadmitted : ∀ e ∈ seen, Apart e entry :=
      fun e he => (List.pairwise_append.mp apart).2.2 e he entry List.mem_cons_self
    have htotal : totalSize (entry :: rest) = entry.size + totalSize rest := rfl
    unfold validateManifestEntries
    rw [hstrict.normalize]
    by_cases hdrive : windowsDrive entry.relativePath = true
    · rw [if_pos ⟨entry, List.mem_cons_self, hdrive⟩, if_pos hdrive]
      exact ⟨_, rfl⟩
    · have passes := @ih (seen ++ [entry]) (total + entry.size)
        (fun e he => listed e (List.mem_cons_of_mem _ he))
        (by rw [List.append_assoc]; exact apart) (by omega)
      have hkind : ¬(entry.kind = .directory ∧ (entry.size ≠ 0 ∨ entry.executable = true)) := by
        rintro ⟨hk, hs | hx⟩
        · exact hs (hdirectory hk).1
        · cases (hdirectory hk).2.symm.trans hx
      have hsingle : ¬(entry.kind = .file ∧ limits.maxSingleFileBytes < entry.size) :=
        fun h => absurd (hfile h.1) (Nat.not_le_of_lt h.2)
      have step : (∃ e ∈ entry :: rest, windowsDrive e.relativePath = true) ↔
          ∃ e ∈ rest, windowsDrive e.relativePath = true := by
        simp [hdrive]
      rw [if_neg hdrive, ok_bind, reject_neg (not_not.mpr rfl), ok_bind, reject_neg hnamed, ok_bind,
        reject_neg hkind, ok_bind, reject_neg hsingle, ok_bind,
        (checkApart_ok_iff hseen).mpr hadmitted, ok_bind, reject_neg (by omega), ok_bind, htotal,
        ← Nat.add_assoc]
      simp only [step]
      exact passes

variable {archive : ZipArchive} {pairs : List (Member × ZipEntry)} {manifest : ZipManifest}

theorem Accepted.mem_entries {e : ZipEntry} (h : Accepted archive limits pairs manifest) :
    e ∈ manifest.entries ↔ ∃ m, (m, e) ∈ pairs := by
  rw [h.entries, sortEntries_perm.mem_iff, List.mem_map]
  constructor
  · rintro ⟨⟨m, _⟩, hp, rfl⟩
    exact ⟨m, hp⟩
  · rintro ⟨m, hp⟩
    exact ⟨_, hp, rfl⟩

theorem Accepted.apart_entries (h : Accepted archive limits pairs manifest) :
    manifest.entries.Pairwise Apart := by
  rw [h.entries]
  exact (sortEntries_perm.pairwise_iff fun h => Std.Symm.symm _ _ h).mpr h.apart

theorem Accepted.listed (h : Accepted archive limits pairs manifest) {e : ZipEntry}
    (he : e ∈ manifest.entries) : Listed limits e := by
  obtain ⟨m, hp⟩ := h.mem_entries.mp he
  have info := entryFromInfo_ok (h.entry _ hp)
  exact ⟨info.strict, info.named, info.directory, info.file⟩

/-- A pair is determined by the path of its entry. -/
theorem Accepted.pair_inj (h : Accepted archive limits pairs manifest) {p q : Member × ZipEntry}
    (hp : p ∈ pairs) (hq : q ∈ pairs) (same : p.2.relativePath = q.2.relativePath) : p = q := by
  by_contra hne
  have apart : pairs.Pairwise fun p q => Apart p.2 q.2 := List.pairwise_map.mp h.apart
  have symm : Std.Symm fun p q : Member × ZipEntry => Apart p.2 q.2 :=
    ⟨fun _ _ h => Std.Symm.symm _ _ h⟩
  exact (apart.forall hp hq hne).distinct same

/-- Its member is found by its name. -/
theorem Accepted.found (h : Accepted archive limits pairs manifest) {m : Member} {e : ZipEntry}
    (hp : (m, e) ∈ pairs) :
    pairs.reverse.find? (fun p => p.2.archiveName = e.archiveName) = some (m, e) := by
  cases hfound : pairs.reverse.find? fun p => p.2.archiveName = e.archiveName with
  | none =>
    have := List.find?_eq_none.mp hfound _ (List.mem_reverse.mpr hp)
    exact absurd (decide_eq_true rfl) this
  | some q =>
    have hq := List.mem_reverse.mp (List.mem_of_find?_eq_some hfound)
    have hname : q.2.archiveName = e.archiveName := by simpa using List.find?_some hfound
    have hinfo := entryFromInfo_ok (h.entry q hq)
    have einfo := entryFromInfo_ok (h.entry _ hp)
    have normalized := hinfo.normalized
    rw [← hinfo.archiveName, hname, einfo.archiveName, einfo.normalized] at normalized
    rw [h.pair_inj hq hp (Except.ok.inj normalized).symm]

theorem Accepted.manifest_passes (h : Accepted archive limits pairs manifest) :
    if ∃ e ∈ manifest.entries, windowsDrive e.relativePath = true then
      ∃ e, validateMaterializationManifest manifest limits = .error e
    else validateMaterializationManifest manifest limits = .ok () := by
  have size : ¬limits.maxUploadBytes < manifest.archiveSize := by
    rw [h.archiveSize]
    exact Nat.not_lt_of_le h.size
  have entries := @validateManifestEntries_listed limits [] manifest.entries 0
    (fun e he => h.listed he) h.apart_entries (by rw [Nat.zero_add, ← h.total]; exact h.totalLe)
  rw [Nat.zero_add, ← h.total] at entries
  unfold validateMaterializationManifest
  rw [reject_neg size, ok_bind, reject_neg (Nat.not_lt_of_le h.count), ok_bind]
  split
  · rename_i hdrive
    rw [if_pos hdrive] at entries
    obtain ⟨e, he⟩ := entries
    exact ⟨e, by rw [he, error_bind]⟩
  · rename_i hdrive
    rw [if_neg hdrive] at entries
    rw [entries, ok_bind]
    refine reject_neg ?_
    rintro (hne | hne)
    · exact hne rfl
    · exact hne h.cwd.symm

theorem Accepted.reopened (h : Accepted archive limits pairs manifest) :
    reopenArchive archive manifest limits = .ok pairs := by
  obtain ⟨total, hopen, hstructure⟩ := h.reopens
  unfold reopenArchive
  rw [reject_neg (Nat.not_lt_of_le h.size), ok_bind, reject_neg (not_not.mpr h.archiveSize.symm),
    ok_bind, hopen, ok_bind, hstructure, ok_bind]
  dsimp only
  rw [reject_neg (not_not.mpr h.entries.symm), ok_bind]
  rfl

end manifest

/-! ## 3. Driving a sink -/

section drive

variable {isalpha : Char → Bool} {s : Stage} {limits : ArchiveLimits} {archive : ZipArchive}
variable {pairs : List (Member × ZipEntry)} {manifest : ZipManifest}
variable {D : Path → Prop} {F : Path → StagedNode → Prop}

theorem Shows.congrFiles {F' : Path → StagedNode → Prop} {tree : StagedTree} (h : Shows D F tree)
    (hF : ∀ path node, F path node ↔ F' path node) : Shows D F' tree :=
  ⟨fun path node => by rw [h.lookup, hF], fun path node hf => h.files path node ((hF ..).mpr hf)⟩

/-- The files of these entries, with the data of their members. -/
def Contents (pairs : List (Member × ZipEntry)) (entries : List ZipEntry) (path : Path)
    (node : StagedNode) : Prop :=
  ∃ p ∈ pairs, p.2 ∈ entries ∧ p.2.kind = .file ∧ splitPath p.2.relativePath = path ∧
    node = .file p.1.data p.2.executable

theorem Accepted.contents_cons (h : Accepted archive limits pairs manifest) {m : Member}
    {entry : ZipEntry} {rest : List ZipEntry} {path : Path} {node : StagedNode}
    (hp : (m, entry) ∈ pairs) (hkind : entry.kind = .file) :
    Contents pairs (entry :: rest) path node ↔
      (path = splitPath entry.relativePath ∧ node = .file m.data entry.executable) ∨
        Contents pairs rest path node := by
  constructor
  · rintro ⟨p, hmem, hentry, hk, rfl, rfl⟩
    rcases List.mem_cons.mp hentry with hentry | hrest
    · obtain rfl := h.pair_inj hmem hp (congrArg ZipEntry.relativePath hentry)
      exact .inl ⟨rfl, rfl⟩
    · exact .inr ⟨p, hmem, hrest, hk, rfl, rfl⟩
  · rintro (⟨rfl, rfl⟩ | ⟨p, hmem, hrest, hk, rfl, rfl⟩)
    · exact ⟨(m, entry), hp, List.mem_cons_self, hkind, rfl, rfl⟩
    · exact ⟨p, hmem, List.mem_cons_of_mem _ hrest, hk, rfl, rfl⟩

theorem contents_directory {entry : ZipEntry} {rest : List ZipEntry} {path : Path}
    {node : StagedNode} (hkind : entry.kind = .directory) :
    Contents pairs (entry :: rest) path node ↔ Contents pairs rest path node := by
  constructor
  · rintro ⟨p, hmem, hentry, hk, hrest⟩
    rcases List.mem_cons.mp hentry with rfl | hentry
    · exact nomatch hk.symm.trans hkind
    · exact ⟨p, hmem, hentry, hk, hrest⟩
  · rintro ⟨p, hmem, hentry, hrest⟩
    exact ⟨p, hmem, List.mem_cons_of_mem _ hentry, hrest⟩

theorem Accepted.yields (h : Accepted archive limits pairs manifest) {m : Member} {e : ZipEntry}
    {total : Nat} (hp : (m, e) ∈ pairs) (hkind : e.kind = .file)
    (totalLe : total + e.size ≤ limits.maxTotalBytes) :
    Yields isalpha ⟨iterInfoChunks m e limits total, pure ()⟩ m.data := by
  have whole := h.whole _ hp (by rw [hkind]; exact nofun)
  have single := (entryFromInfo_ok (h.entry _ hp)).file hkind
  rw [whole.iter single totalLe]
  exact ⟨fun s R hR => .pure hR, rfl,
    readChunks_flatten limits.positive.2.2.2.2.2 (Nat.le_refl _)⟩

/-- **The loop over the files**: what is staged so far, and a refusal where a name is no good. -/
theorem writeFiles_undisturbed {sink : Sink} {good : Text → Prop} {entries : List ZipEntry}
    {total : Nat} {R : Except StageError Unit → Stage → Prop}
    (h : Accepted archive limits pairs manifest) (writes : WritesFile isalpha sink good)
    (listed : ∀ e ∈ entries, e ∈ manifest.entries) (apart : entries.Pairwise Apart)
    (totalLe : total + totalSize entries ≤ limits.maxTotalBytes) (shows : Shows D F s.tree)
    (vacant : ∀ e ∈ entries, e.kind = .file → Vacant D F e.relativePath)
    (ok : (∀ e ∈ entries, e.kind = .file → good e.relativePath) → ∀ s',
      Shows D (fun q n => F q n ∨ Contents pairs entries q n) s'.tree → R (.ok ()) s')
    (error : (∃ e ∈ entries, e.kind = .file ∧ ¬good e.relativePath) →
      ∀ e s', R (.error e) s') :
    Undisturbed isalpha (writeFiles sink limits pairs total entries) R s := by
  induction entries generalizing s F total with
  | nil =>
    refine .pure (ok nofun s (shows.congrFiles fun path node => ?_))
    simp [Contents]
  | cons entry rest ih =>
    obtain ⟨m, hp⟩ := h.mem_entries.mp (listed entry List.mem_cons_self)
    have hrest := fun e he => listed e (List.mem_cons_of_mem _ he)
    obtain ⟨hapart, apart⟩ := List.pairwise_cons.mp apart
    have htotal : totalSize (entry :: rest) = entry.size + totalSize rest := rfl
    unfold writeFiles
    split
    · rename_i hkind
      have notFile : entry.kind ≠ .file := by rw [hkind]; exact nofun
      refine ih hrest apart (by omega) shows
        (fun e he => vacant e (List.mem_cons_of_mem _ he)) (fun hgood s' hs' => ?_) fun hbad => ?_
      · refine ok ?_ s' (hs'.congrFiles fun path node => by rw [contents_directory hkind])
        intro e he hk
        rcases List.mem_cons.mp he with rfl | he
        · exact absurd hk notFile
        · exact hgood e he hk
      · obtain ⟨e, he, hk, hbad⟩ := hbad
        exact error ⟨e, List.mem_cons_of_mem _ he, hk, hbad⟩
    · rename_i hkind
      have hkind : entry.kind = .file := by
        cases hk : entry.kind with
        | file => rfl
        | directory => exact absurd hk hkind
      have size : m.data.length = entry.size :=
        (h.whole _ hp (by rw [hkind]; exact nofun)).size
      have yields : Yields isalpha ⟨iterInfoChunks m entry limits total, pure ()⟩ m.data :=
        h.yields hp hkind (by omega)
      have free := vacant entry List.mem_cons_self hkind
      rw [h.found hp]
      dsimp only
      by_cases hgood : good entry.relativePath
      · refine .bind ?_
        rw [← size]
        refine writes.writes yields shows free hgood fun s' hs' => ?_
        rw [onResult_ok]
        refine ih hrest apart (by omega) hs' (fun e he hk => ?_)
          (fun hgood' s'' hs'' => ?_) fun hbad => ?_
        · obtain ⟨strict, root, parents, notDirectory, notFile⟩ :=
            vacant e (List.mem_cons_of_mem _ he) hk
          refine ⟨strict, root, parents, notDirectory, fun node hnode => ?_⟩
          rcases hnode with hnode | ⟨hpath, -⟩
          · exact notFile node hnode
          · exact (hapart e he).distinct (Split.splitOn_inj hpath).symm
        · refine ok ?_ s'' (hs''.congrFiles fun path node => ?_)
          · intro e he hk
            rcases List.mem_cons.mp he with rfl | he
            · exact hgood
            · exact hgood' e he hk
          · rw [h.contents_cons hp hkind, or_assoc]
        · obtain ⟨e, he, hk, hbad⟩ := hbad
          exact error ⟨e, List.mem_cons_of_mem _ he, hk, hbad⟩
      · refine .bind (writes.refuses free.strict hgood fun e s' => ?_)
        exact error ⟨entry, List.mem_cons_self, hkind, hgood⟩ e s'

theorem makeDirectories_undisturbed {ds : List Text} {R : Except StageError Unit → Stage → Prop}
    (strict : ∀ d ∈ ds, Strict d) (shows : Shows D (fun _ _ => False) s.tree) (root : D [])
    (h : ∀ s', Shows (fun q => D q ∨ ∃ d ∈ ds, Along [] (splitPath d) q) (fun _ _ => False)
      s'.tree → R (.ok ()) s') :
    Undisturbed isalpha (makeDirectories (cancellableSink sshSink) ds) R s := by
  induction ds generalizing D s with
  | nil => exact .pure (h s (shows.congr fun q => by simp))
  | cons d ds ih =>
    refine .bind (.bind (checkCancel_passes s _ ?_))
    rw [onResult_ok]
    show Undisturbed isalpha (sshMakeDirectory d none) _ s
    refine sshMakeDirectory_undisturbed (strict d List.mem_cons_self) shows root
      (fun _ _ _ hf => hf) fun tree hs' => ?_
    rw [onResult_ok]
    refine ih (fun d hd => strict d (List.mem_cons_of_mem _ hd)) hs' (.inl root)
      fun s'' hs'' => h s'' (hs''.congr fun q => ?_)
    simp [or_assoc]

end drive

/-! ## 4. Calls that Python accepts -/

/-- The program ends in no `TypeError`. -/
def Callable {α : Type} (p : StageProg α) : Prop :=
  p.Uses (fun _ => True) fun r => ∀ message, r ≠ .error (.typeError message)

namespace Callable

variable {α β : Type} {p : StageProg α} {f : α → StageProg β}

theorem pure {a : α} : Callable (Pure.pure a) := fun _ => nofun

theorem raise {e : StageError} (h : ∀ message, e ≠ .typeError message) :
    Callable (.raise e : StageProg α) :=
  fun message he => h message (Except.error.inj he)

theorem ofExcept {r : Except StageError α} (h : ∀ message, r ≠ .error (.typeError message)) :
    Callable (.ofExcept r) := Prog.uses_ofExcept.mpr h

theorem bind (hp : Callable p) (hf : ∀ a, Callable (f a)) : Callable (p >>= f) := by
  refine Prog.uses_bind.mpr (Prog.uses_mono (fun _ h => h) (fun r hr => ?_) hp)
  cases r with
  | ok a => exact hf a
  | error e => exact fun message he => hr message (congrArg _ (Except.error.inj he))

theorem attempt {g : Except StageError α → StageProg β} (hp : Callable p)
    (hg : ∀ r, (∀ message, r ≠ .error (.typeError message)) → Callable (g r)) :
    Callable (p.attempt >>= g) := by
  refine Prog.uses_bind.mpr (Prog.uses_attempt.mpr (Prog.uses_mono (fun _ h => h) ?_ hp))
  exact fun r hr => hg r hr

theorem finally_ {q : StageProg Unit} (hp : Callable p) (hq : Callable q) :
    Callable (p.finally_ q) :=
  attempt hp fun _ hr => bind hq fun _ => ofExcept hr

theorem readingZip (hp : Callable p) : Callable (readingZip p) := by
  unfold Archive.readingZip
  refine attempt hp fun r hr => ofExcept fun message h => ?_
  cases r with
  | ok a => cases h
  | error e =>
    have herror : archiveReadError e = .typeError message := Except.error.inj h
    unfold archiveReadError at herror
    split at herror
    · cases herror
    · exact hr message (congrArg _ herror)

theorem ask {o : StageOp} : Callable (ask o) := ⟨trivial, fun _ _ => nofun⟩

theorem call {o : RemoteOp} : Callable (call o) := by
  refine bind ask fun r => ofExcept fun message h => ?_
  cases r with
  | ok a => exact nomatch h
  | error e => exact nomatch Except.error.inj h

theorem failIf {p : Prop} [Decidable p] {e : StageError} (h : ∀ message, e ≠ .typeError message) :
    Callable (failIf p e) := by
  unfold Archive.failIf
  split
  · exact raise h
  · exact pure

theorem forEach {σ : Type} {chunks : ChunkSource} {body : Bytes → σ → StageProg σ} {x : σ}
    (check : Callable chunks.check) (hbody : ∀ chunk x, Callable (body chunk x)) :
    Callable (chunks.forEach body x) := by
  unfold ChunkSource.forEach
  induction chunks.stream.chunks generalizing x with
  | nil =>
    unfold forChunks
    split
    · exact raise nofun
    · exact check.bind fun _ => pure
  | cons chunk rest ih => exact check.bind fun _ => (hbody chunk x).bind fun _ => ih

end Callable

theorem checkCancel_callable : Callable checkCancel := .bind .ask fun _ => .failIf nofun

theorem validateRunRelativePath_callable {path message} :
    validateRunRelativePath path ≠ .error (.typeError message) := by
  unfold validateRunRelativePath
  repeat' split
  all_goals exact nofun

theorem enterParents_callable {current : Path} {rest : List Text} :
    Callable (enterParents current rest) := by
  induction rest generalizing current with
  | nil => exact .pure
  | cons component rest ih =>
    refine .bind (.attempt .call fun r hr => ?_) fun _ => .bind (.failIf nofun) fun _ => ih
    split
    · exact .pure
    · exact .bind .call fun _ => .call
    · rename_i e _
      exact .raise fun message he => hr message (congrArg _ he)

theorem newRemoteTreePath_callable {relative : Text} : Callable (newRemoteTreePath relative) :=
  .bind (.ofExcept fun _ => validateRunRelativePath_callable) fun _ =>
    .bind (.failIf nofun) fun _ => .bind .call fun _ => .bind (.failIf nofun) fun _ =>
      .bind enterParents_callable fun _ => .pure

theorem sshMakeDirectory_callable {relative : Text} {executable : Option Bool} :
    Callable (sshMakeDirectory relative executable) := by
  refine .bind newRemoteTreePath_callable fun path => .attempt .call fun r hr => ?_
  split
  · exact .failIf nofun
  · exact .call
  · rename_i e _
    exact .raise fun message he => hr message (congrArg _ he)

theorem sshWriteFile_callable {relative : Text} {chunks : ChunkSource} {executable : Bool}
    {size : Nat} (check : Callable chunks.check) :
    Callable (sshWriteFile relative chunks executable size) := by
  refine .bind newRemoteTreePath_callable fun path => .bind .ask fun id => .finally_ ?_ ?_
  · refine .bind .call fun _ => .bind (.finally_ (.forEach check fun chunk total => ?_) .call) ?_
    · refine .bind (.failIf nofun) fun _ => ?_
      split
      · exact .pure
      · exact .bind .call fun _ => .pure
    · exact fun _ => .bind (.failIf nofun) fun _ => .bind .call fun _ => .call
  · exact .attempt .call fun _ _ => .pure

theorem nodeWriteFile_callable {relative : Text} {chunks : ChunkSource} {executable : Bool}
    {size : Nat} (check : Callable chunks.check) :
    Callable (nodeWriteFile relative chunks executable size) := by
  refine .bind .ask fun id => .bind .call fun _ => .attempt ?_ fun r hr => ?_
  · exact .bind (.forEach check fun _ _ => .call) fun _ => .bind .call fun _ => .failIf nofun
  · cases r with
    | ok _ => exact .pure
    | error e =>
      exact .attempt .call fun _ _ => .raise fun message he => hr message (congrArg _ he)

/-- What a sink writes through `_CancellableSink` is accepted where the sink accepts it. -/
theorem writeFiles_callable {sink : Sink} {limits : ArchiveLimits}
    {pairs : List (Member × ZipEntry)} {entries : List ZipEntry} {total : Nat}
    (h : ∀ {path chunks executable size}, Callable chunks.check →
      Callable (sink.writeFile path chunks executable size)) :
    Callable (writeFiles (cancellableSink sink) limits pairs total entries) := by
  induction entries generalizing total with
  | nil => exact .pure
  | cons entry rest ih =>
    unfold writeFiles
    split
    · exact ih
    · split
      · exact .raise nofun
      · refine .bind (.bind checkCancel_callable fun _ => h ?_) fun _ => ih
        exact .bind .pure fun _ => checkCancel_callable

theorem materialize_callable {sink : Sink} {limits : ArchiveLimits} {archive : ZipArchive}
    {manifest : ZipManifest}
    (directories : Callable (makeDirectories (cancellableSink sink)
      (requiredDirectories manifest.entries)))
    (h : ∀ {path chunks executable size}, Callable chunks.check →
      Callable (sink.writeFile path chunks executable size)) :
    Callable (materializeZipArchive archive manifest (cancellableSink sink) limits) := by
  have archived : ∀ {α : Type} (r : Except ArchiveSafetyError α) message,
      r.mapError StageError.archive ≠ .error (.typeError message) := by
    intro α r message hr
    cases r with
    | ok a => exact nomatch hr
    | error e => exact nomatch Except.error.inj hr
  exact .bind (.ofExcept (archived _)) fun _ => .bind directories fun _ =>
    .bind (.ofExcept (archived _)) fun _ => (writeFiles_callable h).readingZip

theorem sshDirectories_callable {ds : List Text} :
    Callable (makeDirectories (cancellableSink sshSink) ds) := by
  induction ds with
  | nil => exact .pure
  | cons d ds ih =>
    exact .bind (.bind checkCancel_callable fun _ =>
      @sshMakeDirectory_callable d none) fun _ => ih

/-! ## 5. Where materialization works -/

section works

variable {isalpha : Char → Bool} {limits : ArchiveLimits} {archive : ZipArchive}
variable {pairs : List (Member × ZipEntry)} {manifest : ZipManifest}

/-- **The trees that are to be staged**: the directories of the manifest, the files of the
    manifest with the data of their members, and nothing else. -/
def Staged (archive : ZipArchive) (limits : ArchiveLimits) (manifest : ZipManifest)
    (tree : StagedTree) : Prop :=
  ∀ path node, tree.lookup path = some node ↔
    (node = .directory ∧
      (path = [] ∨ ∃ d ∈ requiredDirectories manifest.entries, splitPath d = path)) ∨
    ∃ members, archive.members = some members ∧ ∃ m ∈ members, ∃ e ∈ manifest.entries,
      entryFromInfo m.info limits = .ok e ∧ e.kind = .file ∧ splitPath e.relativePath = path ∧
        node = .file m.data e.executable

def emptyTree : StagedTree := Finmap.singleton [] .directory

/-- The staging directory has just been made. -/
def StageWorld.fresh : StageWorld := ⟨⟨emptyTree, fun _ => none⟩, false⟩

/-- Materializing through the sink of this target: Python accepts every call, and if nothing
    interrupts it the tree is staged. -/
def Materializes (isalpha : Char → Bool) (archive : ZipArchive) (manifest : ZipManifest)
    (limits : ArchiveLimits) (target : Target) : Prop :=
  ∀ r v, Exec (StageOp.step isalpha)
      (materializeZipArchive archive manifest target.sink limits) .fresh r v →
    (∀ message, r ≠ .error (.typeError message)) ∧
      (v.interrupted = false → r = .ok () ∧ Staged archive limits manifest v.stage.tree)

/-- The directories of the manifest, as paths. -/
def Directory (manifest : ZipManifest) (path : Path) : Prop :=
  path = [] ∨ ∃ d ∈ requiredDirectories manifest.entries, splitPath d = path

theorem emptyTree_shows : Shows (fun path => path = []) (fun _ _ => False) emptyTree := by
  refine ⟨fun path node => ?_, fun _ _ hf => hf.elim⟩
  by_cases hpath : path = []
  · subst hpath
    simp [emptyTree, eq_comm]
  · have absent : emptyTree.lookup path = none := by
      rw [Finmap.lookup_eq_none]
      exact fun hmem => hpath ((Finmap.mem_singleton _ _ _).mp hmem)
    simp [absent, hpath]

/-- A path along the parts of a name is that name, or it lies above it. -/
theorem along_splitPath {path : Path} {name : Text} (h : Along [] (splitPath name) path) :
    ∃ d, splitPath d = path ∧ (d = name ∨ Below d name) := by
  obtain ⟨q, hq, ⟨ts, hts⟩, rfl⟩ := h
  have slash : ∀ part ∈ path, '/' ∉ part := fun part hpart =>
    notMem_part (hts ▸ List.mem_append_left _ hpart : part ∈ splitPath name)
  refine ⟨joinPath path, splitPath_join slash hq, ?_⟩
  by_cases hnil : ts = []
  · refine .inl ?_
    rw [hnil, List.append_nil] at hts
    rw [hts, join_splitPath]
  · refine .inr (below_iff.mpr ⟨ts, hnil, ?_⟩)
    rw [splitPath_join slash hq, hts]

theorem requiredDirectories_below {entries : List ZipEntry} {a d : Text}
    (hd : d ∈ requiredDirectories entries) (h : Below a d) : a ∈ requiredDirectories entries := by
  obtain ⟨e, he, hbelow⟩ := mem_requiredDirectories.mp hd
  refine mem_requiredDirectories.mpr ⟨e, he, .inl ?_⟩
  rcases hbelow with hbelow | ⟨-, rfl⟩
  · exact h.trans hbelow
  · exact h

theorem Strict.above {a path : Text} (h : Strict path) (hbelow : Below a path) : Strict a := by
  obtain ⟨ts, -, hts⟩ := below_iff.mp hbelow
  exact fun part hpart => h part (hts ▸ List.mem_append_left _ hpart)

theorem Accepted.strict_directory (h : Accepted archive limits pairs manifest) {d : Text}
    (hd : d ∈ requiredDirectories manifest.entries) : Strict d := by
  obtain ⟨e, he, hbelow | ⟨-, rfl⟩⟩ := mem_requiredDirectories.mp hd
  · exact (h.listed he).strict.above hbelow
  · exact (h.listed he).strict

/-- The directories that are made are those of the manifest. -/
theorem directories_iff {path : Path} :
    (path = [] ∨ ∃ d ∈ requiredDirectories manifest.entries, Along [] (splitPath d) path) ↔
      Directory manifest path := by
  refine or_congr_right ⟨?_, ?_⟩
  · rintro ⟨d, hd, halong⟩
    obtain ⟨a, ha, rfl | hbelow⟩ := along_splitPath halong
    · exact ⟨a, hd, ha⟩
    · exact ⟨a, requiredDirectories_below hd hbelow, ha⟩
  · rintro ⟨d, hd, rfl⟩
    exact ⟨d, hd, _, splitPath_ne_nil, List.prefix_rfl, rfl⟩

/-- There is room for every file of the manifest. -/
theorem Accepted.vacant (h : Accepted archive limits pairs manifest) {e : ZipEntry}
    (he : e ∈ manifest.entries) (hkind : e.kind = .file) :
    Vacant (Directory manifest) (fun _ _ => False) e.relativePath where
  strict := (h.listed he).strict
  root := .inl rfl
  parents := by
    intro path halong
    obtain ⟨parents, name, parts⟩ := splitPath_concat e.relativePath
    rw [parts, List.dropLast_concat] at halong
    have whole : Along [] (splitPath e.relativePath) path := parts ▸ along_concat.mpr (.inl halong)
    obtain ⟨d, rfl, rfl | hbelow⟩ := along_splitPath whole
    · obtain ⟨q, -, hprefix, hq⟩ := halong
      have := hprefix.length_le
      rw [List.nil_append] at hq
      rw [← hq, parts, List.length_append, List.length_singleton] at this
      omega
    · exact .inr ⟨d, mem_requiredDirectories.mpr ⟨e, he, .inl hbelow⟩, rfl⟩
  notDirectory := by
    rintro (hnil | ⟨d, hd, hpath⟩)
    · exact splitPath_ne_nil hnil
    · obtain rfl := Split.splitOn_inj hpath
      obtain ⟨e', he', habove⟩ := mem_requiredDirectories.mp hd
      by_cases same : e = e'
      · subst same
        rcases habove with hbelow | ⟨hk, -⟩
        · exact Below.irrefl hbelow
        · exact nomatch hk.symm.trans hkind
      · have apart := h.apart_entries.forall he he' same
        rcases habove with hbelow | ⟨-, hpath⟩
        · exact apart.notBelow (by rw [hkind]; exact nofun) hbelow
        · exact apart.distinct hpath
  notFile := fun _ hf => hf

theorem Accepted.members (h : Accepted archive limits pairs manifest) :
    archive.members = some (pairs.map Prod.fst) := by
  obtain ⟨-, hopen, -⟩ := h.reopens
  obtain ⟨-, hopen⟩ := reject_bind_ok.mp hopen
  split at hopen
  · exact nomatch hopen
  · rename_i members hmembers
    rw [hmembers, Except.ok.inj hopen]

theorem Accepted.staged (h : Accepted archive limits pairs manifest) {tree : StagedTree}
    (shows : Shows (Directory manifest)
      (fun path node => False ∨ Contents pairs manifest.entries path node) tree) :
    Staged archive limits manifest tree := by
  intro path node
  rw [shows.lookup, false_or]
  refine or_congr_right ⟨?_, ?_⟩
  · rintro ⟨p, hp, he, hkind, hpath, hnode⟩
    exact ⟨_, h.members, p.1, List.mem_map_of_mem hp, p.2, he, h.entry p hp, hkind, hpath, hnode⟩
  · rintro ⟨members, hmembers, m, hm, e, he, hentry, hkind, hpath, hnode⟩
    rw [h.members] at hmembers
    obtain rfl := Option.some.inj hmembers
    obtain ⟨p, hp, rfl⟩ := List.mem_map.mp hm
    obtain rfl := Except.ok.inj ((h.entry p hp).symm.trans hentry)
    exact ⟨p, hp, he, hkind, hpath, hnode⟩

theorem readingZip_undisturbed {α : Type} {p : StageProg α} {s : Stage}
    {R : Except StageError α → Stage → Prop}
    (h : Undisturbed isalpha p (fun r s' => R (r.mapError archiveReadError) s') s) :
    Undisturbed isalpha (readingZip p) R s :=
  .attempt (h.mono fun _ _ hr => .ofExcept hr)

/-- From the directories on: every file is staged, or a name is no good to the sink. -/
theorem Accepted.files_undisturbed {sink : Sink} {good : Text → Prop} {s : Stage}
    {R : Except StageError Unit → Stage → Prop} (h : Accepted archive limits pairs manifest)
    (writes : WritesFile isalpha sink good)
    (shows : Shows (Directory manifest) (fun _ _ => False) s.tree)
    (ok : (∀ e ∈ manifest.entries, e.kind = .file → good e.relativePath) → ∀ s',
      Staged archive limits manifest s'.tree → R (.ok ()) s')
    (error : (∃ e ∈ manifest.entries, e.kind = .file ∧ ¬good e.relativePath) →
      ∀ e s', R (.error e) s') :
    Undisturbed isalpha (do
      let pairs ← .ofExcept ((reopenArchive archive manifest limits).mapError .archive)
      readingZip (writeFiles sink limits pairs 0 manifest.entries)) R s := by
  rw [h.reopened]
  refine .bind (.pure ?_)
  rw [onResult_ok]
  refine readingZip_undisturbed (writeFiles_undisturbed h writes (fun _ he => he) h.apart_entries ?_
    shows (fun e he hkind => h.vacant he hkind)
    (fun hgood s' hs' => ok hgood s' (h.staged hs')) fun hbad e s' => error hbad _ s')
  rw [Nat.zero_add, ← h.total]
  exact h.totalLe

/-- **Over SSH** every accepted archive is staged, unless a name is taken for one with a
    drive. -/
theorem Accepted.ssh_undisturbed (h : Accepted archive limits pairs manifest) :
    Undisturbed isalpha (materializeZipArchive archive manifest Target.ssh.sink limits)
      (fun r s' =>
        (r = .ok () ∧ Staged archive limits manifest s'.tree ∧
          ∀ e ∈ manifest.entries, windowsDrive e.relativePath = false) ∨
        (∃ e, r = .error e) ∧ ∃ e ∈ manifest.entries, windowsDrive e.relativePath = true)
      StageWorld.fresh.stage := by
  have passes := h.manifest_passes
  unfold materializeZipArchive
  split at passes
  · rename_i hdrive
    obtain ⟨e, he⟩ := passes
    rw [he]
    exact .bind (.raise (.inr ⟨⟨_, rfl⟩, hdrive⟩))
  · rename_i hdrive
    have plain : ∀ e ∈ manifest.entries, windowsDrive e.relativePath = false :=
      fun e he => Bool.eq_false_iff.mpr fun hd => hdrive ⟨e, he, hd⟩
    rw [passes]
    refine .bind (.pure ?_)
    rw [onResult_ok]
    refine .bind (makeDirectories_undisturbed (fun d hd => h.strict_directory hd) emptyTree_shows
      rfl fun s' hs' => ?_)
    rw [onResult_ok]
    exact h.files_undisturbed (cancellableSink_writes sshSink_writes)
      (hs'.congr fun path => directories_iff) (fun _ s'' hs'' => .inl ⟨rfl, hs'', plain⟩)
      fun ⟨_, _, _, hbad⟩ => absurd trivial hbad

/-- **On a Node** an archive without directories is staged, unless the Node takes a name for an
    absolute one. -/
theorem Accepted.node_undisturbed (h : Accepted archive limits pairs manifest)
    (none : requiredDirectories manifest.entries = []) :
    Undisturbed isalpha (materializeZipArchive archive manifest Target.node.sink limits)
      (fun r s' =>
        (r = .ok () ∧ Staged archive limits manifest s'.tree ∧
          ∀ e ∈ manifest.entries, letterColon isalpha e.relativePath = false) ∨
        (∃ e, r = .error e) ∧ ∃ e ∈ manifest.entries,
          windowsDrive e.relativePath = true ∨ letterColon isalpha e.relativePath = true)
      StageWorld.fresh.stage := by
  have passes := h.manifest_passes
  have files := requiredDirectories_eq_nil.mp none
  unfold materializeZipArchive
  split at passes
  · rename_i hdrive
    obtain ⟨e, he⟩ := passes
    obtain ⟨entry, hentry, hdrive⟩ := hdrive
    rw [he]
    exact .bind (.raise (.inr ⟨⟨_, rfl⟩, entry, hentry, .inl hdrive⟩))
  · rw [passes, none]
    refine .bind (.pure ?_)
    rw [onResult_ok]
    refine .bind (.pure ?_)
    rw [onResult_ok]
    refine h.files_undisturbed (cancellableSink_writes nodeSink_writes)
      (emptyTree_shows.congr fun path => ?_) (fun hgood s'' hs'' => ?_) fun hbad e s' => ?_
    · unfold Directory
      rw [none]
      simp
    · exact .inl ⟨rfl, hs'', fun e he => hgood e he (files e he).1⟩
    · obtain ⟨entry, hentry, -, hbad⟩ := hbad
      exact .inr ⟨⟨e, rfl⟩, entry, hentry, .inr (Bool.not_eq_false _ ▸ hbad)⟩

end works

/-! ## 6. When it works -/

section when

variable {isalpha : Char → Bool} {limits : ArchiveLimits} {archive : ZipArchive}
variable {manifest : ZipManifest} {filename : Option Text}

/-- `uuid4` finds a name that the tree does not have. -/
theorem unused_exists (tree : StagedTree) : ∃ id, Unused id tree := by
  let size (path : Path) : Nat := path.flatten.length
  refine ⟨List.replicate (tree.keys.sup size + 1) 'a', fun path hpath name hname hin => ?_⟩
  have short : name.length ≤ size path := (List.sublist_flatten_of_mem hname).length_le
  have bounded : size path ≤ tree.keys.sup size := Finset.le_sup (Finmap.mem_keys.mpr hpath)
  have long := hin.length_le
  rw [List.length_replicate] at long
  omega

/-- Nothing need interrupt a program. -/
theorem uninterrupted_exists {α : Type} (p : StageProg α) {w : StageWorld}
    (hw : w.interrupted = false) :
    ∃ r v, Exec (StageOp.step isalpha) p w r v ∧ v.interrupted = false := by
  refine @Exec.within _ _ _ _ _ (fun w => w.interrupted = false) (fun o w hw => ?_) p w hw
  cases o with
  | cancelled => exact ⟨false, w, by simp [StageOp.step], hw⟩
  | uuid4 =>
    obtain ⟨id, hid⟩ := unused_exists w.stage.tree
    exact ⟨id, w, ⟨hid, rfl⟩, hw⟩
  | remote o => exact ⟨_, _, .inl ⟨rfl, rfl⟩, hw⟩

theorem Undisturbed.post {α : Type} {p : StageProg α} {Q : Except StageError α → Stage → Prop}
    {s : Stage} {r : Except StageError α} {v : StageWorld} (h : Undisturbed isalpha p Q s)
    (ran : Exec (StageOp.step isalpha) p ⟨s, false⟩ r v) (calm : v.interrupted = false) :
    Q r v.stage := ran.post h calm

/-- Over SSH: unless a name is taken for one with a drive. -/
theorem ssh_materializes_iff (h : validateZipArchive archive limits filename = .ok manifest) :
    Materializes isalpha archive manifest limits .ssh ↔
      ∀ e ∈ manifest.entries, windowsDrive e.relativePath = false := by
  obtain ⟨pairs, h⟩ := accepted h
  constructor
  · intro works
    obtain ⟨r, v, ran, calm⟩ := @uninterrupted_exists isalpha _
      (materializeZipArchive archive manifest Target.ssh.sink limits) StageWorld.fresh rfl
    obtain ⟨rfl, -⟩ := (works r v ran).2 calm
    rcases h.ssh_undisturbed.post ran calm with ⟨-, -, plain⟩ | ⟨⟨e, he⟩, -⟩
    · exact plain
    · exact nomatch he
  · intro plain r v ran
    refine ⟨ran.ends (materialize_callable sshDirectories_callable sshWriteFile_callable),
      fun calm => ?_⟩
    have settled : Undisturbed isalpha _ _ _ := h.ssh_undisturbed
    rcases settled.post ran calm with ⟨hr, hstaged, -⟩ | ⟨-, e, he, hd⟩
    · exact ⟨hr, hstaged⟩
    · exact nomatch (plain e he).symm.trans hd

/-- The first directory is a call that the Node's sink does not accept. -/
theorem node_makeDirectories {d : Text} {ds : List Text} {s : Stage} :
    Undisturbed isalpha (makeDirectories Target.node.sink (d :: ds))
      (fun r _ => ∃ message, r = .error (.typeError message)) s := by
  refine .bind (.bind (checkCancel_passes s _ ?_))
  rw [onResult_ok]
  exact .raise ⟨_, rfl⟩

theorem letterColon_of_windowsDrive {path : Text}
    (letters : ∀ c : Char, c.isAlpha = true → isalpha c = true)
    (h : windowsDrive path = true) : letterColon isalpha path = true := by
  unfold windowsDrive at h
  split at h
  · exact letters _ h
  · exact nomatch h

theorem node_materializes_iff (letters : ∀ c : Char, c.isAlpha = true → isalpha c = true)
    (h : validateZipArchive archive limits filename = .ok manifest) :
    Materializes isalpha archive manifest limits .node ↔
      requiredDirectories manifest.entries = [] ∧
        ∀ e ∈ manifest.entries, letterColon isalpha e.relativePath = false := by
  obtain ⟨pairs, h⟩ := accepted h
  constructor
  · intro works
    obtain ⟨r, v, ran, calm⟩ := @uninterrupted_exists isalpha _
      (materializeZipArchive archive manifest Target.node.sink limits) StageWorld.fresh rfl
    obtain ⟨rfl, -⟩ := (works r v ran).2 calm
    cases hdirectories : requiredDirectories manifest.entries with
    | nil =>
      rcases (h.node_undisturbed hdirectories).post ran calm with ⟨-, -, good⟩ | ⟨⟨e, he⟩, -⟩
      · exact ⟨rfl, good⟩
      · exact nomatch he
    | cons d ds =>
      have fails : Undisturbed isalpha
          (materializeZipArchive archive manifest Target.node.sink limits)
          (fun r _ => ∃ e, r = .error e) StageWorld.fresh.stage := by
        have passes := h.manifest_passes
        unfold materializeZipArchive
        split at passes
        · obtain ⟨e, he⟩ := passes
          rw [he]
          exact .bind (.raise ⟨_, rfl⟩)
        · rw [passes, hdirectories]
          refine .bind (.pure ?_)
          rw [onResult_ok]
          refine .seq node_makeDirectories (fun e s' _ => ⟨e, rfl⟩) fun _ _ hbad => ?_
          obtain ⟨message, hbad⟩ := hbad
          exact nomatch hbad
      obtain ⟨e, he⟩ := fails.post ran calm
      exact nomatch he
  · rintro ⟨hdirectories, good⟩ r v ran
    have callable : Callable (makeDirectories (cancellableSink nodeSink)
        (requiredDirectories manifest.entries)) := by
      rw [hdirectories]
      exact .pure
    refine ⟨ran.ends (materialize_callable callable nodeWriteFile_callable), fun calm => ?_⟩
    rcases (h.node_undisturbed hdirectories).post ran calm with ⟨hr, hstaged, -⟩ | ⟨-, e, he, hbad⟩
    · exact ⟨hr, hstaged⟩
    · have hletter := hbad.elim (letterColon_of_windowsDrive letters) id
      exact nomatch (good e he).symm.trans hletter

/-- **When ZIP preparation works on every target.** For every archive that is accepted: on
    both targets every call is accepted and, unless it is interrupted, the tree is staged, if
    and only if the archive consists of files without a directory, none of which has a name
    that begins with a letter and a colon. -/
theorem materializes_iff (letters : ∀ c : Char, c.isAlpha = true → isalpha c = true)
    (h : validateZipArchive archive limits filename = .ok manifest) :
    (∀ target, Materializes isalpha archive manifest limits target) ↔
      ∀ e ∈ manifest.entries,
        e.kind = .file ∧ '/' ∉ e.relativePath ∧ letterColon isalpha e.relativePath = false := by
  constructor
  · intro works e he
    obtain ⟨hdirectories, good⟩ := (node_materializes_iff letters h).mp (works .node)
    obtain ⟨hkind, hslash⟩ := requiredDirectories_eq_nil.mp hdirectories e he
    exact ⟨hkind, hslash, good e he⟩
  · intro flat target
    cases target with
    | ssh =>
      refine (ssh_materializes_iff h).mpr fun e he => ?_
      rw [Bool.eq_false_iff]
      intro hdrive
      exact nomatch (flat e he).2.2.symm.trans (letterColon_of_windowsDrive letters hdrive)
    | node =>
      refine (node_materializes_iff letters h).mpr ⟨?_, fun e he => (flat e he).2.2⟩
      exact requiredDirectories_eq_nil.mpr fun e he => ⟨(flat e he).1, (flat e he).2.1⟩

end when

/-! ## 7. Two archives -/

/-- A regular file with two bytes in it. -/
def greeting (name : String) : Member where
  info := ⟨name.toList, 0, 0o100644 * 2 ^ 16, [], 2, 2, 0xD8932AAC⟩
  data := [0x68, 0x69]
  failure := none

def archiveOf (members : List Member) : ZipArchive := ⟨200, [0x50, 0x4B, 0x03, 0x04], some members⟩

def greetingEntry (name : String) : ZipEntry :=
  ⟨name.toList, .file, 2, 2, 0xD8932AAC, false, name.toList⟩

/-- A file by itself is staged on every target. -/
theorem materializes_flat :
    Materializes Char.isAlpha (archiveOf [greeting "hi.txt"]) ⟨[greetingEntry "hi.txt"], 2, ['.'], 200⟩
        defaultArchiveLimits .ssh ∧
      Materializes Char.isAlpha (archiveOf [greeting "hi.txt"])
        ⟨[greetingEntry "hi.txt"], 2, ['.'], 200⟩ defaultArchiveLimits .node := by
  have accepted : validateZipArchive (archiveOf [greeting "hi.txt"]) defaultArchiveLimits
      (some "a.zip".toList) = .ok ⟨[greetingEntry "hi.txt"], 2, ['.'], 200⟩ := by
    decide +kernel
  have works := (materializes_iff (fun _ h => h) accepted).mpr fun e he => by
    rw [List.mem_singleton.mp he]
    decide +kernel
  exact ⟨works .ssh, works .node⟩

/-- The cancellation is not set, and nothing else is asked. -/
def calm : (o : StageOp) → StageWorld → Option (o.Ans × StageWorld)
  | .cancelled, w => some (false, w)
  | _, _ => none

theorem calm_sound {o : StageOp} {w v : StageWorld} {a : o.Ans} (h : calm o w = some (a, v)) :
    o.step Char.isAlpha a w v := by
  cases o with
  | cancelled =>
    cases h
    simp [StageOp.step]
  | uuid4 | remote o => exact nomatch h

/-- A file in a directory: the archive is accepted and staged over SSH, and on a Node the first
    call is a `TypeError`. -/
theorem node_typeError :
    ∃ manifest, validateZipArchive (archiveOf [greeting "a/hi.txt"]) defaultArchiveLimits
        (some "a.zip".toList) = .ok manifest ∧
      Materializes Char.isAlpha (archiveOf [greeting "a/hi.txt"]) manifest defaultArchiveLimits .ssh ∧
      (∃ v, Exec (StageOp.step Char.isAlpha) (materializeZipArchive (archiveOf [greeting "a/hi.txt"])
          manifest Target.node.sink defaultArchiveLimits) .fresh (.error (.typeError
            "make_directory() missing 1 required keyword-only argument: 'executable'")) v ∧
        v.interrupted = false) ∧
      ¬Materializes Char.isAlpha (archiveOf [greeting "a/hi.txt"]) manifest defaultArchiveLimits
        .node := by
  let manifest : ZipManifest := ⟨[greetingEntry "a/hi.txt"], 2, ['a'], 200⟩
  have accepted : validateZipArchive (archiveOf [greeting "a/hi.txt"]) defaultArchiveLimits
      (some "a.zip".toList) = .ok manifest := by
    decide +kernel
  have ran : Exec (StageOp.step Char.isAlpha)
      (materializeZipArchive (archiveOf [greeting "a/hi.txt"]) manifest Target.node.sink
        defaultArchiveLimits) .fresh (.error (.typeError
          "make_directory() missing 1 required keyword-only argument: 'executable'")) .fresh := by
    have passes : validateMaterializationManifest manifest defaultArchiveLimits = .ok () := by
      decide +kernel
    have directories : requiredDirectories manifest.entries = [['a']] := by decide +kernel
    refine run_sound calm_sound ?_
    unfold materializeZipArchive
    rw [passes, directories]
    rfl
  refine ⟨manifest, accepted, (ssh_materializes_iff accepted).mpr fun e he => ?_, ⟨_, ran, rfl⟩,
    fun works => (works _ _ ran).1 _ rfl⟩
  rw [List.mem_singleton.mp he]
  decide +kernel

end Termroom.Archive
