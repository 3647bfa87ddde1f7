import Mathlib
import Termroom.Archive.Materialize
import Termroom.Archive.Structure

/-!
# What a sink is asked

`materialize_zip_archive` as a program over the calls of a sink: `make_directory` for every
directory that an entry needs, then `write_file` for every file, with an iterator that the sink
draws from as it likes. The archive is read a second time, and it may say anything by then.

What is asked of the sink keeps to the manifest and to the limits (`materialize_obeys`), for every
sink that returns from `write_file` only where it has drained the iterator, as both sinks here do
(`Target.drains`).
-/

set_option autoImplicit false

namespace Termroom.Archive

open Conc Data

/-! ## 1. The calls -/

/-- The methods of `ArchiveSink`. -/
inductive SinkOp where
  | makeDirectory (path : Text)
  | writeFile (path : Text) (chunks : ChunkStream) (executable : Bool) (expectedSize : Nat)

/-- A call returns or raises. -/
abbrev SinkSig : Sig := ⟨SinkOp, fun _ => Except StageError Unit⟩

abbrev SinkProg (α : Type) := Prog SinkSig StageError α

def sinkCall (o : SinkOp) : SinkProg Unit := do
  let r ← @Prog.perform SinkSig StageError o
  .ofExcept r

def makeDirectoryCalls : List Text → SinkProg Unit
  | [] => pure ()
  | directory :: rest => do
    sinkCall (.makeDirectory directory)
    makeDirectoryCalls rest

def writeFileCalls (limits : ArchiveLimits) (pairs : List (Member × ZipEntry)) :
    Nat → List ZipEntry → SinkProg Unit
  | _, [] => pure ()
  | actualTotal, entry :: rest =>
    if entry.kind = .directory then writeFileCalls limits pairs actualTotal rest
    else
      match pairs.reverse.find? fun p => p.2.archiveName = entry.archiveName with
      | none => .raise (.key entry.archiveName)
      | some (m, _) => do
        sinkCall (.writeFile entry.relativePath (iterInfoChunks m entry limits actualTotal)
          entry.executable entry.size)
        writeFileCalls limits pairs (actualTotal + entry.size) rest

/-- `materialize_zip_archive`, less the sink. -/
def materializeCalls (archive : ZipArchive) (manifest : ZipManifest) (limits : ArchiveLimits) :
    SinkProg Unit := do
  .ofExcept ((validateMaterializationManifest manifest limits).mapError .archive)
  makeDirectoryCalls (requiredDirectories manifest.entries)
  let pairs ← .ofExcept ((reopenArchive archive manifest limits).mapError .archive)
  readingZip (writeFileCalls limits pairs 0 manifest.entries)

/-- What a sink does when it is called. -/
def Sink.answer (sink : Sink) : (o : SinkOp) → StageProg (Except StageError Unit)
  | .makeDirectory path => (sink.makeDirectory path none).attempt
  | .writeFile path chunks executable expectedSize =>
    (sink.writeFile path ⟨chunks, pure ()⟩ executable expectedSize).attempt

section calls

variable {sink : Sink} {limits : ArchiveLimits} {archive : ZipArchive} {manifest : ZipManifest}
variable {pairs : List (Member × ZipEntry)}

/-- To catch an exception and to raise it again is to do nothing. -/
theorem attempt_ofExcept {S : Sig} {ε α : Type} (p : Prog S ε α) :
    ((p.attempt : Prog S ε (Except ε α)) >>= Prog.ofExcept) = p := by
  show p.attempt.bind Prog.ofExcept = p
  induction p with
  | ret a => rfl
  | raise e => rfl
  | op o k ih => exact congrArg (Prog.op o) (funext ih)

theorem makeDirectories_interpret {ds : List Text} :
    (makeDirectoryCalls ds).interpret sink.answer = makeDirectories sink ds := by
  induction ds with
  | nil => rfl
  | cons d ds ih =>
    unfold makeDirectoryCalls makeDirectories sinkCall
    rw [Prog.interpret_bind, Prog.interpret_bind, Prog.interpret_perform, ih]
    simp only [Prog.interpret_ofExcept]
    rw [Sink.answer, attempt_ofExcept]

theorem writeFiles_interpret {entries : List ZipEntry} {total : Nat} :
    (writeFileCalls limits pairs total entries).interpret sink.answer =
      writeFiles sink limits pairs total entries := by
  induction entries generalizing total with
  | nil => rfl
  | cons entry rest ih =>
    unfold writeFileCalls writeFiles
    split
    · exact ih
    · cases hfound : pairs.reverse.find? fun p => p.2.archiveName = entry.archiveName with
      | none => rfl
      | some p =>
        unfold sinkCall
        dsimp only
        rw [Prog.interpret_bind, Prog.interpret_bind, Prog.interpret_perform, ih]
        simp only [Prog.interpret_ofExcept]
        rw [Sink.answer, attempt_ofExcept]

theorem readingZip_interpret {p : SinkProg Unit} :
    (readingZip p).interpret sink.answer = readingZip (p.interpret sink.answer) := by
  have answers : p.All fun o => (sink.answer o).Returns := by
    induction p with
    | ret a => trivial
    | raise e => trivial
    | op o k ih =>
      refine ⟨?_, ih⟩
      cases o with
      | makeDirectory path => exact Prog.Returns.attempt
      | writeFile path chunks executable size => exact Prog.Returns.attempt
  unfold readingZip
  rw [Prog.interpret_bind, Prog.interpret_attempt answers]
  simp only [Prog.interpret_ofExcept]

/-- **The program over the calls is the program**, for whichever sink. -/
theorem materialize_interpret : (materializeCalls archive manifest limits).interpret sink.answer =
    materializeZipArchive archive manifest sink limits := by
  unfold materializeCalls materializeZipArchive
  simp only [Prog.interpret_bind, Prog.interpret_ofExcept, makeDirectories_interpret,
    readingZip_interpret, writeFiles_interpret]

end calls

/-! ## 2. What is called -/

/-- A call of `make_directory`. -/
structure DirectoryCall where
  path : Text
  answer : Except StageError Unit

/-- A call of `write_file`: what its iterator would yield, and what the sink drew from it. -/
structure FileCall where
  path : Text
  offered : ChunkStream
  taken : List Bytes
  executable : Bool
  expectedSize : Nat
  answer : Except StageError Unit

inductive SinkCall where
  | directory (call : DirectoryCall)
  | file (call : FileCall)

/-- A sink answers what it likes, and draws as many chunks as it likes. -/
def SinkOp.step : SinkOp → Except StageError Unit → List SinkCall → List SinkCall → Prop
  | .makeDirectory path, answer, u, v => v = u ++ [.directory ⟨path, answer⟩]
  | .writeFile path offered executable expectedSize, answer, u, v => ∃ taken,
    taken <+: offered.chunks ∧
      v = u ++ [.file ⟨path, offered, taken, executable, expectedSize, answer⟩]

/-- How many bytes the sink was handed. -/
def FileCall.handed (call : FileCall) : Nat := call.taken.flatten.length

/-- The sink returns only where it was handed no more than it was told to expect. -/
def FileCall.Honest (call : FileCall) : Prop :=
  call.answer = .ok () → call.handed ≤ call.expectedSize

/-- What a call of `write_file` for this entry may be. -/
structure FileCall.Of (limits : ArchiveLimits) (entry : ZipEntry) (call : FileCall) : Prop where
  file : entry.kind = .file
  path : call.path = entry.relativePath
  executable : call.executable = entry.executable
  expectedSize : call.expectedSize = entry.size
  /-- Whatever sizes are declared. -/
  single : call.handed ≤ limits.maxSingleFileBytes
  /-- The iterator comes to its end only with the bytes that the manifest tells of. -/
  complete : call.offered.failure = none →
    call.offered.chunks.flatten.length = entry.size ∧
      crc32 call.offered.chunks.flatten 0 &&& 0xFFFFFFFF = entry.crc32

/-- The paths of the files, in their order. -/
def filePaths (entries : List ZipEntry) : List Text :=
  (entries.filter fun e => e.kind = .file).map ZipEntry.relativePath

section iterator

variable {limits : ArchiveLimits} {entry : ZipEntry} {failure : Option ReadFailure}
variable {totalBefore actualSize crc : Nat} {chunks taken : List Bytes}

/-- The checksum goes on from where it was. -/
theorem foldl_crc32 :
    chunks.foldl (fun crc chunk => crc32 chunk crc) crc = crc32 chunks.flatten crc := by
  induction chunks generalizing crc with
  | nil =>
    unfold crc32
    simp
  | cons chunk rest ih =>
    rw [List.foldl_cons, ih, List.flatten_cons]
    unfold crc32
    dsimp only
    rw [List.foldl_append, Nat.xor_assoc, Nat.xor_self, Nat.xor_zero]

/-- **The limits are those of what is read**, not of what is declared. -/
theorem iterChunks_bounds (single : actualSize ≤ limits.maxSingleFileBytes) :
    let out := (iterChunks entry failure limits totalBefore actualSize crc chunks).chunks
    actualSize + out.flatten.length ≤ limits.maxSingleFileBytes ∧
      (out = [] ∨ totalBefore + actualSize + out.flatten.length ≤ limits.maxTotalBytes) := by
  induction chunks generalizing actualSize crc with
  | nil =>
    have nothing : (iterChunks entry failure limits totalBefore actualSize crc []).chunks = [] := by
      unfold iterChunks
      cases failure with
      | some failure => rfl
      | none =>
        dsimp only
        split
        · rfl
        · split <;> rfl
    dsimp only
    rw [nothing]
    exact ⟨single, .inl rfl⟩
  | cons chunk rest ih =>
    unfold iterChunks
    dsimp only
    split
    · exact ⟨single, .inl rfl⟩
    rename_i hsingle
    split
    · exact ⟨single, .inl rfl⟩
    rename_i htotal
    obtain ⟨yieldedSingle, yieldedTotal⟩ := @ih (actualSize + chunk.length) (crc32 chunk crc)
      (Nat.le_of_not_lt hsingle)
    simp only [ChunkStream.cons, List.flatten_cons, List.length_append]
    refine ⟨by omega, .inr ?_⟩
    rcases yieldedTotal with nothing | yieldedTotal
    · rw [nothing, List.flatten_nil, List.length_nil]
      omega
    · omega

theorem flatten_length_le (h : taken <+: chunks) :
    taken.flatten.length ≤ chunks.flatten.length := by
  obtain ⟨rest, rfl⟩ := h
  rw [List.flatten_append, List.length_append]
  exact Nat.le_add_right _ _

variable {m : Member} {answer : Except StageError Unit}

theorem iterInfoChunks_of (hkind : entry.kind = .file)
    (htaken : taken <+: (iterInfoChunks m entry limits totalBefore).chunks) :
    FileCall.Of limits entry ⟨entry.relativePath, iterInfoChunks m entry limits totalBefore, taken,
      entry.executable, entry.size, answer⟩ where
  file := hkind
  path := rfl
  executable := rfl
  expectedSize := rfl
  single := by
    have bounds := @iterChunks_bounds limits entry m.failure totalBefore 0 0
      (readChunks limits.chunkSize m.data.length m.data) (Nat.zero_le _)
    have single := bounds.1
    rw [Nat.zero_add] at single
    exact Nat.le_trans (flatten_length_le htaken) single
  complete := by
    intro hfailure
    obtain ⟨hchunks, -, size, hcrc⟩ := iterChunks_ok hfailure
    unfold iterInfoChunks
    rw [hchunks]
    rw [foldl_crc32] at hcrc
    rw [Nat.zero_add] at size
    exact ⟨size, hcrc⟩

theorem iterInfoChunks_within (htotal : totalBefore ≤ limits.maxTotalBytes)
    (htaken : taken <+: (iterInfoChunks m entry limits totalBefore).chunks) :
    totalBefore + taken.flatten.length ≤ limits.maxTotalBytes := by
  have bounds := @iterChunks_bounds limits entry m.failure totalBefore 0 0
    (readChunks limits.chunkSize m.data.length m.data) (Nat.zero_le _)
  have handed := flatten_length_le htaken
  rcases bounds.2 with nothing | bounded
  · unfold iterInfoChunks at handed
    rw [nothing, List.flatten_nil, List.length_nil] at handed
    omega
  · unfold iterInfoChunks at handed
    omega

end iterator

/-! ## 3. The loops -/

section loops

variable {limits : ArchiveLimits} {archive : ZipArchive} {manifest : ZipManifest}
variable {pairs : List (Member × ZipEntry)} {log : List SinkCall}

/-- What is asked of the sink where these directories are to be made. -/
structure MadeDirectories (directories : List Text) (r : Except StageError Unit)
    (ds : List DirectoryCall) : Prop where
  paths : ds.map DirectoryCall.path <+: directories
  all : r = .ok () → ds.map DirectoryCall.path = directories
  returned : (∀ d ∈ ds, d.answer = .ok ()) → r = .ok ()

theorem makeDirectoryCalls_wp {directories : List Text} :
    (makeDirectoryCalls directories).wp (alone SinkOp.step)
      (fun r v => ∃ ds, v = log ++ ds.map SinkCall.directory ∧ MadeDirectories directories r ds)
      log := by
  induction directories generalizing log with
  | nil => exact ⟨[], by simp, List.nil_prefix, fun _ => rfl, fun _ => rfl⟩
  | cons directory rest ih =>
    unfold makeDirectoryCalls sinkCall
    rw [Prog.wp_bind, Prog.wp_bind]
    apply alone_perform
    intro answer v hv
    obtain rfl : v = _ := hv
    rw [onResult_ok, Prog.wp_ofExcept]
    cases answer with
    | error e =>
      refine ⟨[⟨directory, .error e⟩], rfl, ?_, nofun, fun h => ?_⟩
      · simp
      · cases h _ List.mem_cons_self
    | ok a =>
      apply Prog.wp_mono _ ih
      rintro r v ⟨ds, rfl, made⟩
      refine ⟨⟨directory, .ok ()⟩ :: ds, by simp, ?_, fun h => ?_, fun h => ?_⟩
      · exact List.cons_prefix_cons.mpr ⟨rfl, made.paths⟩
      · rw [List.map_cons, made.all h]
      · exact made.returned fun d hd => h d (List.mem_cons_of_mem _ hd)

/-- What is asked of the sink where the files of these entries are to be written, after files
    of this size in total. -/
structure WrittenFiles (limits : ArchiveLimits) (entries : List ZipEntry) (total : Nat)
    (r : Except StageError Unit) (fs : List FileCall) : Prop where
  paths : fs.map FileCall.path <+: filePaths entries
  all : r = .ok () → fs.map FileCall.path = filePaths entries
  entry : ∀ f ∈ fs, ∃ e ∈ entries, f.Of limits e
  within : total + totalSize entries ≤ limits.maxTotalBytes → (∀ f ∈ fs, f.Honest) →
    total + (fs.map FileCall.handed).sum ≤ limits.maxTotalBytes

theorem writeFileCalls_wp {entries : List ZipEntry} {total : Nat} :
    (writeFileCalls limits pairs total entries).wp (alone SinkOp.step)
      (fun r v => ∃ fs, v = log ++ fs.map SinkCall.file ∧ WrittenFiles limits entries total r fs)
      log := by
  induction entries generalizing log total with
  | nil => exact ⟨[], by simp, List.nil_prefix, fun _ => rfl, by simp, fun h _ => h⟩
  | cons entry rest ih =>
    have size : totalSize (entry :: rest) = entry.size + totalSize rest := rfl
    unfold writeFileCalls
    split
    · -- a directory is left out
      rename_i hkind
      apply Prog.wp_mono _ ih
      rintro r v ⟨fs, rfl, written⟩
      have paths : filePaths (entry :: rest) = filePaths rest := by simp [filePaths, hkind]
      refine ⟨fs, rfl, paths ▸ written.paths, paths ▸ written.all, fun f hf => ?_, fun h => ?_⟩
      · obtain ⟨e, he, hof⟩ := written.entry f hf
        exact ⟨e, List.mem_cons_of_mem _ he, hof⟩
      · exact written.within (by omega)
    rename_i hkind
    replace hkind : entry.kind = .file := kind_ne_directory.mp hkind
    have paths : filePaths (entry :: rest) = entry.relativePath :: filePaths rest := by
      simp [filePaths, hkind]
    cases pairs.reverse.find? fun p => p.2.archiveName = entry.archiveName with
    | none =>
      refine ⟨[], by simp, List.nil_prefix, nofun, by simp, fun h _ => ?_⟩
      exact Nat.le_trans (Nat.le_add_right _ _) h
    | some p =>
      obtain ⟨m, other⟩ := p
      dsimp only
      unfold sinkCall
      rw [Prog.wp_bind, Prog.wp_bind]
      apply alone_perform
      rintro answer v ⟨taken, htaken, rfl⟩
      rw [onResult_ok, Prog.wp_ofExcept]
      have hof := @iterInfoChunks_of limits entry total taken m answer hkind htaken
      cases answer with
      | error e =>
        refine ⟨[_], rfl, ?_, nofun, ?_, ?_⟩
        · simp [paths]
        · intro f hf
          rw [List.mem_singleton.mp hf]
          exact ⟨entry, List.mem_cons_self, hof⟩
        · intro h _
          exact iterInfoChunks_within (by omega) htaken
      | ok a =>
        apply Prog.wp_mono _ ih
        rintro r v ⟨fs, rfl, written⟩
        refine ⟨⟨entry.relativePath, iterInfoChunks m entry limits total, taken, entry.executable,
          entry.size, .ok a⟩ :: fs, by simp, ?_, fun h => ?_, ?_, fun h honest => ?_⟩
        · rw [paths]
          exact List.cons_prefix_cons.mpr ⟨rfl, written.paths⟩
        · rw [paths, List.map_cons, written.all h]
        · intro f hf
          rcases List.mem_cons.mp hf with rfl | hf
          · exact ⟨entry, List.mem_cons_self, hof⟩
          · obtain ⟨e, he, hof⟩ := written.entry f hf
            exact ⟨e, List.mem_cons_of_mem _ he, hof⟩
        · -- the sink was handed no more than what the next iterator counts from
          have expected : taken.flatten.length ≤ entry.size := honest _ List.mem_cons_self rfl
          have rest := written.within (by omega) fun f hf => honest f (List.mem_cons_of_mem _ hf)
          simp only [List.map_cons, List.sum_cons, FileCall.handed] at rest ⊢
          omega

end loops

/-! ## 4. The manifest -/

section manifest

variable {limits : ArchiveLimits} {manifest : ZipManifest} {seen entries : List ZipEntry}
variable {total total' : Nat} {a d : Text}

theorem validateManifestEntries_ok (apart : seen.Pairwise Apart)
    (h : validateManifestEntries limits seen total entries = .ok total')
    (within : total ≤ limits.maxTotalBytes) :
    (seen ++ entries).Pairwise Apart ∧ total + totalSize entries ≤ limits.maxTotalBytes := by
  induction entries generalizing seen total with
  | nil =>
    rw [List.append_nil]
    exact ⟨apart, within⟩
  | cons entry rest ih =>
    unfold validateManifestEntries at h
    obtain ⟨path, -, h⟩ := bind_eq_ok.mp h
    obtain ⟨-, h⟩ := reject_bind_ok.mp h
    obtain ⟨-, h⟩ := reject_bind_ok.mp h
    obtain ⟨-, h⟩ := reject_bind_ok.mp h
    obtain ⟨-, h⟩ := reject_bind_ok.mp h
    obtain ⟨⟨⟩, hcheck, h⟩ := bind_eq_ok.mp h
    obtain ⟨hwithin, h⟩ := reject_bind_ok.mp h
    have admitted := (checkApart_ok_iff apart).mp hcheck
    have later := ih (pairwise_snoc apart admitted) h (Nat.le_of_not_lt hwithin)
    rw [List.append_assoc] at later
    have size : totalSize (entry :: rest) = entry.size + totalSize rest := rfl
    rw [size, ← Nat.add_assoc]
    exact later

/-- The paths of an accepted manifest keep apart, and its sizes keep within the limit. -/
theorem validateMaterializationManifest_ok
    (h : validateMaterializationManifest manifest limits = .ok ()) :
    manifest.entries.Pairwise Apart ∧ totalSize manifest.entries ≤ limits.maxTotalBytes := by
  unfold validateMaterializationManifest at h
  obtain ⟨-, h⟩ := reject_bind_ok.mp h
  obtain ⟨-, h⟩ := reject_bind_ok.mp h
  obtain ⟨total, h, -⟩ := bind_eq_ok.mp h
  have whole := validateManifestEntries_ok .nil h (Nat.zero_le _)
  rw [Nat.zero_add] at whole
  exact whole

theorem filePaths_nodup (apart : entries.Pairwise Apart) : (filePaths entries).Nodup := by
  unfold filePaths
  apply List.pairwise_map.mpr
  apply List.Pairwise.imp _ (List.Pairwise.sublist List.filter_sublist apart)
  intro e f h
  exact h.distinct

theorem mem_filePaths {path : Text} :
    path ∈ filePaths entries ↔ ∃ e ∈ entries, e.kind = .file ∧ e.relativePath = path := by
  simp [filePaths, and_assoc]

/-- A directory that an entry needs: one that it lies in, or itself. -/
def Required (entries : List ZipEntry) (d : Text) : Prop :=
  ∃ e ∈ entries, Below d e.relativePath ∨ e.kind = .directory ∧ d = e.relativePath

theorem requiredDirectories_nodup : (requiredDirectories entries).Nodup :=
  (List.perm_insertionSort _ _).nodup_iff.mpr (List.nodup_dedup _)

theorem Below.count_lt (h : Below a d) : a.count '/' < d.count '/' := by
  obtain ⟨rest, rfl⟩ := h
  simp only [List.count_append, List.count_cons_self]
  omega

/-- Depth never goes down. -/
theorem requiredDirectories_depth :
    (requiredDirectories entries).Pairwise fun a b => a.count '/' ≤ b.count '/' := by
  let before (a b : Text) : Prop :=
    a.count '/' < b.count '/' ∨ a.count '/' = b.count '/' ∧ a ≤ b
  have total : Std.Total before := ⟨fun a b => by
    rcases le_total a b with h | h <;> simp only [before, h, and_true] <;> omega⟩
  have trans : IsTrans Text before := ⟨fun a b c => by
    rintro (hab | ⟨hab, hab'⟩) (hbc | ⟨hbc, hbc'⟩)
    · exact .inl (hab.trans hbc)
    · exact .inl (hbc ▸ hab)
    · exact .inl (hab ▸ hbc)
    · exact .inr ⟨hab.trans hbc, hab'.trans hbc'⟩⟩
  apply List.Pairwise.imp _ (List.pairwise_insertionSort before _)
  rintro a b (h | ⟨h, -⟩)
  · exact Nat.le_of_lt h
  · exact Nat.le_of_eq h

/-- **The directory above comes first.** -/
theorem requiredDirectories_parents {before after : List Text}
    (split : before ++ d :: after <+: requiredDirectories entries) (h : Below a d) :
    a ∈ before := by
  obtain ⟨rest, split⟩ := split
  rw [List.append_assoc, List.cons_append] at split
  have hd : d ∈ requiredDirectories entries := by simp [← split]
  have ha := requiredDirectories_below hd h
  have depth := @requiredDirectories_depth entries
  rw [← split] at ha depth
  rcases List.mem_append.mp ha with ha | ha
  · exact ha
  have later := (List.pairwise_cons.mp (List.pairwise_append.mp depth).2.1).1
  rcases List.mem_cons.mp ha with rfl | ha
  · exact absurd h Below.irrefl
  · exact absurd (later a ha) (Nat.not_le_of_lt h.count_lt)

end manifest

/-! ## 5. The sinks here -/

/-- The program returns only where `P` holds. -/
def ReturnsOnlyIf {α : Type} (P : Prop) (p : StageProg α) : Prop :=
  p.Uses (fun _ => True) fun r => ∀ a, r = .ok a → P

namespace ReturnsOnlyIf

variable {α β : Type} {P : Prop} {p : StageProg α} {f : α → StageProg β}

theorem anything {Q : Except StageError α → Prop} (h : ∀ r, Q r) :
    p.Uses (fun _ => True) Q := by
  induction p with
  | ret a => exact h _
  | raise e => exact h _
  | op o k ih => exact ⟨trivial, ih⟩

theorem raise {e : StageError} : ReturnsOnlyIf P (.raise e : StageProg α) := nofun

theorem first (h : ReturnsOnlyIf P p) : ReturnsOnlyIf P (p >>= f) := by
  apply Prog.uses_bind.mpr
  apply Prog.uses_mono (fun _ h => h) _ h
  intro r hr
  cases r with
  | ok a => exact anything fun _ _ _ => hr a rfl
  | error e => exact nofun

theorem second (h : ∀ a, ReturnsOnlyIf P (f a)) : ReturnsOnlyIf P (p >>= f) := by
  apply Prog.uses_bind.mpr
  apply anything
  intro r
  cases r with
  | ok a => exact h a
  | error e => exact nofun

theorem attempt {g : Except StageError α → StageProg β} (h : ReturnsOnlyIf P p)
    (error : ∀ e, ReturnsOnlyIf P (g (.error e))) : ReturnsOnlyIf P (p.attempt >>= g) := by
  apply Prog.uses_bind.mpr
  apply Prog.uses_attempt.mpr
  apply Prog.uses_mono (fun _ h => h) _ h
  intro r hr
  cases r with
  | ok a => exact anything fun _ _ _ => hr a rfl
  | error e => exact error e

theorem finally_ {q : StageProg Unit} (h : ReturnsOnlyIf P p) : ReturnsOnlyIf P (p.finally_ q) :=
  h.attempt fun _ => second fun _ => nofun

/-- A loop over the iterator returns only where the iterator came to its end. -/
theorem forEach {σ : Type} {source : ChunkSource} {body : Bytes → σ → StageProg σ} {x : σ} :
    ReturnsOnlyIf (source.stream.failure = none) (source.forEach body x) := by
  unfold ChunkSource.forEach
  induction source.stream.chunks generalizing x with
  | nil =>
    unfold forChunks
    split
    · exact raise
    · rename_i hnone
      exact second fun _ _ _ => hnone
  | cons chunk rest ih => exact second fun _ => second fun _ => ih

end ReturnsOnlyIf

section sinks

variable {isalpha : Char → Bool} {target : Target}

open ReturnsOnlyIf

theorem sshWriteFile_drains {path : Text} {chunks : ChunkSource} {executable : Bool} {size : Nat} :
    ReturnsOnlyIf (chunks.stream.failure = none) (sshWriteFile path chunks executable size) := by
  apply second
  intro target
  apply second
  intro id
  apply finally_
  apply second
  intro _
  exact first (finally_ forEach)

theorem nodeWriteFile_drains {path : Text} {chunks : ChunkSource} {executable : Bool}
    {size : Nat} :
    ReturnsOnlyIf (chunks.stream.failure = none) (nodeWriteFile path chunks executable size) := by
  apply second
  intro id
  apply second
  intro _
  apply attempt (first forEach)
  intro e
  exact second fun _ => raise

/-- **Either sink drains the iterator**, or it raises. -/
theorem Target.drains {path : Text} {stream : ChunkStream} {executable : Bool} {size : Nat} :
    ReturnsOnlyIf (stream.failure = none)
      (target.sink.writeFile path ⟨stream, pure ()⟩ executable size) := by
  cases target with
  | ssh =>
    apply second
    intro _
    exact sshWriteFile_drains
  | node =>
    apply second
    intro _
    exact nodeWriteFile_drains

/-- The sink drew the whole of its iterator, and found its end. -/
def FileCall.Drained (call : FileCall) : Prop :=
  call.answer = .ok () → call.taken = call.offered.chunks ∧ call.offered.failure = none

/-- **A run through a sink is a run over its calls.** -/
theorem Target.logged {α : Type} {p : SinkProg α} {w v : StageWorld} {r : Except StageError α}
    {log : List SinkCall}
    (ran : Exec (StageOp.step isalpha) (p.interpret target.sink.answer) w r v) :
    ∃ calls, Exec SinkOp.step p log r (log ++ calls) ∧ ∀ f, .file f ∈ calls → f.Drained := by
  induction p generalizing w log with
  | ret a =>
    cases ran
    exact ⟨[], by rw [List.append_nil]; exact .ret, by simp⟩
  | raise e =>
    cases ran
    exact ⟨[], by rw [List.append_nil]; exact .raise, by simp⟩
  | op o k ih =>
    rcases ran.bind_inv with ⟨answer, u, called, rest⟩ | ⟨e, called, -⟩
    · cases o with
      | makeDirectory path =>
        obtain ⟨calls, hcalls, drained⟩ := @ih answer u (log ++ [.directory ⟨path, answer⟩]) rest
        refine ⟨.directory ⟨path, answer⟩ :: calls, ?_, fun f hf => ?_⟩
        · rw [List.append_cons]
          exact .op rfl hcalls
        · rcases List.mem_cons.mp hf with hf | hf
          · cases hf
          · exact drained f hf
      | writeFile path stream executable size =>
        have uses : (target.sink.answer (.writeFile path stream executable size)).Uses
            (fun _ => True) fun r => ∀ b, r = .ok (.ok b) → stream.failure = none := by
          apply Prog.uses_attempt.mpr
          apply Prog.uses_mono (fun _ h => h) _ Target.drains
          intro r h b hb
          exact h b (Except.ok.inj hb)
        let call : FileCall := ⟨path, stream, stream.chunks, executable, size, answer⟩
        obtain ⟨calls, hcalls, drained⟩ := @ih answer u (log ++ [.file call]) rest
        refine ⟨.file call :: calls, ?_, fun f hf => ?_⟩
        · rw [List.append_cons]
          exact .op ⟨stream.chunks, List.prefix_rfl, rfl⟩ hcalls
        · rcases List.mem_cons.mp hf with hf | hf
          · rw [SinkCall.file.inj hf]
            intro hanswer
            refine ⟨rfl, ?_⟩
            exact called.ends uses () (congrArg Except.ok hanswer)
          · exact drained f hf
    · -- what a sink raises is its answer
      have answers : (target.sink.answer o).Returns := by
        cases o with
        | makeDirectory path => exact Prog.Returns.attempt
        | writeFile path stream executable size => exact Prog.Returns.attempt
      obtain ⟨a, ha⟩ := called.ends answers
      cases ha

end sinks

/-! ## 6. The protocol -/

section protocol

variable {limits : ArchiveLimits} {archive : ZipArchive} {manifest : ZipManifest}
variable {r : Except StageError Unit} {log : List SinkCall} {ds : List DirectoryCall}
variable {fs : List FileCall}

/-- **What a sink is asked in one materialization**, where its directories are `ds` and its files
    are `fs`. -/
structure Obeys (manifest : ZipManifest) (limits : ArchiveLimits) (r : Except StageError Unit)
    (ds : List DirectoryCall) (fs : List FileCall) : Prop where
  /-- Every directory is one that is needed, and is made once. -/
  required : ∀ d ∈ ds.map DirectoryCall.path, Required manifest.entries d
  once : (ds.map DirectoryCall.path).Nodup
  /-- None is left out, unless the sink failed to make one. -/
  complete : validateMaterializationManifest manifest limits = .ok () →
    (∀ d ∈ ds, d.answer = .ok ()) →
      ∀ d, Required manifest.entries d → d ∈ ds.map DirectoryCall.path
  /-- What lies above a directory was made before it. -/
  parents : ∀ before d after, ds.map DirectoryCall.path = before ++ d :: after →
    ∀ a, Below a d → a ∈ before
  /-- All directories are there before the first file. -/
  directories : fs ≠ [] → ∀ d, Required manifest.entries d → d ∈ ds.map DirectoryCall.path
  files : (fs.map FileCall.path).Nodup
  entry : ∀ f ∈ fs, ∃ e ∈ manifest.entries, f.Of limits e
  /-- Over a sink that takes no more of a file than it was told to expect. -/
  within : (∀ f ∈ fs, f.Honest) → (fs.map FileCall.handed).sum ≤ limits.maxTotalBytes
  /-- Where it returns, everything was asked for. -/
  whole : r = .ok () → (∀ d, Required manifest.entries d → d ∈ ds.map DirectoryCall.path) ∧
    ∀ e ∈ manifest.entries, e.kind = .file → e.relativePath ∈ fs.map FileCall.path

theorem MadeDirectories.obeys (made : MadeDirectories (requiredDirectories manifest.entries) r ds)
    (passes : validateMaterializationManifest manifest limits = .ok ())
    {q : Except StageError Unit} (written : WrittenFiles limits manifest.entries 0 q fs)
    (returned : fs ≠ [] ∨ q = .ok () → r = .ok ()) : Obeys manifest limits q ds fs where
  required := fun d hd => mem_requiredDirectories.mp (made.paths.subset hd)
  once := requiredDirectories_nodup.sublist made.paths.sublist
  complete := by
    intro _ answered d hd
    rw [made.all (made.returned answered)]
    exact mem_requiredDirectories.mpr hd
  parents := by
    intro before d after split a h
    exact requiredDirectories_parents (split ▸ made.paths) h
  directories := by
    intro hfs d hd
    rw [made.all (returned (.inl hfs))]
    exact mem_requiredDirectories.mpr hd
  files := by
    have apart := (validateMaterializationManifest_ok passes).1
    exact (filePaths_nodup apart).sublist written.paths.sublist
  entry := written.entry
  within := by
    intro honest
    have size := (validateMaterializationManifest_ok passes).2
    have within := written.within (by omega) honest
    omega
  whole := by
    intro hq
    refine ⟨fun d hd => ?_, fun e he hkind => ?_⟩
    · rw [made.all (returned (.inr hq))]
      exact mem_requiredDirectories.mpr hd
    · rw [written.all hq]
      exact mem_filePaths.mpr ⟨e, he, hkind, rfl⟩

/-- Nothing is written yet, or ever. -/
theorem WrittenFiles.none {entries : List ZipEntry} {e : StageError} :
    WrittenFiles limits entries 0 (.error e) [] :=
  ⟨List.nil_prefix, nofun, by simp, fun _ _ => Nat.zero_le _⟩

/-- The handler returns where there was nothing to handle. -/
theorem WrittenFiles.handled {entries : List ZipEntry} {total : Nat}
    (h : WrittenFiles limits entries total r fs) :
    WrittenFiles limits entries total (r.mapError archiveReadError) fs := by
  refine ⟨h.paths, fun hr => h.all ?_, h.entry, h.within⟩
  cases r with
  | ok _ => rfl
  | error e => cases hr

theorem materializeCalls_wp :
    (materializeCalls archive manifest limits).wp (alone SinkOp.step)
      (fun r v => ∃ ds fs, v = ds.map SinkCall.directory ++ fs.map SinkCall.file ∧
        Obeys manifest limits r ds fs) [] := by
  unfold materializeCalls
  rw [Prog.wp_bind, Prog.wp_ofExcept]
  cases passes : validateMaterializationManifest manifest limits with
  | error e =>
    -- nothing is asked
    refine ⟨[], [], rfl, by simp, .nil, fun h => ?_, by simp, by simp, .nil, by simp,
      fun _ => Nat.zero_le _, nofun⟩
    rw [passes] at h
    cases h
  | ok _ =>
    refine Prog.wp_seq makeDirectoryCalls_wp ?_ ?_
    · rintro e v ⟨ds, rfl, made⟩
      refine ⟨ds, [], by simp, made.obeys passes .none ?_⟩
      simp
    · rintro a v ⟨ds, rfl, made⟩
      rw [Prog.wp_bind, Prog.wp_ofExcept]
      cases reopenArchive archive manifest limits with
      | error e => exact ⟨ds, [], by simp, made.obeys passes .none fun _ => rfl⟩
      | ok pairs =>
        show (readingZip _).wp _ _ _
        unfold readingZip
        rw [Prog.wp_bind, Prog.wp_attempt]
        apply Prog.wp_mono _ writeFileCalls_wp
        rintro r v ⟨fs, rfl, written⟩
        rw [onResult_ok, Prog.wp_ofExcept]
        exact ⟨ds, fs, by simp, made.obeys passes written.handled fun _ => rfl⟩

theorem FileCall.Drained.honest {f : FileCall} {e : ZipEntry} (h : f.Drained)
    (hof : f.Of limits e) : f.Honest := by
  intro hanswer
  obtain ⟨taken, complete⟩ := h hanswer
  unfold FileCall.handed
  rw [taken, (hof.complete complete).1, hof.expectedSize]

/-- **ZIP materialization keeps to the protocol of the sink and to the limits**, whatever the
    archive is by then: whatever a sink answers and draws, and through the sinks here, which
    drain every iterator, also to the limit of the whole. -/
theorem materialize_obeys (archive : ZipArchive) (manifest : ZipManifest)
    (limits : ArchiveLimits) :
    (∀ r log, Exec SinkOp.step (materializeCalls archive manifest limits) [] r log →
      ∃ ds fs, log = ds.map SinkCall.directory ++ fs.map SinkCall.file ∧
        Obeys manifest limits r ds fs) ∧
    ∀ (target : Target) (isalpha : Char → Bool) w r v,
      Exec (StageOp.step isalpha) (materializeZipArchive archive manifest target.sink limits) w
        r v →
      ∃ ds fs, Exec SinkOp.step (materializeCalls archive manifest limits) [] r
          (ds.map SinkCall.directory ++ fs.map SinkCall.file) ∧
        Obeys manifest limits r ds fs ∧ (∀ f ∈ fs, f.Drained) ∧
        (fs.map FileCall.handed).sum ≤ limits.maxTotalBytes := by
  refine ⟨fun r log ran => ran.post materializeCalls_wp, fun target isalpha w r v ran => ?_⟩
  rw [← materialize_interpret] at ran
  obtain ⟨log, logged, drained⟩ := Target.logged ran
  obtain ⟨ds, fs, rfl, obeys⟩ := logged.post materializeCalls_wp
  have drained : ∀ f ∈ fs, f.Drained := by
    intro f hf
    exact drained f (List.mem_append_right _ (List.mem_map_of_mem hf))
  refine ⟨ds, fs, logged, obeys, drained, obeys.within fun f hf => ?_⟩
  obtain ⟨e, -, hof⟩ := obeys.entry f hf
  exact (drained f hf).honest hof

end protocol

end Termroom.Archive
