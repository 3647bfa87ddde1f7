import Termroom.Conc.Stateful
import Termroom.Sources.Manifest

/-!
# The copy of a Source

`materialize_workspace_snapshot` drives a Source into a sink. The Source is a moving target:
what it lists and what it yields for a file are whatever they are at that moment, and each
need not agree with the other. The sink commits what it has been given to the end, or nothing.

A file that changes under the copy is read once more, with the size and the time it has by
then. What the copy returns is the manifest of what has been committed (`materialize_faithful`).
-/

set_option autoImplicit false

namespace Termroom.Sources

open Conc Conc.Stateful Archive
open Data (RawText)

/-! ## 1. Sources and sinks -/

/-- What ends the copy of a Source. -/
inductive SnapshotError where
  | value (message : String)
  | type (message : String)
  | assertion
  | validation (e : SourceValidationError)
  /-- `SourceFileChangedError`. -/
  | changed (path : Text) (currentSize currentMtimeNs : Option Int)
  /-- Anything else that a Source or a sink raises. -/
  | other (what : String)
  deriving DecidableEq, Repr

/-- What a Source yields; it need not be bytes. -/
inductive Chunk where
  | bytes (data : Bytes)
  | other
  deriving DecidableEq, Repr

/-- An iterator, drained: what it yields, and what it then raises. -/
structure ChunkIterator (α : Type) where
  chunks : List α
  failure : Option SnapshotError
  deriving DecidableEq, Repr

variable {ω : Type}

structure SnapshotSource (ω : Type) where
  scan : Stateful ω SnapshotError WorkspaceManifest
  iterFileChunks : WorkspaceEntry → Int → Stateful ω SnapshotError (ChunkIterator Chunk)

structure SnapshotSink (ω : Type) where
  makeDirectory : Text → Bool → Stateful ω SnapshotError Unit
  /-- Answers the chunks that it has taken off its iterator. -/
  writeFile : Text → ChunkIterator Bytes → Bool → Int → Stateful ω SnapshotError (List Bytes)
  makeSymlink : Text → Text → Stateful ω SnapshotError Unit

/-- What is asked of a sink, and what it commits. -/
inductive SinkEvent where
  /-- `write_file` is called. -/
  | attempt (path : Text)
  | file (path : Text) (content : Bytes) (executable : Bool)
  | directory (path : Text)
  | link (path target : Text)
  deriving DecidableEq, Repr

/-- A Source and a sink in one world. The sink returns only where it has drained its iterator
    and committed what it was given; where it raises, it may have committed that, or nothing. -/
structure Transfer (ω : Type) where
  source : SnapshotSource ω
  sink : SnapshotSink ω
  history : ω → List SinkEvent
  scan : ∀ s, source.scan.Ends s (fun _ t => history t = history s) fun _ _ => True
  iterFileChunks : ∀ entry n s,
    (source.iterFileChunks entry n).Ends s (fun _ t => history t = history s) fun _ _ => True
  makeDirectory : ∀ path executable s, (sink.makeDirectory path executable).Ends s
    (fun _ t => history t = history s ++ [.directory path]) fun _ _ => True
  makeSymlink : ∀ path target s, (sink.makeSymlink path target).Ends s
    (fun _ t => history t = history s ++ [.link path target]) fun _ _ => True
  writeFile : ∀ path iterator executable n s,
    (sink.writeFile path iterator executable n).Ends s
      (fun taken t => taken = iterator.chunks ∧ iterator.failure = none ∧
        history t = history s ++ [.attempt path, .file path iterator.chunks.flatten executable])
      fun _ t => history t = history s ++ [.attempt path] ∨ iterator.failure = none ∧
        history t = history s ++ [.attempt path, .file path iterator.chunks.flatten executable]

/-! ## 2. The copy -/

/-- `_require_exact_chunks`; `total` counts what has come. -/
def requireExactChunks (expectedSize : Int) (path : Text) (failure : Option SnapshotError) :
    (total : Nat) → List Chunk → ChunkIterator Bytes
  | total, [] =>
    match failure with
    | some e => ⟨[], some e⟩
    | none => ⟨[], if (total : Int) ≠ expectedSize then some (.changed path none none) else none⟩
  | _, .other :: _ => ⟨[], some (.type "Snapshot chunks must be bytes")⟩
  | total, .bytes chunk :: rest =>
    if (total + chunk.length : Int) > expectedSize then ⟨[], some (.changed path none none)⟩
    else
      let later := requireExactChunks expectedSize path failure (total + chunk.length) rest
      if chunk = [] then later else { later with chunks := chunk :: later.chunks }

def hexDigit (n : Nat) : Char := hexDigits.getD n '0'

/-- `hexdigest()`. -/
def hexdigest (digest : Vector UInt8 32) : Text :=
  digest.toList.flatMap fun b => [hexDigit (b.toNat / 16), hexDigit (b.toNat % 16)]

section copy

variable (isalpha : Char → Bool) (sha256 : Bytes → Vector UInt8 32) (source : SnapshotSource ω)
  (sink : SnapshotSink ω) (chunkSize : Int)

/-- What the second attempt is made with. -/
def WorkspaceEntry.retried (entry : WorkspaceEntry) :
    (currentSize currentMtimeNs : Option Int) → WorkspaceEntry
  | some size, some mtimeNs => { entry with size, mtimeNs }
  | _, _ => entry

/-- One attempt at a file; `changed` goes on where it has changed under the copy. -/
def attemptFile (entry : WorkspaceEntry)
    (changed : Text → Option Int → Option Int → Stateful ω SnapshotError WorkspaceEntry) :
    Stateful ω SnapshotError WorkspaceEntry := do
  let iterator ← source.iterFileChunks entry chunkSize
  let chunks := requireExactChunks entry.size entry.relativePath iterator.failure 0 iterator.chunks
  match ← (sink.writeFile entry.relativePath chunks entry.executable entry.size).attempt with
  | .ok taken => pure { entry with digest := some (hexdigest (sha256 taken.flatten)) }
  | .error (.changed path size mtimeNs) => changed path size mtimeNs
  | .error e => raise e

/-- The loop over the attempts at a file; as many more as `left` may follow on the next one. -/
def copyFile (entry : WorkspaceEntry) : (left : Nat) → Stateful ω SnapshotError WorkspaceEntry
  | 0 => attemptFile sha256 source sink chunkSize entry fun path size mtimeNs =>
    raise (.changed path size mtimeNs)
  | left + 1 => attemptFile sha256 source sink chunkSize entry fun _ size mtimeNs =>
    copyFile (entry.retried size mtimeNs) left

/-- A sink encodes the target of a link before it makes it: paramiko in an SFTP request, the
    Core in its request to a Node. -/
def encodeTarget (target : RawText) : Stateful ω SnapshotError Text :=
  match target.text? with
  | some target => pure target
  | none => raise (.other "UnicodeEncodeError")

/-- One entry of the manifest. -/
def copyEntry (entry : WorkspaceEntry) : Stateful ω SnapshotError WorkspaceEntry :=
  match entry.kind with
  | .directory => do
    sink.makeDirectory entry.relativePath false
    pure entry
  | .symlink =>
    match entry.linkTarget with
    | none => raise .assertion
    | some target => do
      let target ← encodeTarget target
      sink.makeSymlink entry.relativePath target
      pure entry
  | _ => copyFile sha256 source sink chunkSize entry 1

/-- The entries in turn, each replaced by what has become of it. -/
def copyEntries : List WorkspaceEntry → Stateful ω SnapshotError (List WorkspaceEntry)
  | [] => pure []
  | entry :: rest => do
    let final ← copyEntry sha256 source sink chunkSize entry
    let finals ← copyEntries rest
    pure (final :: finals)

/-- `build_workspace_manifest`, raising. -/
def buildManifest (entries : List WorkspaceEntry) (excludedPrefixes : List Text) :
    Stateful ω SnapshotError WorkspaceManifest :=
  ofExcept ((buildWorkspaceManifest isalpha entries excludedPrefixes).mapError .validation)

def materializeWorkspaceSnapshot : Stateful ω SnapshotError WorkspaceManifest := do
  when (chunkSize ≤ 0) (raise (.value "chunk_size must be positive"))
  let scannedManifest ← source.scan
  let manifest ← buildManifest isalpha scannedManifest.entries scannedManifest.excludedPrefixes
  when (manifest.totalBytes ≠ scannedManifest.totalBytes)
    (raise (.validation ⟨"Workspace manifest total does not match its entries",
      "source_manifest_total", none⟩))
  let finalEntries ← copyEntries sha256 source sink chunkSize manifest.entries
  buildManifest isalpha finalEntries manifest.excludedPrefixes

end copy

/-! ## 3. What has been committed -/

namespace SinkEvent

def path : SinkEvent → Text
  | .attempt path | .file path _ _ | .directory path | .link path _ => path

/-- The kind of the entry that an event is about. -/
def kind : SinkEvent → WorkspaceEntryKind
  | .attempt _ | .file _ _ _ => .file
  | .directory _ => .directory
  | .link _ _ => .symlink

def content : SinkEvent → Option (Bytes × Bool)
  | .file _ content executable => some (content, executable)
  | _ => none

end SinkEvent

/-- What happened at one path. -/
def eventsAt (path : Text) (events : List SinkEvent) : List SinkEvent :=
  events.filter fun event => event.path = path

/-- The content last committed for a path, and whether it is executable. -/
def lastCommitted (path : Text) (events : List SinkEvent) : Option (Bytes × Bool) :=
  ((eventsAt path events).filterMap SinkEvent.content).getLast?

/-- How often a file was attempted. -/
def attempts (path : Text) (events : List SinkEvent) : Nat :=
  (eventsAt path events).count (.attempt path)

/-- The manifest says what the events have left. -/
structure Materialized (sha256 : Bytes → Vector UInt8 32) (manifest : WorkspaceManifest)
    (events : List SinkEvent) : Prop where
  files : ∀ e ∈ manifest.entries, e.kind = .file → ∃ content,
    lastCommitted e.relativePath events = some (content, e.executable) ∧
      (content.length : Int) = e.size ∧ e.digest = some (hexdigest (sha256 content))
  directories : ∀ e ∈ manifest.entries, e.kind = .directory →
    .directory e.relativePath ∈ events
  links : ∀ e ∈ manifest.entries, e.kind = .symlink →
    ∃ target, e.linkTarget = some (.ofText target) ∧ .link e.relativePath target ∈ events
  nothingElse : ∀ event ∈ events, ∃ e ∈ manifest.entries,
    e.relativePath = event.path ∧ e.kind = event.kind
  twice : ∀ path, attempts path events ≤ 2

/-! ## 4. One file -/

variable {isalpha : Char → Bool} {sha256 : Bytes → Vector UInt8 32} {transfer : Transfer ω}
  {chunkSize : Int} {s t : ω}

/-- What is passed on in full has the expected size. -/
theorem requireExactChunks_size {expectedSize : Int} {path : Text}
    {failure : Option SnapshotError} {total : Nat} {chunks : List Chunk}
    (h : (requireExactChunks expectedSize path failure total chunks).failure = none) :
    ((total + (requireExactChunks expectedSize path failure total chunks).chunks.flatten.length :
      Nat) : Int) = expectedSize := by
  induction chunks generalizing total with
  | nil =>
    unfold requireExactChunks at h ⊢
    cases failure with
    | some e => exact nomatch h
    | none =>
      simp only [ne_eq, ite_eq_right_iff, reduceCtorEq, imp_false, not_not] at h
      simpa using h
  | cons chunk rest ih =>
    cases chunk with
    | other => exact nomatch h
    | bytes chunk =>
      unfold requireExactChunks at h ⊢
      split at h
      · exact nomatch h
      rename_i hfits
      simp only [hfits, if_false]
      by_cases hempty : chunk = []
      · subst hempty
        simp only [if_true] at h ⊢
        exact ih h
      · simp only [hempty, if_false] at h ⊢
        have hrest := ih h
        rw [List.flatten_cons, List.length_append, ← Nat.add_assoc]
        exact hrest

/-- What copying a file comes to: its attempts, the last of them committed. -/
structure CopiedFile (sha256 : Bytes → Vector UInt8 32) (entry final : WorkspaceEntry)
    (events : List SinkEvent) : Prop where
  path : final.relativePath = entry.relativePath
  kind : final.kind = entry.kind
  about : ∀ event ∈ events, event.path = entry.relativePath ∧ event.kind = .file
  content : ∃ content, (events.filterMap SinkEvent.content).getLast? =
      some (content, final.executable) ∧
    (content.length : Int) = final.size ∧ final.digest = some (hexdigest (sha256 content))

theorem retried_relativePath {entry : WorkspaceEntry} {size mtimeNs : Option Int} :
    (entry.retried size mtimeNs).relativePath = entry.relativePath := by
  cases size <;> cases mtimeNs <;> rfl

theorem retried_kind {entry : WorkspaceEntry} {size mtimeNs : Option Int} :
    (entry.retried size mtimeNs).kind = entry.kind := by
  cases size <;> cases mtimeNs <;> rfl

/-- An attempt that has come to nothing, or to a commit that the next one replaces. -/
theorem CopiedFile.again {entry final : WorkspaceEntry} {size mtimeNs : Option Int}
    {earlier later : List SinkEvent}
    (hearlier : ∀ event ∈ earlier, event.path = entry.relativePath ∧ event.kind = .file)
    (h : CopiedFile sha256 (entry.retried size mtimeNs) final later) :
    CopiedFile sha256 entry final (earlier ++ later) where
  path := h.path.trans retried_relativePath
  kind := h.kind.trans retried_kind
  about := by
    intro event hevent
    rcases List.mem_append.mp hevent with hevent | hevent
    · exact hearlier event hevent
    · have := h.about event hevent
      rwa [retried_relativePath] at this
  content := by
    obtain ⟨content, hlast, hsize, hdigest⟩ := h.content
    refine ⟨content, ?_, hsize, hdigest⟩
    rw [List.filterMap_append, List.getLast?_append, hlast]
    rfl

/-- The file of an attempt that has been committed. -/
theorem CopiedFile.single {entry : WorkspaceEntry} {content : Bytes}
    (hsize : (content.length : Int) = entry.size) :
    CopiedFile sha256 entry { entry with digest := some (hexdigest (sha256 content)) }
      [.attempt entry.relativePath, .file entry.relativePath content entry.executable] where
  path := rfl
  kind := rfl
  about := by simp [SinkEvent.path, SinkEvent.kind]
  content := ⟨content, rfl, hsize, rfl⟩

/-- What one more attempt adds to what those after it come to. -/
def Copies (transfer : Transfer ω) (sha256 : Bytes → Vector UInt8 32) (entry : WorkspaceEntry)
    (limit : Nat) (s : ω) (final : WorkspaceEntry) (t : ω) : Prop :=
  ∃ events, transfer.history t = transfer.history s ++ events ∧
    CopiedFile sha256 entry final events ∧ events.count (.attempt entry.relativePath) ≤ limit

theorem Copies.again {entry final : WorkspaceEntry} {size mtimeNs : Option Int} {limit : Nat}
    {u : ω} {earlier : List SinkEvent}
    (hearlier : ∀ event ∈ earlier, event.path = entry.relativePath ∧ event.kind = .file)
    (once : earlier.count (.attempt entry.relativePath) ≤ 1)
    (hst : transfer.history t = transfer.history s ++ earlier)
    (h : Copies transfer sha256 (entry.retried size mtimeNs) limit t final u) :
    Copies transfer sha256 entry (limit + 1) s final u := by
  obtain ⟨later, htu, hcopied, hcount⟩ := h
  rw [retried_relativePath] at hcount
  refine ⟨earlier ++ later, ?_, hcopied.again hearlier, ?_⟩
  · rw [htu, hst, List.append_assoc]
  · rw [List.count_append]
    omega

theorem attemptFile_ends {entry : WorkspaceEntry} {limit : Nat}
    {changed : Text → Option Int → Option Int → Stateful ω SnapshotError WorkspaceEntry}
    (hchanged : ∀ path size mtimeNs u, (changed path size mtimeNs).Ends u
      (fun final t => Copies transfer sha256 (entry.retried size mtimeNs) limit u final t)
      fun _ _ => True) :
    (attemptFile sha256 transfer.source transfer.sink chunkSize entry changed).Ends s
      (Copies transfer sha256 entry (limit + 1) s) fun _ _ => True := by
  unfold attemptFile
  rw [ends_bind]
  apply (transfer.iterFileChunks entry chunkSize s).mono
  · intro iterator u hu
    dsimp only
    rw [ends_bind, ends_attempt]
    apply (transfer.writeFile _ _ _ _ u).mono
    · intro taken t ⟨htaken, hwhole, ht⟩
      subst htaken
      have hsize := requireExactChunks_size hwhole
      rw [Nat.zero_add] at hsize
      rw [hu] at ht
      exact ⟨_, ht, .single hsize, by simp⟩
    · intro e t ht
      cases e with
      | changed path size mtimeNs =>
        apply (hchanged path size mtimeNs t).mono
        · intro final v hcopies
          -- the attempt that failed has committed nothing, or what the next one replaces
          rw [hu] at ht
          rcases ht with ht | ⟨_, ht⟩
          · exact hcopies.again (by simp [SinkEvent.path, SinkEvent.kind]) (by simp) ht
          · exact hcopies.again (by simp [SinkEvent.path, SinkEvent.kind]) (by simp) ht
        · exact fun _ _ => id
      | _ => trivial
  · exact fun _ _ => id

theorem copyFile_ends {entry : WorkspaceEntry} {left : Nat} :
    (copyFile sha256 transfer.source transfer.sink chunkSize entry left).Ends s
      (Copies transfer sha256 entry (left + 1) s) fun _ _ => True := by
  induction left generalizing entry s with
  | zero => exact attemptFile_ends fun _ _ _ _ => trivial
  | succ left ih =>
    apply attemptFile_ends
    intro path size mtimeNs u
    exact ih

/-! ## 5. All of them -/

/-- What copying an entry comes to. -/
structure Copied (sha256 : Bytes → Vector UInt8 32) (entry final : WorkspaceEntry)
    (events : List SinkEvent) : Prop where
  path : final.relativePath = entry.relativePath
  kind : final.kind = entry.kind
  about : ∀ event ∈ events, event.path = entry.relativePath ∧ event.kind = entry.kind
  twice : events.count (.attempt entry.relativePath) ≤ 2
  file : entry.kind = .file → CopiedFile sha256 entry final events
  directory : entry.kind = .directory → .directory entry.relativePath ∈ events
  link : entry.kind = .symlink →
    ∃ target, final.linkTarget = some (.ofText target) ∧ .link entry.relativePath target ∈ events

theorem encodeTarget_ends {target : RawText} {Q : Text → ω → Prop}
    (h : ∀ text, target = .ofText text → Q text s) :
    (encodeTarget target).Ends s Q fun _ _ => True := by
  unfold encodeTarget
  cases htext : target.text? with
  | none => trivial
  | some text => exact h text (Data.RawText.text?_eq_some.mp htext)

theorem copyEntry_ends {entry : WorkspaceEntry} (listed : Admissible isalpha entry) :
    (copyEntry sha256 transfer.source transfer.sink chunkSize entry).Ends s
      (fun final t => ∃ events, transfer.history t = transfer.history s ++ events ∧
        Copied sha256 entry final events) fun _ _ => True := by
  unfold copyEntry
  split
  · rename_i hkind
    rw [ends_bind]
    apply (transfer.makeDirectory _ _ s).mono
    · intro _ t ht
      refine ⟨_, ht, rfl, rfl, ?_, ?_, ?_, ?_, ?_⟩ <;> simp [SinkEvent.path, SinkEvent.kind, hkind]
    · exact fun _ _ => id
  · rename_i hkind
    split
    · trivial
    · rename_i target htarget
      rw [ends_bind]
      apply encodeTarget_ends
      rintro target rfl
      rw [ends_bind]
      apply (transfer.makeSymlink _ _ s).mono
      · intro _ t ht
        refine ⟨_, ht, rfl, rfl, ?_, ?_, ?_, ?_, ?_⟩ <;>
          simp [SinkEvent.path, SinkEvent.kind, hkind, htarget]
      · exact fun _ _ => id
  · rename_i hdirectory hsymlink
    have hkind : entry.kind = .file := by
      rcases listed.kind with h | h | h
      · exact h
      · exact absurd h hdirectory
      · exact absurd h hsymlink
    apply copyFile_ends.mono
    · intro final t ⟨events, ht, hcopied, htwice⟩
      refine ⟨events, ht, hcopied.path, hcopied.kind, ?_, htwice, fun _ => hcopied, ?_, ?_⟩
      · rw [hkind]
        exact hcopied.about
      · exact fun h => absurd h hdirectory
      · exact fun h => absurd h hsymlink
    · exact fun _ _ => id

/-- The entries are copied one after the other. -/
inductive AllCopied (sha256 : Bytes → Vector UInt8 32) :
    (entries finals : List WorkspaceEntry) → List SinkEvent → Prop
  | nil : AllCopied sha256 [] [] []
  | cons {entry final : WorkspaceEntry} {entries finals : List WorkspaceEntry}
      {events later : List SinkEvent} (here : Copied sha256 entry final events)
      (rest : AllCopied sha256 entries finals later) :
      AllCopied sha256 (entry :: entries) (final :: finals) (events ++ later)

theorem copyEntries_ends {entries : List WorkspaceEntry}
    (listed : ∀ e ∈ entries, Admissible isalpha e) :
    (copyEntries sha256 transfer.source transfer.sink chunkSize entries).Ends s
      (fun finals t => ∃ events, transfer.history t = transfer.history s ++ events ∧
        AllCopied sha256 entries finals events) fun _ _ => True := by
  induction entries generalizing s with
  | nil => exact ⟨[], (List.append_nil _).symm, .nil⟩
  | cons entry entries ih =>
    obtain ⟨hentry, hentries⟩ := List.forall_mem_cons.mp listed
    unfold copyEntries
    rw [ends_bind]
    apply (copyEntry_ends hentry).mono
    · intro final t ⟨events, ht, hcopied⟩
      rw [ends_bind]
      apply (ih hentries).mono
      · intro finals u ⟨later, hu, hall⟩
        refine ⟨events ++ later, ?_, .cons hcopied hall⟩
        show transfer.history u = _
        rw [hu, ht, List.append_assoc]
      · exact fun _ _ => id
    · exact fun _ _ => id

namespace AllCopied

variable {entries finals : List WorkspaceEntry} {events : List SinkEvent}

theorem paths (h : AllCopied sha256 entries finals events) :
    finals.map WorkspaceEntry.relativePath = entries.map WorkspaceEntry.relativePath := by
  induction h with
  | nil => rfl
  | cons here _ ih => rw [List.map_cons, List.map_cons, ih, here.path]

theorem about (h : AllCopied sha256 entries finals events) :
    ∀ event ∈ events, ∃ final ∈ finals,
      final.relativePath = event.path ∧ final.kind = event.kind := by
  induction h with
  | nil => exact nofun
  | cons here _ ih =>
    intro event hevent
    rcases List.mem_append.mp hevent with hevent | hevent
    · obtain ⟨hpath, hkind⟩ := here.about event hevent
      exact ⟨_, List.mem_cons_self, here.path.trans hpath.symm, here.kind.trans hkind.symm⟩
    · obtain ⟨final, hmem, h⟩ := ih event hevent
      exact ⟨final, List.mem_cons_of_mem _ hmem, h⟩

theorem eventsAt_eq_nil {path : Text} (h : AllCopied sha256 entries finals events)
    (absent : path ∉ finals.map WorkspaceEntry.relativePath) : eventsAt path events = [] := by
  unfold eventsAt
  rw [List.filter_eq_nil_iff]
  intro event hevent hpath
  obtain ⟨final, hmem, hfinal, -⟩ := h.about event hevent
  exact absent (List.mem_map.mpr ⟨final, hmem, hfinal.trans (of_decide_eq_true hpath)⟩)

/-- What happened at a path is what copying its entry came to. -/
theorem eventsAt_eq (h : AllCopied sha256 entries finals events)
    (distinct : (finals.map WorkspaceEntry.relativePath).Nodup) :
    ∀ final ∈ finals, ∃ entry, Copied sha256 entry final (eventsAt final.relativePath events) := by
  induction h with
  | nil => exact nofun
  | @cons entry final entries finals events later here rest ih =>
    rw [List.map_cons, List.nodup_cons] at distinct
    intro f hf
    unfold eventsAt
    rw [List.filter_append]
    rcases List.mem_cons.mp hf with rfl | hf
    · refine ⟨entry, ?_⟩
      have own : events.filter (fun event => event.path = f.relativePath) = events := by
        rw [List.filter_eq_self]
        intro event hevent
        exact decide_eq_true ((here.about event hevent).1.trans here.path.symm)
      have none : later.filter (fun event => event.path = f.relativePath) = [] :=
        rest.eventsAt_eq_nil distinct.1
      rw [own, none, List.append_nil]
      exact here
    · obtain ⟨e, hcopied⟩ := ih distinct.2 f hf
      refine ⟨e, ?_⟩
      have none : events.filter (fun event => event.path = f.relativePath) = [] := by
        rw [List.filter_eq_nil_iff]
        intro event hevent hpath
        apply distinct.1
        rw [here.path, ← (here.about event hevent).1, of_decide_eq_true hpath]
        exact List.mem_map_of_mem hf
      rw [none, List.nil_append]
      exact hcopied

end AllCopied

/-! ## 6. The manifest that is returned -/

theorem hexDigit_mem {n : Nat} : hexDigit n ∈ hexDigits := by
  unfold hexDigit
  rw [List.getD_eq_getElem?_getD]
  by_cases h : n < hexDigits.length
  · rw [List.getElem?_eq_getElem h]
    exact List.getElem_mem h
  · rw [List.getElem?_eq_none (Nat.le_of_not_lt h)]
    decide

theorem casefold_hexdigest {digest : Vector UInt8 32} :
    casefold (hexdigest digest) = hexdigest digest := by
  apply casefold_hex
  intro c hc
  obtain ⟨b, -, hc⟩ := List.mem_flatMap.mp hc
  simp only [List.mem_cons, List.not_mem_nil, or_false] at hc
  rcases hc with rfl | rfl <;> exact hexDigit_mem

theorem AllCopied.materialized {entries finals : List WorkspaceEntry} {events : List SinkEvent}
    {excludedPrefixes : List Text} (h : AllCopied sha256 entries finals events)
    (distinct : (finals.map WorkspaceEntry.relativePath).Nodup) :
    Materialized sha256 (manifestOf finals excludedPrefixes) events where
  files := by
    intro e he hkind
    obtain ⟨final, hfinal, rfl⟩ := mem_manifestOf.mp he
    obtain ⟨entry, hcopied⟩ := h.eventsAt_eq distinct final hfinal
    obtain ⟨content, hlast, hsize, hdigest⟩ :=
      (hcopied.file (hcopied.kind.symm.trans hkind)).content
    have hkind : final.kind = .file := hkind
    refine ⟨content, ?_, ?_, ?_⟩
    · simpa [lastCommitted, WorkspaceEntry.canonical, hkind] using hlast
    · simpa [WorkspaceEntry.canonical, hkind] using hsize
    · simp [WorkspaceEntry.canonical, hkind, hdigest, casefold_hexdigest]
  directories := by
    intro e he hkind
    obtain ⟨final, hfinal, rfl⟩ := mem_manifestOf.mp he
    obtain ⟨entry, hcopied⟩ := h.eventsAt_eq distinct final hfinal
    have hmade := hcopied.directory (hcopied.kind.symm.trans hkind)
    rw [← hcopied.path] at hmade
    exact List.mem_of_mem_filter hmade
  links := by
    intro e he hkind
    obtain ⟨final, hfinal, rfl⟩ := mem_manifestOf.mp he
    obtain ⟨entry, hcopied⟩ := h.eventsAt_eq distinct final hfinal
    obtain ⟨target, htarget, hmade⟩ := hcopied.link (hcopied.kind.symm.trans hkind)
    rw [← hcopied.path] at hmade
    exact ⟨target, htarget, List.mem_of_mem_filter hmade⟩
  nothingElse := by
    intro event hevent
    obtain ⟨final, hfinal, hevent⟩ := h.about event hevent
    exact ⟨final.canonical, mem_manifestOf.mpr ⟨final, hfinal, rfl⟩, hevent⟩
  twice := by
    intro path
    unfold attempts
    by_cases hmem : path ∈ finals.map WorkspaceEntry.relativePath
    · obtain ⟨final, hfinal, rfl⟩ := List.mem_map.mp hmem
      obtain ⟨entry, hcopied⟩ := h.eventsAt_eq distinct final hfinal
      have htwice := hcopied.twice
      rwa [← hcopied.path] at htwice
    · rw [h.eventsAt_eq_nil hmem]
      exact Nat.zero_le _

theorem buildManifest_ends {entries : List WorkspaceEntry} {excludedPrefixes : List Text}
    {Q : WorkspaceManifest → ω → Prop}
    (h : Buildable isalpha entries excludedPrefixes → Q (manifestOf entries excludedPrefixes) s) :
    (buildManifest isalpha entries excludedPrefixes).Ends s Q fun _ _ => True := by
  unfold buildManifest
  rw [ends_ofExcept]
  cases hbuild : buildWorkspaceManifest isalpha entries excludedPrefixes with
  | error e => trivial
  | ok manifest =>
    obtain ⟨hbuildable, rfl⟩ := build_ok_iff.mp hbuild
    exact h hbuildable

/-- **What the copy returns is what it has left.** -/
theorem materialize_faithful {manifest : WorkspaceManifest}
    (h : materializeWorkspaceSnapshot isalpha sha256 transfer.source transfer.sink chunkSize s =
      (.ok manifest, t)) :
    ∃ events, transfer.history t = transfer.history s ++ events ∧
      Materialized sha256 manifest events := by
  refine Ends.returned (Q := fun manifest t => ∃ events,
    transfer.history t = transfer.history s ++ events ∧ Materialized sha256 manifest events)
    (E := fun _ _ => True) ?_ h
  unfold materializeWorkspaceSnapshot
  rw [ends_bind, ends_when]
  refine ⟨fun _ => trivial, fun _ => ?_⟩
  rw [ends_bind]
  apply (transfer.scan s).mono
  · intro scanned u hscan
    rw [ends_bind]
    apply buildManifest_ends
    intro hbuildable
    rw [ends_bind, ends_when]
    refine ⟨fun _ => trivial, fun _ => ?_⟩
    rw [ends_bind]
    apply (copyEntries_ends hbuildable.again.admissible).mono
    · intro finals v ⟨events, hevents, hall⟩
      apply buildManifest_ends
      intro hfinals
      rw [hscan] at hevents
      exact ⟨events, hevents, hall.materialized hfinals.distinct⟩
    · exact fun _ _ => id
  · exact fun _ _ => id

/-- A sink that keeps what it is given in memory, and the number of reads there have been. -/
structure Memory where
  events : List SinkEvent
  reads : Nat
  deriving DecidableEq

def memorySink : SnapshotSink Memory where
  makeDirectory path _ := modify fun m => { m with events := m.events ++ [.directory path] }
  makeSymlink path target := modify fun m => { m with events := m.events ++ [.link path target] }
  writeFile path iterator executable _ := do
    modify fun m => { m with events := m.events ++ [.attempt path] }
    match iterator.failure with
    | some e => raise e
    | none =>
      modify fun m => { m with
        events := m.events ++ [.file path iterator.chunks.flatten executable] }
      pure iterator.chunks

/-- A file of one byte that has two by the time it is read, and says so. -/
def growingSource : SnapshotSource Memory where
  scan := pure ⟨[{ relativePath := ['a'], kind := .file, size := 1 }], 1, []⟩
  iterFileChunks _ _ := do
    let m ← get
    modify fun m => { m with reads := m.reads + 1 }
    pure (if m.reads = 0 then ⟨[], some (.changed ['a'] (some 2) (some 5))⟩
      else ⟨[.bytes [1], .bytes [], .bytes [2]], none⟩)

def growing : Transfer Memory where
  source := growingSource
  sink := memorySink
  history := Memory.events
  scan _ := rfl
  iterFileChunks _ _ _ := rfl
  makeDirectory _ _ _ := rfl
  makeSymlink _ _ _ := rfl
  writeFile path iterator executable n s := by
    obtain ⟨chunks, failure⟩ := iterator
    cases failure with
    | some e => simp [memorySink]
    | none => simp [memorySink]

/-- A digest that differs from content to content: the first bytes, each moved by the length. -/
def byteDigest (content : Bytes) : Vector UInt8 32 :=
  .ofFn fun i => content.getD i 0 + UInt8.ofNat content.length

/-- A file that grows under the copy is copied as it has become, on the second attempt. -/
theorem materialize_faithful_growing : ∃ manifest t,
    materializeWorkspaceSnapshot Char.isAlpha byteDigest growing.source
      growing.sink 1024 ⟨[], 0⟩ = (.ok manifest, t) ∧
    manifest.totalBytes = 2 ∧
    ∃ events, t.events = [] ++ events ∧
      Materialized byteDigest manifest events := by
  have run : materializeWorkspaceSnapshot Char.isAlpha byteDigest growing.source
      growing.sink 1024 ⟨[], 0⟩ = (.ok ⟨[{
        relativePath := ['a'], kind := .file, size := 2, mtimeNs := 5,
        digest := some ("0304".toList ++ (List.replicate 30 "02".toList).flatten) }], 2, []⟩,
      ⟨[.attempt ['a'], .attempt ['a'], .file ['a'] [1, 2] false], 2⟩) := by decide +kernel
  exact ⟨_, _, run, rfl, @materialize_faithful _ _ _ growing _ _ _ _ run⟩

end Termroom.Sources
