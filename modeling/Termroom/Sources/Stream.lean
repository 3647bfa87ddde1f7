import Termroom.Sources.Scan
import Termroom.Data.JsonText
import Mathlib.Algebra.Order.BigOperators.Group.List

/-!
# The manifest of a Node

A Node scans its Source as a Local scan does, and streams the manifest: a line of JSON for each
entry. The Core (`NodeWorkspaceSnapshotSource.scan`) takes the stream chunk by chunk, reads each
line as it is complete, and builds the manifest again.

The lines are all there is in the stream. How it is cut into chunks makes no difference, as long
as each line encodes and none is longer than a message (`entries_survive`); but the excluded
prefixes are on no line, and the Core builds the manifest without them. So the manifest survives
exactly if it has none (`manifest_survives_iff`).
-/

set_option autoImplicit false

namespace Termroom.Sources

open Conc Archive Data
open Data (RawText)

/-! ## 1. Python's conversions -/

def newline : UInt8 := 10

/-- What Python's own conversions make of the values that no manifest holds. -/
structure Conversions where
  /-- `repr(float(token))`, for a number with a fraction or an exponent. -/
  float : Text → String
  /-- `int(value)` of a float or a string, `none` where it raises. -/
  int : Json → Option Int
  /-- `str(value)` of a list or a `dict`. -/
  str : Json → Text

/-- `json.loads(raw)` of bytes that are in UTF-8. -/
def Conversions.loads (python : Conversions) (raw : Bytes) : Option Json := do
  let text ← decodeUtf8 (if [0xEF, 0xBB, 0xBF].isPrefixOf raw then raw.drop 3 else raw)
  Json.loads python.float text

/-- `int(value)`. -/
def Conversions.toInt (python : Conversions) : Json → Option Int
  | .int value => some value
  | .bool value => some (if value then 1 else 0)
  | .null | .arr _ | .obj _ => none
  | value => python.int value

/-- `str(value)`. -/
def Conversions.toStr (python : Conversions) : Json → Text
  | .str value => value.toList
  | .int value => Json.dumpsInt value
  | .bool true => "True".toList
  | .bool false => "False".toList
  | .null => "None".toList
  | .float text => text.toList
  | value => python.str value

/-! ## 2. The Node -/

/-- `_workspace_source_entry_payload`. A target with a surrogate is shown: no line of it encodes. -/
def workspaceSourceEntryPayload (entry : WorkspaceEntry) : JsonObject :=
  [("path", .str (String.ofList entry.relativePath)),
    ("kind", .str (String.ofList entry.kind.name)), ("size", .int entry.size),
    ("mtime_ns", .int entry.mtimeNs), ("executable", .bool entry.executable)] ++
  match entry.linkTarget with
  | some target => [("link_target", .str (String.ofList target.shown))]
  | none => []

/-- The target of a link is valid UTF-8. -/
def WorkspaceEntry.Encodes (entry : WorkspaceEntry) : Prop :=
  ∀ target ∈ entry.linkTarget, target.text? ≠ none

instance (entry : WorkspaceEntry) : Decidable entry.Encodes :=
  inferInstanceAs (Decidable (∀ target ∈ entry.linkTarget, target.text? ≠ none))

/-- The line of an entry, less the newline. -/
def entryLine (entry : WorkspaceEntry) : Bytes :=
  utf8 (Json.dumps (.obj (workspaceSourceEntryPayload entry)))

/-- `_workspace_source_entry_bytes`: `none` where `encode` raises. -/
def workspaceSourceEntryBytes (entry : WorkspaceEntry) : Option Bytes :=
  if entry.Encodes then
    some (utf8 (Json.dumps (.obj (workspaceSourceEntryPayload entry)) ++ ['\n']))
  else none

def maxNodeStreamChunkBytes : Nat := 64 * 1024

def maxNodeMessageBytes : Nat := 1024 * 1024

/-- How many chunks there are of so many bytes. -/
def chunkCount (size : Nat) : Nat := (size + maxNodeStreamChunkBytes - 1) / maxNodeStreamChunkBytes

/-- `chunks()` of `WorkspaceManifestAgentStream.start`. -/
def manifestChunks (manifest : WorkspaceManifest) : Option (List Bytes) := do
  let lines ← manifest.entries.mapM workspaceSourceEntryBytes
  return lines.flatMap fun encoded =>
    (List.range (chunkCount encoded.length)).map fun index =>
      (encoded.drop (index * maxNodeStreamChunkBytes)).take maxNodeStreamChunkBytes

/-- All that a manifest is streamed as. -/
def manifestStream (entries : List WorkspaceEntry) : Option Bytes := do
  let lines ← entries.mapM workspaceSourceEntryBytes
  return lines.flatten

def frameCount (manifest : WorkspaceManifest) : Option Nat := do
  let lines ← manifest.entries.mapM workspaceSourceEntryBytes
  return (lines.map fun encoded => chunkCount encoded.length).sum

/-- The result of `remote_run_source.manifest.open`. -/
def manifestResult (streamId : String) (manifest : WorkspaceManifest) (frames : Nat) :
    JsonObject :=
  [("stream_id", .str streamId), ("remote_run_source_version", .int 1), ("stream_window", .int 8),
    ("frame_count", .int frames), ("entry_count", .int manifest.entries.length),
    ("total_bytes", .int manifest.totalBytes)]

/-- `_remote_run_source_manifest_open`: `none` where a line does not encode. -/
def manifestOpened (streamId : String) (manifest : WorkspaceManifest) : Option JsonObject := do
  let frames ← frameCount manifest
  return manifestResult streamId manifest frames

/-! ## 3. The Core -/

/-- What `scan` raises. -/
inductive NodeScanError where
  | remoteRun (message code : String)
  | source (error : SourceValidationError)
  deriving DecidableEq, Repr

variable (python : Conversions) (isalpha : Char → Bool)

def kindOf (name : Text) : WorkspaceEntryKind :=
  if name = "file".toList then .file
  else if name = "directory".toList then .directory
  else if name = "symlink".toList then .symlink
  else .other name

/-- `str(value.get(name) or "")`. -/
def textField (fields : JsonObject) (name : String) : Text :=
  let value := Json.get fields name
  if value.truthy then python.toStr value else []

/-- `_entry`. -/
def readEntry : Json → Checked WorkspaceEntry
  | .obj fields =>
    match python.toInt (Json.get fields "size"), python.toInt (Json.get fields "mtime_ns") with
    | some size, some mtimeNs =>
      .ok {
        relativePath := textField python fields "path"
        kind := kindOf (textField python fields "kind")
        size, mtimeNs
        executable := Json.get fields "executable" = .bool true
        linkTarget :=
          match Json.get fields "link_target" with
          | .null => none
          | value => some (.ofText (python.toStr value)) }
    | _, _ => .error ⟨"Node Workspace manifest entry is invalid", "source_manifest", none⟩
  | _ => .error ⟨"Node Workspace manifest entry is invalid", "source_manifest", none⟩

/-- One complete line. -/
def readLine (line : Bytes) : Checked WorkspaceEntry := do
  refuse (line = []) "Node Workspace manifest stream is invalid" "source_manifest" none
  match python.loads line with
  | some value => readEntry python value
  | none => .error ⟨"Node Workspace manifest stream is invalid", "source_manifest", none⟩

/-- One chunk: the entries so far, and what is `buffered`. The inner loop cuts the buffer at its
    newlines, and reads each line that is complete. -/
def receiveChunk (state : List WorkspaceEntry × Bytes) (chunk : Bytes) :
    Checked (List WorkspaceEntry × Bytes) := do
  let buffered := state.2 ++ chunk
  let entries ← (Split.closedParts newline buffered).mapM (readLine python)
  let buffered := Split.openPart newline buffered
  refuse (buffered.length > maxNodeMessageBytes) "Node Workspace manifest entry is too large"
    "source_manifest" none
  return (state.1 ++ entries, buffered)

/-- `_require_stream_contract`. -/
def requireStreamContract (result : JsonObject) : Except NodeScanError Unit :=
  if Json.get result "remote_run_source_version" ≠ .int 1 ∨
      Json.get result "stream_window" ≠ .int 8 then
    .error (.remoteRun "Node Remote Run Source stream is incompatible; update Termroom"
      "remote_run_source_version_incompatible")
  else .ok ()

/-- `_stream_frame_count`. -/
def streamFrameCount (result : JsonObject) : Except NodeScanError Int :=
  let invalid : NodeScanError :=
    .remoteRun "Node Remote Run Source frame count is invalid" "source_stream_invalid"
  match Json.get result "frame_count" with
  | .int frameCount => if frameCount < 0 then .error invalid else .ok frameCount
  | _ => .error invalid

/-- `_result_integer`. -/
def resultInteger (result : JsonObject) (name : String) : Except NodeScanError Int :=
  let invalid : NodeScanError :=
    .source ⟨"Node Workspace manifest metadata is invalid", "source_manifest", none⟩
  match Json.get result name with
  | .bool _ => .error invalid
  | value =>
    match python.toInt value with
    | some normalized => if normalized < 0 then .error invalid else .ok normalized
    | none => .error invalid

/-- The part of `scan` behind the answer: `chunks` is what the stream's reader returns. -/
def readManifest (expectedCount expectedTotal : Int) (chunks : List Bytes) :
    Checked WorkspaceManifest := do
  let (entries, buffered) ← chunks.foldlM (receiveChunk python) ([], [])
  refuse (buffered ≠ []) "Node Workspace manifest stream ended mid-entry" "source_manifest" none
  let manifest ← buildWorkspaceManifest isalpha entries
  refuse (manifest.entries.length ≠ expectedCount ∨ manifest.totalBytes ≠ expectedTotal)
    "Node Workspace manifest metadata does not match its entries" "source_manifest_total" none
  return manifest

/-- `NodeWorkspaceSnapshotSource.scan`. -/
def scanNodeWorkspace (result : JsonObject) (chunks : List Bytes) :
    Except NodeScanError WorkspaceManifest := do
  requireStreamContract result
  let _ ← streamFrameCount result
  let expectedCount ← resultInteger python result "entry_count"
  let expectedTotal ← resultInteger python result "total_bytes"
  (readManifest python isalpha expectedCount expectedTotal chunks).mapError .source

/-! ## 4. An entry as a line -/

section lines

variable {python} {isalpha} {entry : WorkspaceEntry} {entries : List WorkspaceEntry}

theorem payload_readable {float : List Char → String} :
    Json.Readable float (.obj (workspaceSourceEntryPayload entry)) := by
  unfold workspaceSourceEntryPayload
  cases entry.linkTarget with
  | none =>
    have names : ["path", "kind", "size", "mtime_ns", "executable"].Nodup := by decide
    exact ⟨names, trivial, trivial, trivial, trivial, trivial, trivial⟩
  | some target =>
    have names : ["path", "kind", "size", "mtime_ns", "executable", "link_target"].Nodup := by
      decide
    exact ⟨names, trivial, trivial, trivial, trivial, trivial, trivial, trivial⟩

theorem newline_notMem : newline ∉ entryLine entry := by
  intro hmem
  have plain := Json.dumps_plain (fun text => String.ofList text) _
    (@payload_readable entry _)
  have := utf8_plain plain _ hmem
  exact absurd this (by decide)

/-- The line of an entry as it is sent. -/
def sentLine (entry : WorkspaceEntry) : Bytes := entryLine entry ++ [newline]

theorem entryBytes_eq (h : entry.Encodes) :
    workspaceSourceEntryBytes entry = some (sentLine entry) := by
  unfold workspaceSourceEntryBytes sentLine entryLine utf8
  rw [if_pos h, List.flatMap_append]
  rfl

/-- All lines are encoded before any is sent. -/
theorem mapM_entryBytes {lines : List Bytes} :
    entries.mapM workspaceSourceEntryBytes = some lines ↔
      (∀ e ∈ entries, e.Encodes) ∧ lines = entries.map sentLine := by
  induction entries generalizing lines with
  | nil => simp [eq_comm]
  | cons e entries ih =>
    rw [List.mapM_cons, Option.bind_eq_bind, Option.bind_eq_some_iff, List.forall_mem_cons]
    constructor
    · intro ⟨line, hline, h⟩
      obtain ⟨rest, hrest, h⟩ := Option.bind_eq_some_iff.mp h
      obtain ⟨hentries, rfl⟩ := ih.mp hrest
      have he : e.Encodes := by
        by_contra hraises
        exact absurd ((if_neg hraises).symm.trans hline) (by simp)
      rw [entryBytes_eq he] at hline
      exact ⟨⟨he, hentries⟩, by rw [← Option.some.inj h, ← Option.some.inj hline]; rfl⟩
    · intro ⟨⟨he, hentries⟩, hlines⟩
      refine ⟨_, entryBytes_eq he, ?_⟩
      rw [ih.mpr ⟨hentries, rfl⟩, hlines]
      rfl

/-- A line starts with a brace. -/
theorem entryLine_head : ∃ more, entryLine entry = 0x7b :: more := ⟨_, rfl⟩

theorem loads_entryLine :
    python.loads (entryLine entry) = some (.obj (workspaceSourceEntryPayload entry)) := by
  obtain ⟨more, hmore⟩ := @entryLine_head entry
  have unmarked : [0xEF, 0xBB, 0xBF].isPrefixOf (entryLine entry) = false := by
    rw [hmore]
    rfl
  rw [Conversions.loads, unmarked, if_neg Bool.false_ne_true, entryLine, decodeUtf8_utf8]
  exact Json.loads_dumps _ payload_readable

/-- An entry that a scan collects: it has no digest, and its kind is one of the three. -/
structure Collected (entry : WorkspaceEntry) : Prop where
  kind : entry.kind = .file ∨ entry.kind = .directory ∨ entry.kind = .symlink
  digest : entry.digest = none

/-- An entry that is sent. -/
structure Streamed (entry : WorkspaceEntry) : Prop extends Collected entry where
  encodes : entry.Encodes

theorem kindOf_name {kind : WorkspaceEntryKind}
    (h : kind = .file ∨ kind = .directory ∨ kind = .symlink) : kindOf kind.name = kind := by
  rcases h with rfl | rfl | rfl <;> decide

theorem textField_str {fields : JsonObject} {name : String} {text : Text}
    (h : Json.get fields name = .str (String.ofList text)) : textField python fields name = text := by
  unfold textField
  rw [h]
  cases text with
  | nil => rfl
  | cons c text =>
    have nonempty : (Json.str (String.ofList (c :: text))).truthy = true := by simp [Json.truthy]
    simp only [nonempty, if_true, Conversions.toStr, String.toList_ofList]

theorem get_payload :
    Json.get (workspaceSourceEntryPayload entry) "path" =
      .str (String.ofList entry.relativePath) ∧
    Json.get (workspaceSourceEntryPayload entry) "kind" = .str (String.ofList entry.kind.name) ∧
    Json.get (workspaceSourceEntryPayload entry) "size" = .int entry.size ∧
    Json.get (workspaceSourceEntryPayload entry) "mtime_ns" = .int entry.mtimeNs ∧
    Json.get (workspaceSourceEntryPayload entry) "executable" = .bool entry.executable :=
  ⟨rfl, rfl, rfl, rfl, rfl⟩

theorem get_linkTarget : Json.get (workspaceSourceEntryPayload entry) "link_target" =
    match entry.linkTarget with
    | some target => .str (String.ofList target.shown)
    | none => .null := by
  unfold workspaceSourceEntryPayload
  cases entry.linkTarget <;> rfl

/-- **A line reads back as its entry.** -/
theorem readLine_entryLine (h : Streamed entry) : readLine python (entryLine entry) = .ok entry := by
  obtain ⟨more, hmore⟩ := @entryLine_head entry
  obtain ⟨hpath, hkind, hsize, hmtime, hexecutable⟩ := @get_payload entry
  rw [readLine, refuse_neg (by rw [hmore]; exact List.cons_ne_nil _ _), ok_bind, loads_entryLine]
  simp only [readEntry, hsize, hmtime, hexecutable, textField_str hpath, textField_str hkind,
    kindOf_name h.kind, Conversions.toInt]
  obtain ⟨path, kind, size, mtimeNs, executable, linkTarget, digest⟩ := entry
  obtain rfl : digest = none := h.digest
  have link := @get_linkTarget ⟨path, kind, size, mtimeNs, executable, linkTarget, none⟩
  cases linkTarget with
  | none => simp [link]
  | some target =>
    -- what is shown of the target is the target
    obtain ⟨text, htext⟩ := Option.ne_none_iff_exists'.mp (h.encodes target rfl)
    obtain rfl := Data.RawText.text?_eq_some.mp htext
    simp [link, Conversions.toStr]

theorem mapM_readLine (h : ∀ e ∈ entries, Streamed e) :
    (entries.map entryLine).mapM (readLine python) = .ok entries := by
  induction entries with
  | nil => rfl
  | cons e entries ih =>
    obtain ⟨he, hentries⟩ := List.forall_mem_cons.mp h
    rw [List.map_cons, List.mapM_cons, readLine_entryLine he, ok_bind, ih hentries, ok_bind]
    rfl

/-! ## 5. The stream in chunks -/

variable {seen chunk : Bytes} {chunks : List Bytes} {before : List WorkspaceEntry}

/-- The lines of the entries. -/
def sentLines (entries : List WorkspaceEntry) : Bytes := (entries.map sentLine).flatten

theorem manifestStream_eq {stream : Bytes} : manifestStream entries = some stream ↔
    (∀ e ∈ entries, e.Encodes) ∧ stream = sentLines entries := by
  unfold manifestStream sentLines
  rw [Option.bind_eq_bind, Option.bind_eq_some_iff]
  simp only [mapM_entryBytes]
  constructor
  · intro ⟨lines, ⟨hencodes, hlines⟩, h⟩
    exact ⟨hencodes, by rw [← hlines]; exact (Option.some.inj h).symm⟩
  · intro ⟨hencodes, hstream⟩
    exact ⟨_, ⟨hencodes, rfl⟩, congrArg some hstream.symm⟩

theorem sentLines_cons :
    sentLines (entry :: entries) = entryLine entry ++ newline :: sentLines entries := by
  rw [sentLines, List.map_cons, List.flatten_cons, sentLine, List.append_assoc]
  rfl

theorem sentLines_parts : Split.closedParts newline (sentLines entries) =
    entries.map entryLine ∧ Split.openPart newline (sentLines entries) = [] := by
  induction entries with
  | nil => exact Split.closed_open_of_notMem List.not_mem_nil
  | cons e entries ih =>
    obtain ⟨hclosed, hopen⟩ := @Split.parts_cons _ newline (sentLines entries) _ _
      (@newline_notMem e)
    rw [sentLines_cons, hclosed, hopen, ih.1, ih.2]
    exact ⟨rfl, rfl⟩

/-- The lines that are complete in what has come are those of the entries `before`. -/
structure Complete (entries : List WorkspaceEntry) (seen : Bytes) (before : List WorkspaceEntry) :
    Prop where
  first : before <+: entries
  lines : Split.closedParts newline seen = before.map entryLine

theorem complete_of_prefix (h : seen <+: sentLines entries) :
    ∃ before, Complete entries seen before := by
  obtain ⟨rest, hrest⟩ := h
  have parts := (@sentLines_parts entries).1
  rw [← hrest, Split.parts_append.1] at parts
  refine ⟨entries.take (Split.closedParts newline seen).length, List.take_prefix _ _, ?_⟩
  rw [List.map_take, ← parts, List.take_left]

/-- What is open in a part of the stream is a part of a line. -/
theorem open_of_prefix (h : seen <+: sentLines entries) :
    Split.openPart newline seen = [] ∨
      ∃ e ∈ entries, Split.openPart newline seen <+: entryLine e := by
  induction entries generalizing seen with
  | nil =>
    obtain rfl := List.prefix_nil.mp h
    exact .inl (Split.closed_open_of_notMem List.not_mem_nil).2
  | cons e entries ih =>
    rw [sentLines_cons] at h
    rcases List.prefix_or_prefix_of_prefix h (List.prefix_append _ _) with hwithin | ⟨rest, hrest⟩
    · -- the first line is not complete
      have hnew : newline ∉ seen := fun hmem => newline_notMem (hwithin.subset hmem)
      rw [(Split.closed_open_of_notMem hnew).2]
      exact .inr ⟨e, List.mem_cons_self, hwithin⟩
    · rw [← hrest, List.prefix_append_right_inj] at h
      cases rest with
      | nil =>
        rw [← hrest, List.append_nil, (Split.closed_open_of_notMem newline_notMem).2]
        exact .inr ⟨e, List.mem_cons_self, List.prefix_rfl⟩
      | cons b rest =>
        obtain ⟨rfl, hmore⟩ := List.cons_prefix_cons.mp h
        rw [← hrest, (Split.parts_cons newline_notMem).2]
        refine (ih hmore).imp_right ?_
        intro ⟨e', hmem, hopen⟩
        exact ⟨e', List.mem_cons_of_mem _ hmem, hopen⟩

/-- No line is longer than a message. -/
def Short (entries : List WorkspaceEntry) : Prop :=
  ∀ e ∈ entries, (entryLine e).length ≤ maxNodeMessageBytes

/-- What one chunk does: the entries of the lines that it completes are read. -/
theorem receiveChunk_ok (streamed : ∀ e ∈ entries, Streamed e) (short : Short entries)
    (h : seen ++ chunk <+: sentLines entries) (hbefore : Complete entries seen before) :
    ∃ upto, Complete entries (seen ++ chunk) upto ∧
      receiveChunk python (before, Split.openPart newline seen) chunk =
        .ok (upto, Split.openPart newline (seen ++ chunk)) := by
  obtain ⟨upto, hupto⟩ := complete_of_prefix h
  have hsplit := hupto.lines
  rw [Split.parts_append.1, hbefore.lines] at hsplit
  -- the lines that the chunk completes are those of the entries behind the first ones
  obtain ⟨more, rfl⟩ : before <+: upto := by
    apply List.prefix_of_prefix_length_le hbefore.first hupto.first
    have := congrArg List.length hsplit
    simp only [List.length_append, List.length_map] at this
    omega
  rw [List.map_append, List.append_cancel_left_eq] at hsplit
  have hread : ∀ e ∈ more, Streamed e :=
    fun e he => streamed e (hupto.first.subset (List.mem_append_right _ he))
  have hlength : ¬(Split.openPart newline (seen ++ chunk)).length > maxNodeMessageBytes := by
    rcases open_of_prefix h with hopen | ⟨e, he, hopen⟩
    · rw [hopen]
      exact Nat.not_lt_zero _
    · exact Nat.not_lt.mpr (hopen.length_le.trans (short e he))
  refine ⟨before ++ more, hupto, ?_⟩
  unfold receiveChunk
  dsimp only
  rw [hsplit, mapM_readLine hread, ok_bind, ← Split.parts_append.2, refuse_neg hlength, ok_bind]
  rfl

/-- **All chunks, however the stream is cut.** -/
theorem receiveChunks_ok (streamed : ∀ e ∈ entries, Streamed e) (short : Short entries)
    (h : seen ++ chunks.flatten = sentLines entries) (hbefore : Complete entries seen before) :
    chunks.foldlM (receiveChunk python) (before, Split.openPart newline seen) =
      .ok (entries, []) := by
  induction chunks generalizing seen before with
  | nil =>
    rw [List.flatten_nil, List.append_nil] at h
    obtain ⟨hlines, hopen⟩ := @sentLines_parts entries
    rw [← h] at hlines hopen
    have hsame : before = entries := by
      apply hbefore.first.eq_of_length
      simpa using congrArg List.length (hbefore.lines.symm.trans hlines)
    rw [hsame, hopen]
    rfl
  | cons chunk chunks ih =>
    rw [List.flatten_cons, ← List.append_assoc] at h
    obtain ⟨upto, hupto, hchunk⟩ := @receiveChunk_ok python _ _ _ _ streamed short ⟨_, h⟩ hbefore
    rw [List.foldlM_cons, hchunk, ok_bind]
    exact ih h hupto

/-- A line that is too long is refused, if the stream is cut right behind it. -/
theorem receiveChunk_long (streamed : ∀ e ∈ before, Streamed e)
    (long : maxNodeMessageBytes < (entryLine entry).length) :
    receiveChunk python ([], []) (sentLines before ++ entryLine entry) =
      .error ⟨"Node Workspace manifest entry is too large", "source_manifest", none⟩ := by
  obtain ⟨hlines, hopen⟩ := @sentLines_parts before
  have hclosed : Split.closedParts newline (sentLines before ++ entryLine entry) =
      before.map entryLine := by
    rw [Split.parts_append.1, hlines, hopen, List.nil_append,
      (Split.closed_open_of_notMem newline_notMem).1, List.append_nil]
  have hopen : Split.openPart newline (sentLines before ++ entryLine entry) =
      entryLine entry := by
    rw [Split.parts_append.2, hopen, List.nil_append,
      (Split.closed_open_of_notMem newline_notMem).2]
  unfold receiveChunk
  dsimp only
  rw [List.nil_append, hclosed, hopen, mapM_readLine streamed, ok_bind, refuse_pos long]
  rfl

end lines

/-! ## 6. What a scan collects -/

section scan

variable {python} {isalpha} {entries : List WorkspaceEntry} {manifest : WorkspaceManifest}
  {context : SourceContext} {tree : SourceTree}

theorem collectLeaf_collected {stamp : Int → Int} {special : String} {relative : Text} {node : Leaf}
    {entry : WorkspaceEntry} (h : collectLeaf isalpha stamp special relative node = .ok entry) :
    Collected entry := by
  cases node with
  | file size mtimeNs executable =>
    obtain rfl := Except.ok.inj h
    exact ⟨.inl rfl, rfl⟩
  | symlink mtimeNs target =>
    obtain ⟨_, -, h⟩ := bind_eq_ok.mp h
    obtain rfl := Except.ok.inj h
    exact ⟨.inr (.inr rfl), rfl⟩
  | special => exact nomatch h

theorem walk_collected {visit : Text → Text → Checked (Option Text)} {stamp : Int → Int}
    {special : String} {tree : Listing} {parent : Text}
    (h : walk isalpha visit stamp special parent tree = .ok entries) :
    ∀ e ∈ entries, Collected e := by
  induction tree generalizing parent entries with
  | nil =>
    obtain rfl := Except.ok.inj h
    exact nofun
  | leaf name node rest ih =>
    obtain ⟨r, -, h⟩ := bind_eq_ok.mp h
    cases r with
    | none => exact ih h
    | some relative =>
      obtain ⟨entry, hentry, h⟩ := bind_eq_ok.mp h
      obtain ⟨later, hlater, h⟩ := bind_eq_ok.mp h
      obtain rfl := Except.ok.inj h
      exact List.forall_mem_cons.mpr ⟨collectLeaf_collected hentry, ih hlater⟩
  | directory name mtimeNs children rest ihc ihr =>
    obtain ⟨r, -, h⟩ := bind_eq_ok.mp h
    cases r with
    | none => exact ihr h
    | some relative =>
      obtain ⟨inner, hinner, h⟩ := bind_eq_ok.mp h
      obtain ⟨later, hlater, h⟩ := bind_eq_ok.mp h
      obtain rfl := Except.ok.inj h
      rw [List.forall_mem_cons, List.forall_mem_append]
      exact ⟨⟨.inr (.inl rfl), rfl⟩, ihc hinner, ihr hlater⟩

theorem Collected.canonical {entry : WorkspaceEntry} (h : Collected entry) :
    Collected entry.canonical := by
  refine ⟨h.kind, ?_⟩
  simp [WorkspaceEntry.canonical, h.digest]

/-- A manifest as a Node streams it. -/
structure Streamable (isalpha : Char → Bool) (manifest : WorkspaceManifest) : Prop where
  collected : ∀ e ∈ manifest.entries, Collected e
  builds : buildWorkspaceManifest isalpha manifest.entries manifest.excludedPrefixes = .ok manifest

theorem scanLocal_streamable (h : scanLocalWorkspace isalpha context tree = .ok manifest) :
    Streamable isalpha manifest := by
  obtain ⟨-, h⟩ := refuse_bind_ok.mp h
  obtain ⟨includes, -, h⟩ := bind_eq_ok.mp h
  obtain ⟨collected, hwalk, hbuild⟩ := bind_eq_ok.mp h
  refine ⟨fun e he => ?_, build_again hbuild⟩
  obtain ⟨-, rfl⟩ := build_ok_iff.mp hbuild
  obtain ⟨e, hmem, rfl⟩ := mem_manifestOf.mp he
  exact (walk_collected hwalk e hmem).canonical

/-! ## 7. The manifest on the other side -/

theorem Streamable.unprefixed (h : Streamable isalpha manifest) :
    buildWorkspaceManifest isalpha manifest.entries =
      .ok { manifest with excludedPrefixes := [] } := by
  obtain ⟨hbuildable, hmanifest⟩ := build_ok_iff.mp h.builds
  refine build_ok_iff.mpr ⟨{ hbuildable with spelled := nofun }, ?_⟩
  obtain ⟨entries, total, excludedPrefixes⟩ := manifest
  obtain ⟨hentries, htotal, -⟩ := WorkspaceManifest.mk.inj hmanifest
  exact WorkspaceManifest.mk.injEq .. ▸ ⟨hentries, htotal, rfl⟩

theorem Streamable.totalBytes_nonneg (h : Streamable isalpha manifest) :
    0 ≤ manifest.totalBytes := by
  obtain ⟨hbuildable, hmanifest⟩ := build_ok_iff.mp h.builds
  rw [hmanifest]
  apply List.sum_nonneg
  intro size hsize
  obtain ⟨e, he, rfl⟩ := List.mem_map.mp hsize
  obtain ⟨e, hmem, rfl⟩ := List.mem_map.mp (sortEntries_perm.mem_iff.mp (List.mem_of_mem_filter he))
  exact (hbuildable.admissible e hmem).canonical.metadata.1

theorem resultInteger_ok {result : JsonObject} {name : String} {value : Int}
    (h : Json.get result name = .int value) (hvalue : 0 ≤ value) :
    resultInteger python result name = .ok value := by
  unfold resultInteger
  rw [h]
  exact if_neg (Int.not_lt.mpr hvalue)

theorem streamFrameCount_ok {result : JsonObject} {value : Int}
    (h : Json.get result "frame_count" = .int value) (hvalue : 0 ≤ value) :
    streamFrameCount result = .ok value := by
  unfold streamFrameCount
  rw [h]
  exact if_neg (Int.not_lt.mpr hvalue)

/-- The answer is accepted, and what it announces is read off the manifest. -/
theorem scanNode_eq (h : Streamable isalpha manifest) (streamId : String) (frames : Nat)
    (chunks : List Bytes) :
    scanNodeWorkspace python isalpha (manifestResult streamId manifest frames) chunks =
      (readManifest python isalpha manifest.entries.length manifest.totalBytes chunks).mapError
        .source := by
  have contract : requireStreamContract (manifestResult streamId manifest frames) = .ok () := rfl
  have announced : streamFrameCount (manifestResult streamId manifest frames) = .ok frames :=
    streamFrameCount_ok rfl (Int.natCast_nonneg _)
  have count : resultInteger python (manifestResult streamId manifest frames) "entry_count" =
      .ok manifest.entries.length := resultInteger_ok rfl (Int.natCast_nonneg _)
  have total : resultInteger python (manifestResult streamId manifest frames) "total_bytes" =
      .ok manifest.totalBytes := resultInteger_ok rfl h.totalBytes_nonneg
  rw [scanNodeWorkspace, contract, ok_bind, announced, ok_bind, count, ok_bind, total, ok_bind]

theorem frameCount_eq {lines : List Bytes}
    (h : manifest.entries.mapM workspaceSourceEntryBytes = some lines) :
    frameCount manifest = some (lines.map fun encoded => chunkCount encoded.length).sum := by
  rw [frameCount, h]
  rfl

theorem manifestOpened_eq (encodes : ∀ e ∈ manifest.entries, e.Encodes) (streamId : String) :
    ∃ frames, frameCount manifest = some frames ∧
      manifestOpened streamId manifest = some (manifestResult streamId manifest frames) := by
  have frames := frameCount_eq (mapM_entryBytes.mpr ⟨encodes, rfl⟩)
  exact ⟨_, frames, by rw [manifestOpened, frames]; rfl⟩

/-- **The entries survive**, however the stream is cut: what is read is the manifest, less its
    excluded prefixes. -/
theorem entries_survive (h : Streamable isalpha manifest)
    (encodes : ∀ e ∈ manifest.entries, e.Encodes) (short : Short manifest.entries)
    {streamId : String} {frames : Nat} {chunks : List Bytes}
    (hchunks : chunks.flatten = sentLines manifest.entries) :
    scanNodeWorkspace python isalpha (manifestResult streamId manifest frames) chunks =
      .ok { manifest with excludedPrefixes := [] } := by
  have streamed : ∀ e ∈ manifest.entries, Streamed e := by
    intro e he
    exact ⟨h.collected e he, encodes e he⟩
  have start : Complete manifest.entries [] [] := ⟨List.nil_prefix, rfl⟩
  have received : chunks.foldlM (receiveChunk python) ([], []) = .ok (manifest.entries, []) :=
    receiveChunks_ok streamed short hchunks start
  rw [scanNode_eq h, readManifest, received, ok_bind]
  dsimp only
  rw [refuse_neg (by simp), ok_bind, h.unprefixed, ok_bind, refuse_neg (by simp), ok_bind]
  rfl

/-- What the Core reads has no excluded prefixes. -/
theorem readManifest_excludedPrefixes {expectedCount expectedTotal : Int} {chunks : List Bytes}
    (h : readManifest python isalpha expectedCount expectedTotal chunks = .ok manifest) :
    manifest.excludedPrefixes = [] := by
  obtain ⟨⟨entries, buffered⟩, -, h⟩ := bind_eq_ok.mp h
  obtain ⟨-, h⟩ := refuse_bind_ok.mp h
  obtain ⟨built, hbuild, h⟩ := bind_eq_ok.mp h
  obtain ⟨-, h⟩ := refuse_bind_ok.mp h
  obtain rfl := Except.ok.inj h
  rw [(build_ok_iff.mp hbuild).2]
  rfl

/-- The manifest is sent, and comes out as it went in whatever its stream is cut into; a collector
    that goes by it leaves out the same paths. -/
def Survives (python : Conversions) (isalpha : Char → Bool) (manifest : WorkspaceManifest) : Prop :=
  ∃ stream, manifestStream manifest.entries = some stream ∧
    ∀ (streamId : String) (chunks : List Bytes), chunks.flatten = stream →
      ∃ opened decoded, manifestOpened streamId manifest = some opened ∧
        scanNodeWorkspace python isalpha opened chunks = .ok decoded ∧
        decoded.entries = manifest.entries ∧
        decoded.excludedPrefixes = manifest.excludedPrefixes ∧
        ∀ path, collectorExcludes decoded path = collectorExcludes manifest path

theorem mapError_ok {α : Type} {x : Checked α} {a : α}
    (h : x.mapError NodeScanError.source = .ok a) : x = .ok a := by
  cases x with
  | ok b => exact congrArg _ (Except.ok.inj h)
  | error e => exact nomatch h

/-- What is read of a manifest that survives. -/
theorem Survives.read (h : Streamable isalpha manifest)
    (survives : Survives python isalpha manifest) {chunks : List Bytes}
    (hchunks : chunks.flatten = sentLines manifest.entries) : ∃ decoded,
      readManifest python isalpha manifest.entries.length manifest.totalBytes chunks =
        .ok decoded ∧ decoded.excludedPrefixes = manifest.excludedPrefixes := by
  obtain ⟨stream, hstream, hread⟩ := survives
  obtain ⟨encodes, rfl⟩ := manifestStream_eq.mp hstream
  obtain ⟨opened, decoded, hopened, hdecoded, -, hsame, -⟩ := hread "" chunks hchunks
  obtain ⟨frames, -, hresult⟩ := manifestOpened_eq encodes ""
  rw [← Option.some.inj (hresult.symm.trans hopened), scanNode_eq h] at hdecoded
  exact ⟨decoded, mapError_ok hdecoded, hsame⟩

/-- A stream with a line that is too long does not survive. -/
theorem short_of_survives (h : Streamable isalpha manifest)
    (encodes : ∀ e ∈ manifest.entries, e.Encodes)
    (survives : Survives python isalpha manifest) : Short manifest.entries := by
  intro e he
  by_contra hlong
  obtain ⟨before, after, hsplit⟩ := List.append_of_mem he
  have streamed : ∀ e' ∈ before, Streamed e' := by
    intro e' he'
    have hmem : e' ∈ manifest.entries := hsplit ▸ List.mem_append_left _ he'
    exact ⟨h.collected e' hmem, encodes e' hmem⟩
  -- the stream, cut right before the newline of the line
  have hchunks : [sentLines before ++ entryLine e, newline :: sentLines after].flatten =
      sentLines manifest.entries := by
    rw [hsplit]
    unfold sentLines
    rw [List.map_append, List.flatten_append, List.map_cons, List.flatten_cons, sentLine]
    simp
  obtain ⟨decoded, hread, -⟩ := survives.read h hchunks
  obtain ⟨_, hreceived, -⟩ := bind_eq_ok.mp hread
  rw [List.foldlM_cons, receiveChunk_long streamed (Nat.not_le.mp hlong)] at hreceived
  exact nomatch hreceived

/-- **The manifest of a Node survives its stream, if and only if no private boundary lies inside
    the Source, the target of each link is valid UTF-8, and no line is longer than a message.** -/
theorem manifest_survives_iff (h : scanLocalWorkspace isalpha context tree = .ok manifest) :
    Survives python isalpha manifest ↔
      context.mandatoryRelative = [] ∧
        ∀ e ∈ manifest.entries, e.Encodes ∧ (entryLine e).length ≤ maxNodeMessageBytes := by
  have streamable := scanLocal_streamable h
  have hprefixes : manifest.excludedPrefixes = [] ↔ context.mandatoryRelative = [] := by
    rw [(scanLocal_scanned h).2.excludedPrefixes]
    simp only [List.eq_nil_iff_forall_not_mem, mem_sortPrefixes]
  rw [← hprefixes]
  constructor
  · intro survives
    obtain ⟨stream, hstream, -⟩ := id survives
    obtain ⟨encodes, -⟩ := manifestStream_eq.mp hstream
    have short := short_of_survives streamable encodes survives
    have atOnce : [sentLines manifest.entries].flatten = sentLines manifest.entries := by simp
    obtain ⟨decoded, hread, hsame⟩ := survives.read streamable atOnce
    rw [← hsame]
    exact ⟨readManifest_excludedPrefixes hread, fun e he => ⟨encodes e he, short e he⟩⟩
  · intro ⟨hnil, lines⟩
    have encodes : ∀ e ∈ manifest.entries, e.Encodes := fun e he => (lines e he).1
    have short : Short manifest.entries := fun e he => (lines e he).2
    refine ⟨_, manifestStream_eq.mpr ⟨encodes, rfl⟩, ?_⟩
    intro streamId chunks hchunks
    have whole : { manifest with excludedPrefixes := [] } = manifest := by
      rw [← hnil]
    obtain ⟨frames, -, hopened⟩ := manifestOpened_eq encodes streamId
    refine ⟨_, manifest, hopened, ?_, rfl, rfl, fun _ => rfl⟩
    rw [entries_survive streamable encodes short hchunks, whole]

/-! ## 8. The Node's own chunks -/

theorem flatten_slices {α : Type} (xs : List α) (size count : Nat) :
    ((List.range count).map fun i => (xs.drop (i * size)).take size).flatten =
      xs.take (count * size) := by
  induction count with
  | zero => simp
  | succ count ih =>
    rw [List.range_succ, List.map_append, List.flatten_append, ih, Nat.succ_mul, List.take_add]
    simp

/-- The Node cuts the stream, and into as many chunks as it announces. -/
theorem manifestChunks_stream (encodes : ∀ e ∈ manifest.entries, e.Encodes) :
    ∃ chunks, manifestChunks manifest = some chunks ∧
      chunks.flatten = sentLines manifest.entries ∧ frameCount manifest = some chunks.length := by
  have whole : ∀ size, size ≤ chunkCount size * maxNodeStreamChunkBytes := by
    intro size
    unfold chunkCount maxNodeStreamChunkBytes
    omega
  have lines := mapM_entryBytes.mpr ⟨encodes, rfl⟩
  have chunks : manifestChunks manifest = some ((manifest.entries.map sentLine).flatMap
      fun encoded => (List.range (chunkCount encoded.length)).map fun index =>
        (encoded.drop (index * maxNodeStreamChunkBytes)).take maxNodeStreamChunkBytes) := by
    rw [manifestChunks, lines]
    rfl
  refine ⟨_, chunks, ?_, ?_⟩
  · unfold sentLines
    rw [List.flatMap_def, List.flatten_flatten, List.map_map]
    congr 1
    rw [← List.map_id (manifest.entries.map sentLine), List.map_map]
    apply List.map_congr_left
    intro e _
    show List.flatten _ = e
    rw [flatten_slices]
    exact List.take_of_length_le (whole _)
  · rw [frameCount_eq lines, List.length_flatMap]
    simp

/-- So what the Node sends is read as its entries. -/
theorem node_entries_survive (h : scanLocalWorkspace isalpha context tree = .ok manifest)
    (encodes : ∀ e ∈ manifest.entries, e.Encodes) (short : Short manifest.entries)
    (streamId : String) : ∃ opened chunks, manifestOpened streamId manifest = some opened ∧
      manifestChunks manifest = some chunks ∧
      scanNodeWorkspace python isalpha opened chunks =
        .ok { manifest with excludedPrefixes := [] } := by
  obtain ⟨frames, -, hopened⟩ := manifestOpened_eq encodes streamId
  obtain ⟨chunks, hchunks, hflatten, -⟩ := manifestChunks_stream encodes
  exact ⟨_, chunks, hopened, hchunks,
    entries_survive (scanLocal_streamable h) encodes short hflatten⟩

end scan

def plainConversions : Conversions := ⟨String.ofList, fun _ => none, fun _ => []⟩

theorem manifest_survives_plain : ∃ manifest,
    scanLocalWorkspace Char.isAlpha plainContext plainTree = .ok manifest ∧
    Survives plainConversions Char.isAlpha manifest := by
  have scanned : scanLocalWorkspace Char.isAlpha plainContext plainTree =
      .ok ⟨[{ relativePath := "notes.txt".toList, kind := .file, size := 2 }], 2, []⟩ := by
    decide +kernel
  refine ⟨_, scanned, (manifest_survives_iff scanned).mpr ⟨by decide, ?_⟩⟩
  decide +kernel

/-- The state of the Node lies in the Source. -/
def privateContext : SourceContext :=
  ⟨["work".toList], [["work".toList, "state".toList]], [], by decide⟩

def notesTree : SourceTree where
  listing := .leaf "notes.txt".toList (.file 2 0 false) .nil
  sound := ⟨by decide, by decide, by decide, trivial⟩

/-- The Core reads the entries, and a collector that goes by what it has read collects what is
    below the state of the Node. -/
theorem private_prefix_dropped : ∃ manifest opened chunks decoded,
    scanLocalWorkspace Char.isAlpha privateContext notesTree = .ok manifest ∧
    manifestOpened "s" manifest = some opened ∧ manifestChunks manifest = some chunks ∧
    scanNodeWorkspace plainConversions Char.isAlpha opened chunks = .ok decoded ∧
    collectorExcludes manifest "state/x".toList = true ∧
    collectorExcludes decoded "state/x".toList = false ∧
    ¬Survives plainConversions Char.isAlpha manifest := by
  have scanned : scanLocalWorkspace Char.isAlpha privateContext notesTree =
      .ok ⟨[{ relativePath := "notes.txt".toList, kind := .file, size := 2 }], 2,
        ["state".toList]⟩ := by
    decide +kernel
  have short : Short [{ relativePath := "notes.txt".toList, kind := .file, size := 2 }] := by
    unfold Short
    decide +kernel
  obtain ⟨opened, chunks, hopened, hchunks, read⟩ :=
    @node_entries_survive plainConversions _ _ _ _ scanned (by decide) short "s"
  refine ⟨_, opened, chunks, _, scanned, hopened, hchunks, read, by decide +kernel,
    by decide +kernel, fun survives => ?_⟩
  obtain ⟨decoded, hread, hsame⟩ :=
    survives.read (scanLocal_streamable scanned) List.flatten_singleton
  have hnil := readManifest_excludedPrefixes hread
  rw [hsame] at hnil
  exact absurd hnil (by decide)

end Termroom.Sources
