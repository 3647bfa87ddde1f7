import Mathlib
import Termroom.Collect.Tree
import Termroom.Sources.Scan
import Termroom.Data.JsonText

/-!
# What a collection would change

The collector compares three trees: the baseline that a Remote Run started from, its result, and
the Source as it is now. It makes an item for each file of the result, which says whether the file
can be written into the Source and why not, and an item for each file of the baseline that the
result no longer has. Nothing is written here.

The program looks at the result and at the Source through its backends, whose answers are those
of its surroundings.
-/

set_option autoImplicit false

namespace Termroom.Collect

open Conc Data Archive Sources

/-! ## 1. What the backends are asked -/

/-- What the operations on files raise. -/
inductive FileError where
  | notFound
  | notADirectory
  | pathBoundary
  | unsupported
  | conflict
  | exists
  | other (exception : String)
  deriving DecidableEq, Repr

/-- `_SOURCE_UNSUPPORTED_EXCEPTIONS`. -/
def FileError.sourceUnsupported : FileError → Bool
  | notADirectory | pathBoundary | unsupported => true
  | notFound | conflict | «exists» | other _ => false

structure FileSnapshot where
  relativePath : Text
  content : Text
  digest : Text
  mtimeNs : Nat
  deriving DecidableEq, Repr

/-- What a download yields, and what it raises in the end. -/
structure Download where
  chunks : List Bytes
  ended : Except FileError Unit

inductive CollectOp where
  | listDir (listing : ListOp)
  | resultStat (path : Text)
  | resultDownload (path : Text)
  | sourceStat (path : Text)
  | sourceReadText (path : Text)

def CollectOp.Ans : CollectOp → Type
  | listDir _ => ListAnswer
  | resultStat _ | sourceStat _ => Except FileError FileEntry
  | resultDownload _ => Download
  | sourceReadText _ => Except FileError FileSnapshot

abbrev CollectSig : Sig := ⟨CollectOp, CollectOp.Ans⟩

/-- What building a plan raises; the first two are `ResultCollectionError` and
    `ResultCollectionConflict`. -/
inductive PlanError where
  | result (message code : String)
  | changed (message code : String)
  | file (e : FileError)
  | path (e : SourceValidationError)
  | scan (e : CollectError)

abbrev CollectProg := Prog CollectSig PlanError

/-! ## 2. The files of the result -/

def resultChanged : PlanError :=
  .changed "Remote Run result changed while it was collected" "result_changed"

/-- `_require_same_file_entry`. -/
def requireSameFileEntry (expected current : FileEntry) : Except PlanError Unit :=
  if current.isDir = true ∨ current.relativePath ≠ expected.relativePath ∨
      current.size ≠ expected.size ∨ current.mtimeNs ≠ expected.mtimeNs then
    .error resultChanged
  else .ok ()

def resultStat (path : Text) : CollectProg FileEntry := do
  let answer ← Prog.perform (S := CollectSig) (.resultStat path)
  Prog.ofExcept (Except.mapError .file answer)

/-- The chunks of a download, as long as there are not more bytes than expected. -/
def joinChunks (size : Nat) : (total : Nat) → List Bytes → Except PlanError Bytes
  | _, [] => .ok []
  | total, chunk :: chunks =>
    if size < total + chunk.length then .error resultChanged
    else do
      let rest ← joinChunks size (total + chunk.length) chunks
      return chunk ++ rest

/-- What is to be said of a whole download. -/
def joinDownload (size : Nat) (download : Download) : Except PlanError Bytes := do
  let raw ← joinChunks size 0 download.chunks
  Except.mapError .file download.ended
  return raw

/-- `_read_stable_file`. -/
def readStableFile (entry : FileEntry) : CollectProg Bytes := do
  let before ← resultStat entry.relativePath
  Prog.ofExcept (requireSameFileEntry entry before)
  let download ← Prog.perform (S := CollectSig) (.resultDownload entry.relativePath)
  let raw ← Prog.ofExcept (joinDownload entry.size download)
  let after ← resultStat entry.relativePath
  Prog.ofExcept (requireSameFileEntry entry after)
  Prog.ofExcept (if raw.length ≠ entry.size then .error resultChanged else .ok raw)

/-! ## 3. Items -/

inductive PlanStatus where
  | ready
  | alreadyResult
  | conflict
  | skipped
  deriving DecidableEq, Repr

inductive PlanChange where
  | modified
  | added
  | deleted
  | unchanged
  | unsupported
  deriving DecidableEq, Repr

structure CollectionPlanItem where
  path : Text
  change : PlanChange
  status : PlanStatus
  reason : String
  baselineDigest : Option Text := none
  resultDigest : Option Text := none
  currentDigest : Option Text := none
  currentMtimeNs : Option Nat := none
  deriving DecidableEq, Repr

/-- `_skipped_item`. -/
def skippedItem (path : Text) (baseline : Option WorkspaceEntry) (reason : String) :
    CollectionPlanItem where
  path := path
  change := if baseline.any (·.kind = .file) then .modified else .added
  status := .skipped
  reason := reason
  baselineDigest := baseline.bind WorkspaceEntry.digest

/-- What a plan is built from, beside the trees. -/
structure Review where
  isalpha : Char → Bool
  fileDigest : Bytes → Text
  maxEditBytes : Nat
  /-- `run.get("source_path") or "."`. -/
  sourcePath : Text
  /-- `backend_kind == "local"`. -/
  isLocal : Bool

variable (review : Review)

/-- `_source_relative_path`. -/
def Review.sourceRelativePath (resultPath : Text) : Except PlanError Text :=
  if review.sourcePath = ['.'] then .ok resultPath
  else
    Except.mapError .path
      (normalizeSourceRelativePath review.isalpha (review.sourcePath ++ '/' :: resultPath))

/-- What is at a path of the Source. -/
inductive CurrentSource where
  | missing
  | refused (reason : String)
  | text (snapshot : FileSnapshot)

/-- `_read_current_source`, behind the first look. -/
def readEditable (relative : Text) (before : FileEntry) : CollectProg CurrentSource := do
  let answer ← Prog.perform (S := CollectSig) (.sourceReadText relative)
  match answer with
  | .error .notFound => return .refused "source_changed_during_review"
  | .error e =>
    if e.sourceUnsupported then return .refused "source_not_editable_text"
    else Prog.raise (.file e)
  | .ok snapshot =>
    let again ← Prog.perform (S := CollectSig) (.sourceStat relative)
    match again with
    | .error .notFound => return .refused "source_changed_during_review"
    | .error e =>
      if e.sourceUnsupported then return .refused "source_not_editable_text"
      else Prog.raise (.file e)
    | .ok after =>
      if before.relativePath ≠ after.relativePath ∨ before.size ≠ after.size ∨
          before.mtimeNs ≠ after.mtimeNs ∨ snapshot.mtimeNs ≠ before.mtimeNs ∨
          (utf8 snapshot.content).length ≠ before.size then
        return .refused "source_changed_during_review"
      else return .text snapshot

/-- `_read_current_source`. -/
def readCurrentSource (resultPath : Text) : CollectProg CurrentSource := do
  let relative ← Prog.ofExcept (review.sourceRelativePath resultPath)
  let answer ← Prog.perform (S := CollectSig) (.sourceStat relative)
  match answer with
  | .error .notFound => return .missing
  | .error e =>
    if e.sourceUnsupported then return .refused "source_path_unsupported"
    else Prog.raise (.file e)
  | .ok before =>
    if before.isDir then return .refused "source_path_is_directory"
    else readEditable relative before

/-- `_addition_parent_exists`. -/
def additionParentExists (resultPath : Text) : CollectProg Bool := do
  let relative ← Prog.ofExcept (review.sourceRelativePath resultPath)
  let parent := parentPath relative
  if parent = ['.'] then return true
  else
    let answer ← Prog.perform (S := CollectSig) (.sourceStat parent)
    match answer with
    | .error e =>
      if e = .notFound ∨ e.sourceUnsupported = true then return false
      else Prog.raise (.file e)
    | .ok entry => return entry.isDir

/-! ## 4. The plan -/

/-- `_ExpectedSource`. -/
structure ExpectedSource where
  digest : Text
  mtimeNs : Nat
  deriving DecidableEq, Repr

/-- An item, and what was seen of the Source for it. -/
structure PlannedItem where
  item : CollectionPlanItem
  expected : Option ExpectedSource := none

def FileSnapshot.expected (snapshot : FileSnapshot) : ExpectedSource :=
  ⟨snapshot.digest, snapshot.mtimeNs⟩

/-- A file whose path the baseline does not have and that the Source has. -/
def planExisting (path : Text) (resultDigest : Text) (snapshot : FileSnapshot) : PlannedItem where
  item := {
    path, change := .added, status := .conflict, reason := "source_path_exists"
    resultDigest := some resultDigest, currentDigest := some snapshot.digest
    currentMtimeNs := some snapshot.mtimeNs }
  expected := some snapshot.expected

/-- A file whose path neither the baseline nor the Source has. -/
def planAddition (path : Text) (resultDigest : Text) : CollectProg PlannedItem := do
  let parentExists ← additionParentExists review path
  if parentExists = false then
    return {
      item := {
        path, change := .added, status := .conflict, reason := "source_parent_missing"
        resultDigest := some resultDigest } }
  else
    return {
      item := {
        path, change := .added, status := .ready
        reason := if review.isLocal then "new_local_text_file" else "new_remote_text_file"
        resultDigest := some resultDigest } }

/-- `baseline_entry.digest`, which a file is to have. -/
def baselineDigest (entry : WorkspaceEntry) : Except PlanError Text :=
  match entry.digest with
  | none =>
    .error (.result "Remote Run Source baseline is incomplete" "collection_baseline_unavailable")
  | some digest => .ok digest

/-- A file that the baseline, the result and the Source have. -/
def planModified (path : Text) (baselineDigest resultDigest : Text) (snapshot : FileSnapshot) :
    PlannedItem where
  item :=
    if snapshot.digest ≠ baselineDigest then {
      path, change := .modified, status := .conflict, reason := "source_changed_since_run"
      baselineDigest := some baselineDigest, resultDigest := some resultDigest
      currentDigest := some snapshot.digest, currentMtimeNs := some snapshot.mtimeNs }
    else if resultDigest = baselineDigest then {
      path, change := .unchanged, status := .alreadyResult, reason := "result_matches_baseline"
      baselineDigest := some baselineDigest, resultDigest := some resultDigest
      currentDigest := some snapshot.digest, currentMtimeNs := some snapshot.mtimeNs }
    else {
      path, change := .modified, status := .ready, reason := "source_unchanged_since_run"
      baselineDigest := some baselineDigest, resultDigest := some resultDigest
      currentDigest := some snapshot.digest, currentMtimeNs := some snapshot.mtimeNs }
  expected := some snapshot.expected

/-- A file of the result, against the Source. -/
def planAgainst (path : Text) (baseline : Option WorkspaceEntry) (resultDigest : Text) :
    CurrentSource → CollectProg PlannedItem
  | .refused reason => return {
      item := {
        path, change := if baseline.isSome then .modified else .added, status := .conflict, reason
        baselineDigest := baseline.bind WorkspaceEntry.digest
        resultDigest := some resultDigest } }
  | .missing =>
    match baseline with
    | none => planAddition review path resultDigest
    | some entry => do
      let digest ← Prog.ofExcept (baselineDigest entry)
      return {
        item := {
          path, change := .modified, status := .conflict, reason := "source_file_missing"
          baselineDigest := some digest, resultDigest := some resultDigest } }
  | .text snapshot =>
    if snapshot.digest = resultDigest then
      return {
        item := {
          path, change := .unchanged, status := .alreadyResult, reason := "source_matches_result"
          baselineDigest := baseline.bind WorkspaceEntry.digest
          resultDigest := some resultDigest, currentDigest := some snapshot.digest
          currentMtimeNs := some snapshot.mtimeNs }
        expected := some snapshot.expected }
    else
      match baseline with
      | none => return planExisting path resultDigest snapshot
      | some entry => do
        let digest ← Prog.ofExcept (baselineDigest entry)
        return planModified path digest resultDigest snapshot

/-- A file of the result that is text. -/
def planText (path : Text) (baseline : Option WorkspaceEntry) (raw : Bytes) :
    CollectProg PlannedItem :=
  let resultDigest := review.fileDigest raw
  if baseline.any (·.kind ≠ .file) then
    return {
      item := {
        path, change := .unsupported, status := .conflict, reason := "baseline_type_conflict"
        resultDigest := some resultDigest } }
  else do
    let excluded ← Prog.ofExcept (if baseline.isSome then .ok false else
      Except.mapError .path (isDefaultWorkspaceExcluded review.isalpha path))
    if excluded then
      return {
        item := {
          path, change := .added, status := .skipped, reason := "excluded_new_path"
          resultDigest := some resultDigest } }
    else
      let current ← readCurrentSource review path
      planAgainst review path baseline resultDigest current

/-- A file of the result. -/
def planFile (entry : FileEntry) (baseline : Option WorkspaceEntry) : CollectProg PlannedItem :=
  let path := entry.relativePath
  if review.maxEditBytes < entry.size then return ⟨skippedItem path baseline "file_too_large", none⟩
  else do
    let read ← (readStableFile entry).attempt
    match read with
    | .error (.file .unsupported) =>
      return ⟨skippedItem path baseline "unsupported_result_type", none⟩
    | .error e => Prog.raise e
    | .ok raw =>
      if 0 ∈ raw then return ⟨skippedItem path baseline "binary_result", none⟩
      else if (decodeUtf8 raw).isNone then
        return ⟨skippedItem path baseline "non_utf8_result", none⟩
      else planText review path baseline raw

/-- One turn of the loop over the entries of the result. -/
def planEntry (manifest : WorkspaceManifest) (entry : FileEntry) :
    CollectProg (List PlannedItem) :=
  let path := entry.relativePath
  let baseline := manifest.entries.find? fun e => e.relativePath = path
  if isMandatoryExcluded path manifest.excludedPrefixes then
    return if entry.isDir then [] else [⟨skippedItem path baseline "excluded_new_path", none⟩]
  else if entry.isDir then
    return if baseline.any (·.kind = .file) then
      [⟨{
        path, change := .unsupported, status := .conflict, reason := "result_type_conflict"
        baselineDigest := baseline.bind WorkspaceEntry.digest }, none⟩]
    else []
  else do
    let planned ← planFile review entry baseline
    return [planned]

def planEntries (manifest : WorkspaceManifest) : List FileEntry → CollectProg (List PlannedItem)
  | [] => pure []
  | entry :: entries => do
    let planned ← planEntry review manifest entry
    let rest ← planEntries manifest entries
    return planned ++ rest

/-- The files of the baseline that the result does not have. -/
def deletedItems (manifest : WorkspaceManifest) (tree : ScannedTree) : List PlannedItem :=
  (manifest.entries.filter fun e =>
      e.kind = .file && !(tree.entries.map FileEntry.relativePath).contains e.relativePath).map
    fun e => ⟨{
      path := e.relativePath, change := .deleted, status := .skipped
      reason := "deletion_not_applied", baselineDigest := e.digest }, none⟩

/-- The items of `_build_plan`, sorted by their paths. -/
def buildItems (manifest : WorkspaceManifest) (tree : ScannedTree) :
    CollectProg (List PlannedItem) := do
  let entries := tree.entries.insertionSort fun a b => a.relativePath ≤ b.relativePath
  let items ← planEntries review manifest entries
  return (items ++ deletedItems manifest tree).insertionSort fun a b => a.item.path ≤ b.item.path

def askListing (listing : ListSig.Op) : CollectProg (ListSig.Ans listing) :=
  Prog.perform (S := CollectSig) (.listDir listing)

/-- The scan asks the same backend. -/
def scanResult (maxArchiveBytes : Nat) : CollectProg ScannedTree := do
  let scanned ← ((scanTree review.isalpha maxArchiveBytes).attempt :
    Prog ListSig PlanError (Collected ScannedTree)).interpret askListing
  Prog.ofExcept (Except.mapError .scan scanned)

/-- `_build_plan`, from where the baseline has been loaded. -/
def buildPlan (maxArchiveBytes : Nat) (manifest : WorkspaceManifest) :
    CollectProg (ScannedTree × List PlannedItem) := do
  let tree ← scanResult review maxArchiveBytes
  let items ← buildItems review manifest tree
  return (tree, items)

end Termroom.Collect
