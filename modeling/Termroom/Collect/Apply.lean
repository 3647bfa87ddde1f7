import Mathlib
import Termroom.Collect.Merge
import Termroom.Data.JsonSort

/-!
# A collection writes what was reviewed

A plan is shown with its revision, the digest of everything that its items say. To apply a plan
is to build it once more, to compare revisions, and to write one ready item after the other, each
where a look finds in the Source what the item says. Others change the Source all the while: in
between the steps of a look, and between the last look of a write and its rename.

What a revision is the digest of stands for one plan (`encoded_injective`), so the plan that is
applied is the one that was reviewed, and what is written is one of its ready items
(`apply_writes_reviewed`).
-/

set_option autoImplicit false

namespace Termroom.Collect

open Conc Data Archive Sources

/-! ## 1. The revision of a plan -/

def PlanStatus.name : PlanStatus → String
  | ready => "ready"
  | alreadyResult => "already_result"
  | conflict => "conflict"
  | skipped => "skipped"

def PlanChange.name : PlanChange → String
  | modified => "modified"
  | added => "added"
  | deleted => "deleted"
  | unchanged => "unchanged"
  | unsupported => "unsupported"

def optionalDigest : Option Text → Json
  | none => .null
  | some digest => .str (String.ofList digest)

def optionalMtime : Option Nat → Json
  | none => .null
  | some mtimeNs => .int mtimeNs

/-- `CollectionPlanItem.as_dict`. -/
def CollectionPlanItem.asDict (item : CollectionPlanItem) : JsonObject :=
  [("path", .str (String.ofList item.path)), ("change", .str item.change.name),
    ("status", .str item.status.name), ("reason", .str item.reason),
    ("baseline_digest", optionalDigest item.baselineDigest),
    ("result_digest", optionalDigest item.resultDigest),
    ("current_digest", optionalDigest item.currentDigest),
    ("current_mtime_ns", optionalMtime item.currentMtimeNs)]

/-- A plan, but for its revision. -/
structure CollectionPlan where
  runId : Text
  sourceWorkspaceId : Text
  sourcePath : Text
  items : List CollectionPlanItem

def CollectionPlan.payload (plan : CollectionPlan) : JsonObject :=
  [("version", .int 1), ("run_id", .str (String.ofList plan.runId)),
    ("source_workspace_id", .str (String.ofList plan.sourceWorkspaceId)),
    ("source_path", .str (String.ofList plan.sourcePath)),
    ("items", .arr (plan.items.map fun item => .obj item.asDict))]

def CollectionPlan.encoded (plan : CollectionPlan) : Bytes :=
  utf8 (Json.dumps (Json.sortKeys (.obj plan.payload)))

/-- `_plan_revision`: the digest is that of files. -/
def Review.planRevision (review : Review) (plan : CollectionPlan) : Text :=
  review.fileDigest plan.encoded

/-- Other bytes with the same digest. -/
def Collides (digest : Bytes → Text) (a b : Bytes) : Prop := a ≠ b ∧ digest a = digest b

/-- `changed_item_count`. -/
def CollectionPlan.changedItemCount (plan : CollectionPlan) : Nat :=
  plan.items.countP fun item => item.change ≠ .unchanged ∧ item.status ≠ .alreadyResult

/-- `MAX_COLLECTION_DISPLAY_ITEMS`. -/
def maxCollectionDisplayItems : Nat := 500

/-- `apply_allowed`. -/
def CollectionPlan.applyAllowed (plan : CollectionPlan) : Prop :=
  plan.changedItemCount ≤ maxCollectionDisplayItems

instance (plan : CollectionPlan) : Decidable plan.applyAllowed :=
  inferInstanceAs (Decidable (_ ≤ _))

/-! ## 2. What a plan's revision stands for -/

section

theorem PlanStatus.name_injective {a b : PlanStatus} (h : a.name = b.name) : a = b := by
  cases a <;> cases b <;> first | rfl | exact absurd h (by decide)

theorem PlanChange.name_injective {a b : PlanChange} (h : a.name = b.name) : a = b := by
  cases a <;> cases b <;> first | rfl | exact absurd h (by decide)

theorem str_injective {a b : Text}
    (h : Json.str (String.ofList a) = Json.str (String.ofList b)) : a = b :=
  String.ofList_injective (Json.str.inj h)

theorem optionalDigest_injective {a b : Option Text} (h : optionalDigest a = optionalDigest b) :
    a = b := by
  cases a with
  | none =>
    cases b with
    | none => rfl
    | some b => cases h
  | some a =>
    cases b with
    | none => cases h
    | some b => rw [str_injective h]

theorem optionalMtime_injective {a b : Option Nat} (h : optionalMtime a = optionalMtime b) :
    a = b := by
  cases a with
  | none =>
    cases b with
    | none => rfl
    | some b => cases h
  | some a =>
    cases b with
    | none => cases h
    | some b =>
      have hint : (a : Int) = b := Json.int.inj h
      rw [Int.ofNat_inj.mp hint]

variable {float : List Char → String}

theorem readable_optionalDigest {digest : Option Text} :
    Json.Readable float (optionalDigest digest) := by
  cases digest <;> trivial

theorem readable_optionalMtime {mtimeNs : Option Nat} :
    Json.Readable float (optionalMtime mtimeNs) := by
  cases mtimeNs <;> trivial

variable {a b : CollectionPlanItem}

theorem asDict_names : (a.asDict.map Prod.fst).Nodup := by
  simp [CollectionPlanItem.asDict]

/-- An item can be read off its sorted `dict`. -/
theorem asDict_injective (h : Json.sortedFields a.asDict = Json.sortedFields b.asDict) :
    a = b := by
  have field : ∀ name, Json.sortKeys (Json.get a.asDict name) =
      Json.sortKeys (Json.get b.asDict name) := by
    intro name
    rw [← Json.get_sortedFields asDict_names, ← Json.get_sortedFields asDict_names, h]
  have sorted_digest : ∀ digest, Json.sortKeys (optionalDigest digest) = optionalDigest digest := by
    intro digest
    cases digest <;> simp [optionalDigest]
  have sorted_mtime : ∀ mtimeNs, Json.sortKeys (optionalMtime mtimeNs) = optionalMtime mtimeNs := by
    intro mtimeNs
    cases mtimeNs <;> simp [optionalMtime]
  obtain ⟨path, change, status, reason, baseline, result, current, mtimeNs⟩ := a
  obtain ⟨path', change', status', reason', baseline', result', current', mtimeNs'⟩ := b
  have hpath := field "path"
  have hchange := field "change"
  have hstatus := field "status"
  have hreason := field "reason"
  have hbaseline := field "baseline_digest"
  have hresult := field "result_digest"
  have hcurrent := field "current_digest"
  have hmtime := field "current_mtime_ns"
  simp only [CollectionPlanItem.asDict, Json.get, List.lookup_cons, String.reduceBEq,
    Option.getD_some, sorted_digest, sorted_mtime, Json.sortKeys_str]
    at hpath hchange hstatus hreason hbaseline hresult hcurrent hmtime
  obtain rfl := str_injective hpath
  obtain rfl := PlanChange.name_injective (Json.str.inj hchange)
  obtain rfl := PlanStatus.name_injective (Json.str.inj hstatus)
  obtain rfl := Json.str.inj hreason
  obtain rfl := optionalDigest_injective hbaseline
  obtain rfl := optionalDigest_injective hresult
  obtain rfl := optionalDigest_injective hcurrent
  obtain rfl := optionalMtime_injective hmtime
  rfl

theorem readable_asDict (item : CollectionPlanItem) : Json.Readable float (.obj item.asDict) := by
  refine ⟨asDict_names, ?_⟩
  rw [Json.readableFields_iff float]
  simp [CollectionPlanItem.asDict, Json.Readable, readable_optionalDigest, readable_optionalMtime]

variable {plan reviewed : CollectionPlan}

theorem payload_names : (plan.payload.map Prod.fst).Nodup := by
  simp [CollectionPlan.payload]

theorem readableItems_map {α : Type} {f : α → Json} (h : ∀ a, Json.Readable float (f a))
    (items : List α) : Json.ReadableItems float (items.map f) := by
  induction items with
  | nil => trivial
  | cons item items ih => exact ⟨h item, ih⟩

theorem readable_payload (plan : CollectionPlan) : Json.Readable float (.obj plan.payload) := by
  refine ⟨payload_names, ?_⟩
  rw [Json.readableFields_iff float]
  have hitems : Json.ReadableItems float _ := readableItems_map readable_asDict plan.items
  simpa [CollectionPlan.payload, Json.Readable] using hitems

/-- **What is digested stands for one plan.** -/
theorem encoded_injective (h : plan.encoded = reviewed.encoded) : plan = reviewed := by
  have htext := Option.some.inj
    (decodeUtf8_utf8.symm.trans ((congrArg decodeUtf8 h).trans decodeUtf8_utf8))
  have hloads := congrArg (Json.loads (fun text => String.ofList text)) htext
  rw [Json.loads_dumps _ (Json.readable_sortKeys _ _ (readable_payload plan)),
    Json.loads_dumps _ (Json.readable_sortKeys _ _ (readable_payload reviewed)),
    Json.sortKeys_obj, Json.sortKeys_obj] at hloads
  have hsorted := Json.obj.inj (Option.some.inj hloads)
  have field : ∀ name, Json.sortKeys (Json.get plan.payload name) =
      Json.sortKeys (Json.get reviewed.payload name) := by
    intro name
    rw [← Json.get_sortedFields payload_names, ← Json.get_sortedFields payload_names, hsorted]
  obtain ⟨runId, workspaceId, sourcePath, items⟩ := plan
  obtain ⟨runId', workspaceId', sourcePath', items'⟩ := reviewed
  have hrun := field "run_id"
  have hworkspace := field "source_workspace_id"
  have hpath := field "source_path"
  have hitems := field "items"
  simp only [CollectionPlan.payload, Json.get, List.lookup_cons, String.reduceBEq,
    Option.getD_some, Json.sortKeys_str, Json.sortKeys_arr, Json.sortItems_eq, List.map_map]
    at hrun hworkspace hpath hitems
  obtain rfl := str_injective hrun
  obtain rfl := str_injective hworkspace
  obtain rfl := str_injective hpath
  have hdicts := Json.arr.inj hitems
  simp only [Function.comp_def, Json.sortKeys_obj] at hdicts
  have hitem : Function.Injective fun item : CollectionPlanItem =>
      Json.obj (Json.sortedFields item.asDict) := by
    intro a b hab
    exact asDict_injective (Json.obj.inj hab)
  obtain rfl := List.map_injective_iff.mpr hitem hdicts
  rfl

end

/-! ## 3. The writes -/

/-- What a write calls that leaves all content as it is: it raises, or the write goes on. -/
inductive Quiet where
  /-- `_resolve_existing` and `target.is_file()`. -/
  | regularFile (path : Text)
  /-- The parent of a path is a directory within the Workspace. -/
  | parent (path : Text)
  /-- `target.exists() or target.is_symlink()`. -/
  | vacant (path : Text)
  /-- `os.chmod`. -/
  | mode (temporary : Text)
  /-- `os.fsync` of the directory. -/
  | syncDirectory (path : Text)
  | readText (path : Text)

/-- What is compared of two `os.stat_result`. -/
structure FileStat where
  device : Nat
  inode : Nat
  size : Nat
  mtimeNs : Nat
  deriving DecidableEq

inductive ApplyOp where
  | collect (o : CollectOp)
  | quiet (call : Quiet)
  | statSource (path : Text)
  /-- `checked.open("rb")`, and at most so many bytes of it. -/
  | readSource (path : Text) (limit : Nat)
  /-- `tempfile.NamedTemporaryFile`, beside the file of a path. -/
  | createTemporary (path : Text)
  | fillTemporary (temporary : Text) (content : Bytes)
  /-- `os.replace`. -/
  | replace (temporary path : Text)
  /-- `os.link`, which does not replace. -/
  | link (temporary path : Text)
  | discardTemporary (temporary : Text)
  /-- `remote_access.write_text`. -/
  | remoteWrite (path : Text) (content : Bytes) (expected : ExpectedSource)
  /-- `remote_access.upload_stream` with `overwrite=False`. -/
  | remoteUpload (path : Text) (content : Bytes)

def ApplyOp.Ans : ApplyOp → Type
  | collect o => o.Ans
  | statSource _ => Except FileError FileStat
  | readSource _ _ => Except FileError Bytes
  | createTemporary _ => Except FileError Text
  | quiet _ | fillTemporary _ _ | replace _ _ | link _ _ | discardTemporary _
  | remoteWrite _ _ _ | remoteUpload _ _ => Except FileError Unit

abbrev ApplySig : Sig := ⟨ApplyOp, ApplyOp.Ans⟩

abbrev ApplyProg := Prog ApplySig PlanError

def askCollect (o : CollectSig.Op) : ApplyProg (CollectSig.Ans o) :=
  Prog.perform (S := ApplySig) (.collect o)

def quiet (call : Quiet) : ApplyProg Unit := do
  let answer ← Prog.perform (S := ApplySig) (.quiet call)
  Prog.ofExcept (Except.mapError .file answer)

def statSource (path : Text) : ApplyProg FileStat := do
  let answer ← Prog.perform (S := ApplySig) (.statSource path)
  Prog.ofExcept (Except.mapError .file answer)

def readSource (path : Text) (limit : Nat) : ApplyProg Bytes := do
  let answer ← Prog.perform (S := ApplySig) (.readSource path limit)
  Prog.ofExcept (Except.mapError .file answer)

def createTemporary (path : Text) : ApplyProg Text := do
  let answer ← Prog.perform (S := ApplySig) (.createTemporary path)
  Prog.ofExcept (Except.mapError .file answer)

def fillTemporary (temporary : Text) (content : Bytes) : ApplyProg Unit := do
  let answer ← Prog.perform (S := ApplySig) (.fillTemporary temporary content)
  Prog.ofExcept (Except.mapError .file answer)

def replaceFile (temporary path : Text) : ApplyProg Unit := do
  let answer ← Prog.perform (S := ApplySig) (.replace temporary path)
  Prog.ofExcept (Except.mapError .file answer)

def linkFile (temporary path : Text) : ApplyProg Unit := do
  let answer ← Prog.perform (S := ApplySig) (.link temporary path)
  Prog.ofExcept (Except.mapError .file answer)

def discardTemporary (temporary : Text) : ApplyProg Unit := do
  let answer ← Prog.perform (S := ApplySig) (.discardTemporary temporary)
  Prog.ofExcept (Except.mapError .file answer)

section

variable (review : Review)

/-- `require_expected_source`. -/
def requireExpectedSource (path : Text) (expected : ExpectedSource) : ApplyProg Unit := do
  quiet (.regularFile path)
  let before ← statSource path
  let current ← readSource path (review.maxEditBytes + 1)
  let after ← statSource path
  if review.maxEditBytes < current.length ∨ before ≠ after ∨ after.mtimeNs ≠ expected.mtimeNs ∨
      review.fileDigest current ≠ expected.digest then
    Prog.raise (.file .conflict)
  else return

/-- `FileService.write_text`. -/
def writeText (path content : Text) (expected : ExpectedSource) : ApplyProg Unit :=
  let encoded := utf8 content
  if review.maxEditBytes < encoded.length then Prog.raise (.file .unsupported)
  else do
    quiet (.regularFile path)
    requireExpectedSource review path expected
    quiet (.parent path)
    let temporary ← createTemporary path
    Prog.finally_ (do
      fillTemporary temporary encoded
      quiet (.mode temporary)
      requireExpectedSource review path expected
      replaceFile temporary path
      quiet (.syncDirectory path)) (discardTemporary temporary)
    quiet (.readText path)

/-- `FileService.write_new_text`. -/
def writeNewText (path content : Text) : ApplyProg Unit :=
  let encoded := utf8 content
  if review.maxEditBytes < encoded.length then Prog.raise (.file .unsupported)
  else if path.head? = some '/' ∨ posixParts path = [] ∨ ['.', '.'] ∈ posixParts path then
    Prog.raise (.file .pathBoundary)
  else do
    quiet (.parent path)
    quiet (.vacant path)
    let temporary ← createTemporary path
    Prog.finally_ (do
      fillTemporary temporary encoded
      quiet (.mode temporary)
      linkFile temporary path
      quiet (.syncDirectory path)) (discardTemporary temporary)
    quiet (.readText path)

/-- `_write_existing`. -/
def writeExisting (path content : Text) (expected : ExpectedSource) : ApplyProg Unit :=
  if review.isLocal then writeText review path content expected
  else do
    let answer ← Prog.perform (S := ApplySig) (.remoteWrite path (utf8 content) expected)
    Prog.ofExcept (Except.mapError .file answer)

/-- `_write_new`. -/
def writeNew (path content : Text) : ApplyProg Unit :=
  if review.isLocal then writeNewText review path content
  else do
    let answer ← Prog.perform (S := ApplySig) (.remoteUpload path (utf8 content))
    Prog.ofExcept (Except.mapError .file answer)

/-! ## 4. Applying a plan -/

/-- The same conflict, while a plan is applied. -/
def resultChangedApply : PlanError :=
  .changed "Remote Run result changed while it was applied" "result_changed"

/-- `_ready_result_content`, behind the look-up of the entry. -/
def stableContent (entry : FileEntry) (digest : Text) : ApplyProg Text := do
  let raw ← (readStableFile entry).interpret askCollect
  if review.fileDigest raw ≠ digest ∨ 0 ∈ raw then Prog.raise resultChangedApply
  else
    match decodeUtf8 raw with
    | none => Prog.raise resultChangedApply
    | some content => return content

/-- `_ready_result_content`. -/
def readyResultContent (entries : List FileEntry) (item : CollectionPlanItem) :
    ApplyProg Text :=
  match entries.find? fun e => e.relativePath = item.path, item.resultDigest with
  | some entry, some digest =>
    if entry.isDir = true ∨ digest = [] then Prog.raise resultChangedApply
    else stableContent review entry digest
  | _, _ => Prog.raise resultChangedApply

/-- What is in the `try`: the content of a ready item, and its write. -/
def writeItem (entries : List FileEntry) (relative : Text) (planned : PlannedItem) :
    ApplyProg Unit := do
  let content ← readyResultContent review entries planned.item
  match planned.item.change with
  | .modified =>
    match planned.expected with
    | some current => writeExisting review relative content current
    | none => Prog.raise (.file (.other "KeyError"))
  | .added => writeNew review relative content
  | .deleted | .unchanged | .unsupported => Prog.raise (.file (.other "AssertionError"))

inductive ApplyOutcome where
  | applied
  | alreadyResult
  | conflict
  | skipped
  | failed
  deriving DecidableEq, Repr

structure CollectionReportItem where
  path : Text
  change : PlanChange
  outcome : ApplyOutcome
  reason : String
  deriving DecidableEq, Repr

/-- What the `except` clauses say of a write. -/
def applyReport : Except PlanError Unit → ApplyOutcome × String
  | .ok () => (.applied, "applied")
  | .error (.changed _ _) => (.conflict, "result_changed_during_apply")
  | .error (.file (.other _)) => (.failed, "apply_failed")
  | .error (.file _) => (.conflict, "source_changed_during_apply")
  | .error _ => (.failed, "apply_failed")

/-- One turn of the loop over the items. -/
def applyItem (entries : List FileEntry) (planned : PlannedItem) :
    ApplyProg CollectionReportItem :=
  let item := planned.item
  match item.status with
  | .alreadyResult => return ⟨item.path, item.change, .alreadyResult, item.reason⟩
  | .conflict => return ⟨item.path, item.change, .conflict, item.reason⟩
  | .skipped => return ⟨item.path, item.change, .skipped, item.reason⟩
  | .ready => do
    let relative ← Prog.ofExcept (review.sourceRelativePath item.path)
    let written ← (writeItem review entries relative planned).attempt
    return ⟨item.path, item.change, (applyReport written).1, (applyReport written).2⟩

def applyItems (entries : List FileEntry) :
    List PlannedItem → ApplyProg (List CollectionReportItem)
  | [] => pure []
  | planned :: rest => do
    let report ← applyItem review entries planned
    let reports ← applyItems entries rest
    return report :: reports

structure CollectionReport where
  runId : Text
  planRevision : Text
  items : List CollectionReportItem

/-- What is known of a Run when its result is collected. -/
structure CollectionRun where
  runId : Text
  sourceWorkspaceId : Text
  maxArchiveBytes : Nat
  baseline : WorkspaceManifest

def CollectionRun.plan (run : CollectionRun) (planned : List PlannedItem) : CollectionPlan where
  runId := run.runId
  sourceWorkspaceId := run.sourceWorkspaceId
  sourcePath := review.sourcePath
  items := planned.map PlannedItem.item

/-- `_apply_locked`. -/
def applyLocked (run : CollectionRun) (revision : Text) : ApplyProg CollectionReport := do
  let built ← (buildPlan review run.maxArchiveBytes run.baseline).interpret askCollect
  let plan := run.plan review built.2
  if revision = [] ∨ revision ≠ review.planRevision plan then
    Prog.raise (.changed "Remote Run collection inputs changed; review the plan again"
      "plan_revision_mismatch")
  else if ¬plan.applyAllowed then
    Prog.raise (.result "Remote Run result contains too many changes to review safely"
      "collection_too_many_changes")
  else
    let reports ← applyItems review built.1.entries built.2
    return ⟨run.runId, review.planRevision plan, reports⟩

/-! ## 5. The Source, and who changes it -/

/-- A link stands above a path. -/
def SourceTree.Linked (tree : SourceTree) (parts : List Text) : Prop :=
  ∃ above, above <+: parts ∧ above ≠ parts ∧ tree.lstat above = .ok .symlink

/-- A path names a node, or a link, and what a link leads to is not known. -/
def SourceTree.Leads (tree : SourceTree) (parts : List Text) (node : SourceNode) : Prop :=
  tree.lstat parts = .ok node ∨ tree.lstat parts = .ok .symlink

/-- What there is when a node has been put at a path, in the place of what was there. -/
structure SourceTree.Placed (before : SourceTree) (parts : List Text) (node : SourceNode)
    (after : SourceTree) : Prop where
  here : after.lstat parts = .ok node
  -- below a link, one place has several paths
  elsewhere : ∀ other found, other ≠ parts → ¬before.Linked parts → ¬before.Linked other →
    (after.lstat other = .ok found ↔ before.lstat other = .ok found)
  kept : ∀ other found, ¬before.Linked other → before.lstat other = .ok found →
    ∃ now, after.lstat other = .ok now

structure Files where
  source : SourceTree
  /-- The temporary files of the collector: their names are random, and nobody else's. -/
  temporaries : Text → Option Bytes

/-- The Source before and after an operation of the collector. -/
abbrev SourceStep := SourceTree × SourceTree

structure World where
  files : Files
  steps : List SourceStep

/-- A step found a file with this time at a path. -/
def SawTime (path : Text) (mtimeNs : Nat) (step : SourceStep) : Prop :=
  ∃ node, step.1.Leads (posixParts path) node ∧ node.mtimeNs = mtimeNs

/-- A step found a content with this digest at a path. -/
def SawContent (path digest : Text) (step : SourceStep) : Prop :=
  ∃ content mtimeNs, step.1.Leads (posixParts path) (.file content mtimeNs true) ∧
    content.length ≤ review.maxEditBytes ∧ review.fileDigest content = digest

/-- The steps of one look that found what was expected: at the time of a file, at its content,
    and, but over SFTP, at the time once more. -/
structure Looked (path : Text) (expected : ExpectedSource) (looks : List SourceStep) : Prop where
  quiet : ∀ step ∈ looks, step.2 = step.1
  saw : ∃ seen read again, looks = seen :: read :: again ∧ again.length ≤ 1 ∧
    SawTime path expected.mtimeNs seen ∧ SawContent review path expected.digest read ∧
    ∀ step ∈ again, SawTime path expected.mtimeNs step

/-- A content comes to be at a path, where there is no directory. -/
def Files.Writes (before : Files) (path : Text) (content : Bytes) (source : SourceTree) : Prop :=
  (∀ size mtimeNs, before.source.lstat (posixParts path) ≠ .ok (.directory size mtimeNs)) ∧
    ∃ mtimeNs, before.source.Placed (posixParts path) (.file content mtimeNs true) source

def Files.stage (files : Files) (temporary : Text) (content : Option Bytes) : Files :=
  { files with temporaries := Function.update files.temporaries temporary content }

/-- What an operation does when it answers so; each of them may fail. -/
def act : (o : ApplyOp) → o.Ans → List SourceStep → Files → Files → Prop
  | .collect _, _, _, u, v | .quiet _, _, _, u, v => v = u
  | .statSource path, .ok stat, _, u, v => v = u ∧
    ∃ node, u.source.Leads (posixParts path) node ∧ stat.size = node.size ∧
      stat.mtimeNs = node.mtimeNs
  | .readSource path limit, .ok raw, _, u, v => v = u ∧
    ∃ content mtimeNs, u.source.Leads (posixParts path) (.file content mtimeNs true) ∧
      raw = content.take limit
  | .createTemporary _, .ok temporary, _, u, v =>
    u.temporaries temporary = none ∧ v = u.stage temporary (some [])
  | .fillTemporary temporary content, .ok (), _, u, v => v = u.stage temporary (some content)
  | .fillTemporary temporary _, .error _, _, u, v =>
    -- some of the content may have been written
    ∃ part, v = u.stage temporary (some part)
  | .replace temporary path, .ok (), _, u, v =>
    ∃ content source, u.temporaries temporary = some content ∧ u.Writes path content source ∧
      v = ⟨source, Function.update u.temporaries temporary none⟩
  | .link temporary path, .ok (), _, u, v => u.source.lstat (posixParts path) = .error .notFound ∧
    ∃ content source, u.temporaries temporary = some content ∧ u.Writes path content source ∧
      v = { u with source }
  | .discardTemporary temporary, .ok (), _, u, v => v = u.stage temporary none
  | .statSource _, .error _, _, u, v | .readSource _ _, .error _, _, u, v
  | .createTemporary _, .error _, _, u, v | .replace _ _, .error _, _, u, v
  | .link _ _, .error _, _, u, v | .discardTemporary _, .error _, _, u, v => v = u
  -- a request that failed may have been carried out, and its answer lost
  | .remoteWrite path content expected, answer, looks, u, v =>
    (looks = [] ∧ v = u ∧ ∃ e, answer = .error e) ∨
      (Looked review path expected looks ∧
        ∃ source, u.Writes path content source ∧ v = { u with source })
  | .remoteUpload path content, answer, _, u, v =>
    (v = u ∧ ∃ e, answer = .error e) ∨
      (u.source.lstat (posixParts path) = .error .notFound ∧
        ∃ source, u.Writes path content source ∧ v = { u with source })

/-- The operations in which the machine of the Source looks at a file by itself. -/
def ApplyOp.looking : ApplyOp → Bool
  | remoteWrite _ _ _ => true
  | _ => false

/-- The others make of the Source what they want, then the collector has its turn. -/
def Step (o : ApplySig.Op) (answer : ApplySig.Ans o) (w v : World) : Prop :=
  ∃ (u : Files) (looks : List SourceStep), u.temporaries = w.files.temporaries ∧
    (ApplyOp.looking o = false → looks = []) ∧ act review o answer looks u v.files ∧
    v.steps = w.steps ++ looks ++ [(u.source, v.files.source)]

/-! ## 6. What was reviewed -/

/-- A step writes an item with its result's digest: behind a look that found the digest and the
    time of the item, or where nothing was. -/
def Writes (item : CollectionPlanItem) (earlier : List SourceStep) (step : SourceStep) : Prop :=
  ∃ relative raw mtimeNs, review.sourceRelativePath item.path = .ok relative ∧
    item.resultDigest = some (review.fileDigest raw) ∧
    step.1.Placed (posixParts relative) (.file raw mtimeNs true) step.2 ∧
    ((item.change = .modified ∧ ∃ before looks expected, earlier = before ++ looks ∧
        Looked review relative expected looks ∧ item.currentDigest = some expected.digest ∧
        item.currentMtimeNs = some expected.mtimeNs) ∨
      (item.change = .added ∧ step.1.lstat (posixParts relative) = .error .notFound))

/-- A step, behind the earlier ones, leaves the Source or writes a ready item. -/
def ReviewedStep (items : List CollectionPlanItem) (earlier : List SourceStep)
    (step : SourceStep) : Prop :=
  step.2 = step.1 ∨ ∃ item ∈ items, item.status = .ready ∧ Writes review item earlier step

def Reviewed (items : List CollectionPlanItem) (steps : List SourceStep) : Prop :=
  ∀ earlier step later, steps = earlier ++ step :: later → ReviewedStep review items earlier step

/-- One of the steps writes an item. -/
def Written (item : CollectionPlanItem) (steps : List SourceStep) : Prop :=
  ∃ earlier step later, steps = earlier ++ step :: later ∧ Writes review item earlier step

/-- What is reported of an item. -/
structure Reported (steps : List SourceStep) (item : CollectionPlanItem)
    (report : CollectionReportItem) : Prop where
  path : report.path = item.path
  change : report.change = item.change
  applied : report.outcome = .applied → item.status = .ready ∧ Written review item steps

end

/-! ## 7. What a ready item comes with -/

section

variable {review : Review} {α β : Type}

/-- What a program returns, whatever it is answered. -/
def Yields (p : CollectProg α) (Q : α → Prop) : Prop :=
  p.Uses (fun _ => True) (onResult Q fun _ => True)

theorem Yields.ret {a : α} {Q : α → Prop} (h : Q a) : Yields (pure a) Q := h

theorem Yields.error {e : PlanError} {Q : α → Prop} : Yields (Prog.raise e) Q := trivial

theorem Yields.always {p : CollectProg α} {Q : α → Prop} (h : ∀ a, Q a) : Yields p Q := by
  induction p with
  | ret a => exact h a
  | raise e => trivial
  | op o k ih => exact ⟨trivial, ih⟩

theorem Yields.any (p : CollectProg α) : Yields p fun _ => True := .always fun _ => trivial

theorem Yields.checked {r : Except PlanError α} : Yields (Prog.ofExcept r) fun a => r = .ok a := by
  cases r with
  | ok a => rfl
  | error e => trivial

theorem Yields.bind {p : CollectProg α} {f : α → CollectProg β} {Q : α → Prop} {R : β → Prop}
    (first : Yields p Q) (rest : ∀ a, Q a → Yields (f a) R) : Yields (p >>= f) R := by
  unfold Yields at first ⊢
  rw [Prog.uses_bind]
  refine Prog.uses_mono (fun _ h => h) ?_ first
  intro r hr
  cases r with
  | ok a => exact rest a hr
  | error e => trivial

/-- A ready item has a path of the Source, and a modified one has what was seen there. -/
def Writable (review : Review) (planned : PlannedItem) : Prop :=
  planned.item.status = .ready →
    (∃ relative, review.sourceRelativePath planned.item.path = .ok relative) ∧
    (planned.item.change = .modified → ∃ expected, planned.expected = some expected ∧
      planned.item.currentDigest = some expected.digest ∧
      planned.item.currentMtimeNs = some expected.mtimeNs)

variable {path resultDigest digest : Text} {baseline : Option WorkspaceEntry}
  {snapshot : FileSnapshot} {current : CurrentSource} {raw : Bytes} {entry : FileEntry}
  {manifest : WorkspaceManifest}

theorem readCurrentSource_path : Yields (readCurrentSource review path) fun _ =>
    ∃ relative, review.sourceRelativePath path = .ok relative := by
  unfold readCurrentSource
  refine Yields.checked.bind ?_
  intro relative hrelative
  exact Yields.always fun _ => ⟨relative, hrelative⟩

theorem planModified_writable
    (hpath : ∃ relative, review.sourceRelativePath path = .ok relative) :
    Writable review (planModified path digest resultDigest snapshot) := by
  unfold planModified Writable
  dsimp only
  split
  · intro ready
    cases ready
  split
  · intro ready
    cases ready
  · intro _
    refine ⟨hpath, ?_⟩
    intro _
    exact ⟨snapshot.expected, rfl, rfl, rfl⟩

theorem planAgainst_writable
    (hpath : ∃ relative, review.sourceRelativePath path = .ok relative) :
    Yields (planAgainst review path baseline resultDigest current) (Writable review) := by
  cases current with
  | refused reason =>
    apply Yields.ret
    intro ready
    cases ready
  | missing =>
    cases baseline with
    | none =>
      refine (Yields.any _).bind ?_
      intro parentExists _
      cases parentExists with
      | false =>
        apply Yields.ret
        intro ready
        cases ready
      | true =>
        apply Yields.ret
        intro _
        refine ⟨hpath, ?_⟩
        intro modified
        cases modified
    | some entry =>
      refine (Yields.any _).bind ?_
      intro digest _
      apply Yields.ret
      intro ready
      cases ready
  | text snapshot =>
    unfold planAgainst
    dsimp only
    split
    · apply Yields.ret
      intro ready
      cases ready
    cases baseline with
    | none =>
      apply Yields.ret
      intro ready
      cases ready
    | some entry =>
      refine (Yields.any _).bind ?_
      intro digest _
      exact Yields.ret (planModified_writable hpath)

theorem planText_writable : Yields (planText review path baseline raw) (Writable review) := by
  unfold planText
  dsimp only
  split
  · apply Yields.ret
    intro ready
    cases ready
  refine (Yields.any _).bind ?_
  intro excluded _
  cases excluded with
  | true =>
    apply Yields.ret
    intro ready
    cases ready
  | false =>
    refine readCurrentSource_path.bind ?_
    intro current hpath
    exact planAgainst_writable hpath

theorem skippedItem_writable {reason : String} :
    Writable review ⟨skippedItem path baseline reason, none⟩ := by
  intro ready
  cases ready

theorem planFile_writable : Yields (planFile review entry baseline) (Writable review) := by
  unfold planFile
  dsimp only
  split
  · exact Yields.ret skippedItem_writable
  refine (Yields.any _).bind ?_
  intro read _
  split
  · exact Yields.ret skippedItem_writable
  · exact Yields.error
  split
  · exact Yields.ret skippedItem_writable
  split
  · exact Yields.ret skippedItem_writable
  · exact planText_writable

theorem planEntry_writable : Yields (planEntry review manifest entry)
    fun items => ∀ planned ∈ items, Writable review planned := by
  unfold planEntry
  dsimp only
  split
  · apply Yields.ret
    intro planned hplanned
    split at hplanned
    · cases hplanned
    · rw [List.mem_singleton.mp hplanned]
      exact skippedItem_writable
  split
  · apply Yields.ret
    intro planned hplanned
    split at hplanned
    · rw [List.mem_singleton.mp hplanned]
      intro ready
      cases ready
    · cases hplanned
  · refine planFile_writable.bind ?_
    intro planned hwritable
    apply Yields.ret
    intro other hother
    rw [List.mem_singleton.mp hother]
    exact hwritable

theorem planEntries_writable {entries : List FileEntry} :
    Yields (planEntries review manifest entries)
      fun items => ∀ planned ∈ items, Writable review planned := by
  induction entries with
  | nil => exact Yields.ret fun planned hplanned => absurd hplanned List.not_mem_nil
  | cons entry entries ih =>
    refine planEntry_writable.bind ?_
    intro first hfirst
    refine ih.bind ?_
    intro rest hrest
    apply Yields.ret
    intro planned hplanned
    rcases List.mem_append.mp hplanned with here | there
    · exact hfirst planned here
    · exact hrest planned there

theorem buildPlan_writable {maxArchiveBytes : Nat} :
    Yields (buildPlan review maxArchiveBytes manifest)
      fun built => ∀ planned ∈ built.2, Writable review planned := by
  refine (Yields.any _).bind ?_
  intro tree _
  have items : Yields (buildItems review manifest tree)
      fun items => ∀ planned ∈ items, Writable review planned := by
    refine planEntries_writable.bind ?_
    intro items hitems
    apply Yields.ret
    intro planned hplanned
    rw [List.mem_insertionSort] at hplanned
    rcases List.mem_append.mp hplanned with here | there
    · exact hitems planned here
    · obtain ⟨b, -, -, -, rfl⟩ := mem_deletedItems.mp there
      intro ready
      cases ready
  refine items.bind ?_
  intro items hitems
  exact Yields.ret hitems

end

/-! ## 8. One write -/

/-- The operations that leave the Source to the others. -/
def ApplyOp.leaves : ApplyOp → Bool
  | collect _ | quiet _ | statSource _ | readSource _ _ | createTemporary _ | fillTemporary _ _
  | discardTemporary _ => true
  | replace _ _ | link _ _ | remoteWrite _ _ _ | remoteUpload _ _ => false

/-- A part of the collector keeps what was done, and does only what was reviewed. -/
structure Kept (review : Review) (items : List CollectionPlanItem) (w v : World) : Prop where
  reviewed : Reviewed review items v.steps
  steps : w.steps <+: v.steps

/-- A write that returned has written its item. -/
structure Goes (review : Review) (items : List CollectionPlanItem) (item : CollectionPlanItem)
    (w : World) (r : Except PlanError Unit) (v : World) : Prop where
  kept : Kept review items w v
  written : r = .ok () → Written review item v.steps

section

variable {review : Review} {α : Type} {items : List CollectionPlanItem} {item : CollectionPlanItem}
  {w₀ w v : World} {o : ApplySig.Op} {answer : ApplySig.Ans o} {before after : Files}
  {path content relative temporary : Text} {expected : ExpectedSource} {call : Quiet}
  {steps looks : List SourceStep} {last : SourceStep}

theorem act_leaves (h : ApplyOp.leaves o = true) (hact : act review o answer looks before after) :
    after.source = before.source := by
  cases o with
  | collect o | quiet call =>
    obtain rfl := hact
    rfl
  | statSource path | readSource path limit =>
    cases answer with
    | ok _ =>
      obtain ⟨rfl, -⟩ := hact
      rfl
    | error e =>
      obtain rfl := hact
      rfl
  | createTemporary path =>
    cases answer with
    | ok temporary =>
      obtain ⟨-, rfl⟩ := hact
      rfl
    | error e =>
      obtain rfl := hact
      rfl
  | fillTemporary temporary content =>
    cases answer with
    | ok _ =>
      obtain rfl := hact
      rfl
    | error e =>
      obtain ⟨part, rfl⟩ := hact
      rfl
  | discardTemporary temporary =>
    cases answer with
    | ok _ =>
      obtain rfl := hact
      rfl
    | error e =>
      obtain rfl := hact
      rfl
  | replace _ _ | link _ _ | remoteWrite _ _ _ | remoteUpload _ _ => cases h

theorem looking_of_leaves (h : ApplyOp.leaves o = true) : ApplyOp.looking o = false := by
  cases o with
  | remoteWrite _ _ _ => cases h
  | _ => rfl

/-- What is done next is seen behind what was done. -/
theorem Reviewed.snoc (reviewed : Reviewed review items steps)
    (here : ReviewedStep review items steps last) : Reviewed review items (steps ++ [last]) := by
  intro earlier found later h
  rcases List.eq_nil_or_concat later with rfl | ⟨later, end_, rfl⟩
  · obtain ⟨rfl, hlast⟩ := List.append_inj' h rfl
    rw [← List.singleton_inj.mp hlast]
    exact here
  · rw [List.concat_eq_append, ← List.cons_append, ← List.append_assoc] at h
    exact reviewed earlier found later (List.append_inj' h rfl).1

theorem Reviewed.quiet (reviewed : Reviewed review items steps)
    (quiet : ∀ step ∈ looks, step.2 = step.1) : Reviewed review items (steps ++ looks) := by
  induction looks generalizing steps with
  | nil => rwa [List.append_nil]
  | cons look looks ih =>
    rw [List.forall_mem_cons] at quiet
    rw [List.append_cons]
    exact ih (reviewed.snoc (.inl quiet.1)) quiet.2

theorem Written.later {more : List SourceStep} (h : Written review item steps)
    (sub : steps <+: more) : Written review item more := by
  obtain ⟨earlier, step, later, rfl, writes⟩ := h
  obtain ⟨rest, rfl⟩ := sub
  exact ⟨earlier, step, later ++ rest, by simp, writes⟩

theorem Kept.step (kept : Kept review items w₀ w)
    (quiet : ∀ step ∈ looks, step.2 = step.1)
    (hsteps : v.steps = w.steps ++ looks ++ [(before.source, after.source)])
    (here : ReviewedStep review items (w.steps ++ looks) (before.source, after.source)) :
    Kept review items w₀ v := by
  constructor
  · rw [hsteps]
    exact (kept.reviewed.quiet quiet).snoc here
  · rw [hsteps, List.append_assoc]
    exact kept.steps.trans (List.prefix_append _ _)

theorem not_looking {looking : Bool} (none : looking = false → looks = []) (h : looking = false) :
    ∀ step ∈ looks, step.2 = step.1 := by
  rw [none h]
  exact fun _ h => absurd h List.not_mem_nil

/-- What leaves the Source keeps everything. -/
theorem leaves_wp {p : ApplyProg α} {R : Except PlanError α → Prop}
    (uses : p.Uses (fun o => ApplyOp.leaves o = true) R) (kept : Kept review items w₀ w) :
    p.wp (alone (Step review)) (fun r v => R r ∧ Kept review items w₀ v) w := by
  refine Prog.wp_of_uses ?_ ?_ uses kept
  · rintro u v rfl kept
    exact kept
  · intro o answer u v leaves kept _ step
    obtain ⟨files, looks, -, hlooks, hact, hsteps⟩ := step
    have quiet := not_looking hlooks (looking_of_leaves leaves)
    exact ⟨trivial, kept.step quiet hsteps (.inl (act_leaves leaves hact))⟩

theorem Goes.error {e : PlanError} (kept : Kept review items w₀ v) :
    Goes review items item w₀ (.error e) v := by
  refine ⟨kept, ?_⟩
  intro h
  cases h

theorem Kept.refl (kept : Kept review items w₀ v) : Kept review items v v :=
  ⟨kept.reviewed, List.prefix_rfl⟩

theorem Goes.later {r : Except PlanError Unit} (goes : Goes review items item w₀ r w)
    (kept : Kept review items w v) : Goes review items item w₀ r v :=
  ⟨⟨kept.reviewed, goes.kept.steps.trans kept.steps⟩, fun h => (goes.written h).later kept.steps⟩

/-- What a write that has been done raises is not its failure to write. -/
theorem Goes.behind {r : Except PlanError Unit} (goes : Goes review items item w₀ (.ok ()) w)
    (kept : Kept review items w v) : Goes review items item w₀ r v := by
  have later := goes.later kept
  exact ⟨later.kept, fun _ => later.written rfl⟩

/-- One operation that leaves the Source and the temporary files: what it answered, and the step
    that it took. -/
theorem leaving_wp {Q : Except PlanError (ApplySig.Ans o) → World → Prop}
    (leaves : ApplyOp.leaves o = true)
    (next : ∀ answer (files : Files) v, files.temporaries = w.files.temporaries →
      act review o answer [] files v.files → v.steps = w.steps ++ [(files.source, files.source)] →
      Kept review items w₀ v → Q (.ok answer) v)
    (kept : Kept review items w₀ w) :
    (Prog.perform (S := ApplySig) o : ApplyProg _).wp (alone (Step review)) Q w := by
  apply alone_perform
  rintro answer v ⟨files, looks, htemporaries, hlooks, hact, hsteps⟩
  obtain rfl := hlooks (looking_of_leaves leaves)
  have same := act_leaves leaves hact
  have there := kept.step (fun _ h => absurd h List.not_mem_nil) hsteps (.inl same)
  rw [List.append_nil, same] at hsteps
  exact next answer files v htemporaries hact hsteps there

theorem quiet_wp (kept : Kept review items w₀ w) : (quiet call).wp (alone (Step review))
    (fun _ v => Kept review items w₀ v ∧ v.files.temporaries = w.files.temporaries) w := by
  unfold quiet
  rw [Prog.wp_bind]
  refine leaving_wp rfl ?_ kept
  intro answer files v htemporaries hact _ kept
  rw [onResult_ok, Prog.wp_ofExcept]
  have hfiles : v.files = files := hact
  rw [hfiles]
  exact ⟨kept, htemporaries⟩

theorem createTemporary_wp (kept : Kept review items w₀ w) :
    (createTemporary path).wp (alone (Step review)) (fun _ v => Kept review items w₀ v) w := by
  have leaves : (createTemporary path).All fun o => ApplyOp.leaves o = true :=
    Prog.All.bind ⟨rfl, fun _ => trivial⟩ fun _ => .ofExcept
  exact Prog.wp_mono (fun _ _ h => h.2) (leaves_wp leaves kept)

theorem discardTemporary_wp (kept : Kept review items w₀ w) :
    (discardTemporary temporary).wp (alone (Step review))
      (fun _ v => Kept review items w₀ v) w := by
  have leaves : (discardTemporary temporary).All fun o => ApplyOp.leaves o = true :=
    Prog.All.bind ⟨rfl, fun _ => trivial⟩ fun _ => .ofExcept
  exact Prog.wp_mono (fun _ _ h => h.2) (leaves_wp leaves kept)

/-- What was written is there, behind the temporary name. -/
theorem fillTemporary_wp {raw : Bytes} (kept : Kept review items w₀ w) :
    (fillTemporary temporary raw).wp (alone (Step review)) (fun r v => Kept review items w₀ v ∧
      (r = .ok () → v.files.temporaries temporary = some raw)) w := by
  unfold fillTemporary
  rw [Prog.wp_bind]
  refine leaving_wp rfl ?_ kept
  intro answer files v _ hact _ kept
  rw [onResult_ok, Prog.wp_ofExcept]
  refine ⟨kept, ?_⟩
  cases answer with
  | ok _ =>
    intro _
    have hfiles : v.files = files.stage temporary (some raw) := hact
    rw [hfiles]
    exact Function.update_self _ _ _
  | error e =>
    intro h
    cases h

/-- `stat`, and what it was asked of. -/
theorem statSource_wp (kept : Kept review items w₀ w) : (statSource path).wp (alone (Step review))
    (fun r v => Kept review items w₀ v ∧ v.files.temporaries = w.files.temporaries ∧
      ∀ stat, r = .ok stat → ∃ tree, v.steps = w.steps ++ [(tree, tree)] ∧
        SawTime path stat.mtimeNs (tree, tree)) w := by
  unfold statSource
  rw [Prog.wp_bind]
  refine leaving_wp rfl ?_ kept
  intro answer files v htemporaries hact hsteps kept
  rw [onResult_ok, Prog.wp_ofExcept]
  cases answer with
  | error e =>
    have hfiles : v.files = files := hact
    rw [hfiles]
    refine ⟨kept, htemporaries, ?_⟩
    intro stat h
    cases h
  | ok found =>
    obtain ⟨hfiles, node, leads, -, hmtime⟩ := hact
    rw [hfiles]
    refine ⟨kept, htemporaries, ?_⟩
    intro stat h
    obtain rfl : found = stat := Except.ok.inj h
    exact ⟨files.source, hsteps, node, leads, hmtime.symm⟩

/-- The open and the read, and what they were asked of. -/
theorem readSource_wp (kept : Kept review items w₀ w) :
    (readSource path (review.maxEditBytes + 1)).wp (alone (Step review))
    (fun r v => Kept review items w₀ v ∧ v.files.temporaries = w.files.temporaries ∧
      ∀ raw : Bytes, r = .ok raw → ∃ tree, v.steps = w.steps ++ [(tree, tree)] ∧
        (raw.length ≤ review.maxEditBytes →
          SawContent review path (review.fileDigest raw) (tree, tree))) w := by
  unfold readSource
  rw [Prog.wp_bind]
  refine leaving_wp rfl ?_ kept
  intro answer files v htemporaries hact hsteps kept
  rw [onResult_ok, Prog.wp_ofExcept]
  cases answer with
  | error e =>
    have hfiles : v.files = files := hact
    rw [hfiles]
    refine ⟨kept, htemporaries, ?_⟩
    intro raw h
    cases h
  | ok found =>
    obtain ⟨hfiles, current, mtimeNs, leads, hfound⟩ := hact
    rw [hfiles]
    refine ⟨kept, htemporaries, ?_⟩
    intro raw h
    obtain rfl : found = raw := Except.ok.inj h
    refine ⟨files.source, hsteps, ?_⟩
    intro hsize
    -- what is shorter than the limit was read to its end
    have whole : current.length ≤ review.maxEditBytes := by
      rw [hfound, List.length_take] at hsize
      omega
    have hcurrent : found = current :=
      hfound.trans (List.take_of_length_le (by omega))
    rw [hcurrent]
    exact ⟨current, mtimeNs, leads, whole, rfl⟩

/-- A look that passes found what was expected, in the last steps. -/
theorem requireExpectedSource_wp (kept : Kept review items w₀ w) :
    (requireExpectedSource review path expected).wp (alone (Step review))
    (fun r v => Kept review items w₀ v ∧ v.files.temporaries = w.files.temporaries ∧
      (r = .ok () → ∃ before looks, v.steps = before ++ looks ∧
        Looked review path expected looks)) w := by
  have raises : ∀ {e : PlanError} {v : World}, Kept review items w₀ v →
      v.files.temporaries = w.files.temporaries →
      Kept review items w₀ v ∧ v.files.temporaries = w.files.temporaries ∧
        ((.error e : Except PlanError Unit) = .ok () → ∃ before looks,
          v.steps = before ++ looks ∧ Looked review path expected looks) := by
    intro e v kept same
    refine ⟨kept, same, ?_⟩
    intro h
    cases h
  unfold requireExpectedSource
  apply Prog.wp_seq (quiet_wp kept)
  · intro e v h
    exact raises h.1 h.2
  rintro _ w₁ ⟨kept, same₁⟩
  apply Prog.wp_seq (statSource_wp kept)
  · intro e v h
    exact raises h.1 (h.2.1.trans same₁)
  rintro before w₂ ⟨kept, same₂, seen⟩
  obtain ⟨tree₂, hsteps₂, seen⟩ := seen before rfl
  apply Prog.wp_seq (readSource_wp kept)
  · intro e v h
    exact raises h.1 (h.2.1.trans (same₂.trans same₁))
  rintro current w₃ ⟨kept, same₃, read⟩
  obtain ⟨tree₃, hsteps₃, read⟩ := read current rfl
  apply Prog.wp_seq (statSource_wp kept)
  · intro e v h
    exact raises h.1 (h.2.1.trans (same₃.trans (same₂.trans same₁)))
  rintro after w₄ ⟨kept, same₄, again⟩
  obtain ⟨tree₄, hsteps₄, again⟩ := again after rfl
  have same := same₄.trans (same₃.trans (same₂.trans same₁))
  split
  · exact raises kept same
  rename_i passes
  push Not at passes
  obtain ⟨hsize, rfl, hmtime, hdigest⟩ := passes
  refine ⟨kept, same, ?_⟩
  intro _
  refine ⟨w₁.steps, [(tree₂, tree₂), (tree₃, tree₃), (tree₄, tree₄)], ?_, ?_, ?_⟩
  · rw [hsteps₄, hsteps₃, hsteps₂]
    simp
  · simp
  · rw [hmtime] at seen again
    rw [← hdigest]
    refine ⟨_, _, _, rfl, le_rfl, seen, read hsize, ?_⟩
    intro step hstep
    rw [List.mem_singleton.mp hstep]
    exact again

/-- What is known of a ready item when its content has been read. -/
structure Due (review : Review) (items : List CollectionPlanItem) (item : CollectionPlanItem)
    (relative content : Text) : Prop where
  mem : item ∈ items
  ready : item.status = .ready
  path : review.sourceRelativePath item.path = .ok relative
  result : item.resultDigest = some (review.fileDigest (utf8 content))

/-- What was seen of the file of a modified item. -/
structure Seen (item : CollectionPlanItem) (expected : ExpectedSource) : Prop where
  modified : item.change = .modified
  digest : item.currentDigest = some expected.digest
  mtimeNs : item.currentMtimeNs = some expected.mtimeNs

theorem Due.replaced {earlier : List SourceStep} {source : SourceTree}
    (due : Due review items item relative content) (seen : Seen item expected)
    (looked : Looked review relative expected looks)
    (writes : before.Writes relative (utf8 content) source) :
    Writes review item (earlier ++ looks) (before.source, source) := by
  obtain ⟨-, mtimeNs, placed⟩ := writes
  refine ⟨relative, utf8 content, mtimeNs, due.path, due.result, placed, .inl ?_⟩
  exact ⟨seen.modified, earlier, looks, expected, rfl, looked, seen.digest, seen.mtimeNs⟩

theorem Due.added {source : SourceTree} (due : Due review items item relative content)
    (change : item.change = .added)
    (vacant : before.source.lstat (posixParts relative) = .error .notFound)
    (writes : before.Writes relative (utf8 content) source) :
    Writes review item steps (before.source, source) := by
  obtain ⟨-, mtimeNs, placed⟩ := writes
  exact ⟨relative, utf8 content, mtimeNs, due.path, due.result, placed, .inr ⟨change, vacant⟩⟩

/-- A step that wrote the item. -/
theorem Goes.written_here {r : Except PlanError Unit} (due : Due review items item relative content)
    (kept : Kept review items w₀ w) (quiet : ∀ step ∈ looks, step.2 = step.1)
    (hsteps : v.steps = w.steps ++ looks ++ [(before.source, after.source)])
    (writes : Writes review item (w.steps ++ looks) (before.source, after.source)) :
    Goes review items item w₀ r v := by
  refine ⟨kept.step quiet hsteps (.inr ⟨item, due.mem, due.ready, writes⟩), ?_⟩
  intro _
  exact ⟨_, _, [], hsteps, writes⟩

/-- A step that did not, and raises. -/
theorem Goes.left_here {e : FileError} (kept : Kept review items w₀ w)
    (quiet : ∀ step ∈ looks, step.2 = step.1)
    (hsteps : v.steps = w.steps ++ looks ++ [(before.source, after.source)])
    (hfiles : after = before) :
    Goes review items item w₀ (Except.mapError .file (.error e)) v := by
  subst hfiles
  exact .error (kept.step quiet hsteps (.inl rfl))

/-- The rename comes right behind a look, and others may have their turn in between. -/
theorem replaceFile_wp {earlier : List SourceStep} (due : Due review items item relative content)
    (seen : Seen item expected) (looked : Looked review relative expected looks)
    (kept : Kept review items w₀ w) (hlooks : w.steps = earlier ++ looks)
    (filled : w.files.temporaries temporary = some (utf8 content)) :
    (replaceFile temporary relative).wp (alone (Step review)) (Goes review items item w₀) w := by
  unfold replaceFile
  rw [Prog.wp_bind]
  apply alone_perform
  rintro answer v ⟨files, looks', htemporaries, hlooking, hact, hsteps⟩
  obtain rfl := hlooking rfl
  have quiet : ∀ step ∈ ([] : List SourceStep), step.2 = step.1 :=
    fun _ h => absurd h List.not_mem_nil
  rw [onResult_ok, Prog.wp_ofExcept]
  cases answer with
  | error e => exact .left_here kept quiet hsteps hact
  | ok _ =>
    obtain ⟨raw, source, hraw, writes, hfiles⟩ := hact
    obtain rfl := Option.some.inj (hraw.symm.trans ((congrFun htemporaries _).trans filled))
    have hsource : v.files.source = source := congrArg Files.source hfiles
    refine .written_here due kept quiet hsteps ?_
    rw [List.append_nil, hlooks, hsource]
    exact due.replaced seen looked writes

theorem linkFile_wp (due : Due review items item relative content) (change : item.change = .added)
    (kept : Kept review items w₀ w)
    (filled : w.files.temporaries temporary = some (utf8 content)) :
    (linkFile temporary relative).wp (alone (Step review)) (Goes review items item w₀) w := by
  unfold linkFile
  rw [Prog.wp_bind]
  apply alone_perform
  rintro answer v ⟨files, looks', htemporaries, hlooking, hact, hsteps⟩
  have quiet := not_looking hlooking rfl
  rw [onResult_ok, Prog.wp_ofExcept]
  cases answer with
  | error e => exact .left_here kept quiet hsteps hact
  | ok _ =>
    obtain ⟨vacant, raw, source, hraw, writes, hfiles⟩ := hact
    obtain rfl := Option.some.inj (hraw.symm.trans ((congrFun htemporaries _).trans filled))
    have hsource : v.files.source = source := congrArg Files.source hfiles
    refine .written_here due kept quiet hsteps ?_
    rw [hsource]
    exact due.added change vacant writes

/-- What is done once the item is written raises nothing of the write. -/
theorem Goes.synced_wp {p : ApplyProg Unit} (writes : p.wp (alone (Step review))
    (Goes review items item w₀) w) :
    (do
      p
      quiet (.syncDirectory relative) : ApplyProg Unit).wp (alone (Step review))
        (Goes review items item w₀) w := by
  apply Prog.wp_seq writes
  · intro e v h
    exact .error h.kept
  intro _ v goes
  exact Prog.wp_mono (fun _ _ h => goes.behind h.1) (quiet_wp goes.kept.refl)

/-- The temporary file is filled, put in its place by `put`, and discarded. -/
theorem staged_wp (put : Text → ApplyProg Unit)
    (hput : ∀ w, Kept review items w₀ w → w.files.temporaries temporary = some (utf8 content) →
      (put temporary).wp (alone (Step review)) (Goes review items item w₀) w)
    (kept : Kept review items w₀ w) :
    (Prog.finally_ (do
      fillTemporary temporary (utf8 content)
      quiet (.mode temporary)
      put temporary) (discardTemporary temporary)).wp (alone (Step review))
        (Goes review items item w₀) w := by
  unfold Prog.finally_
  have inner : (do
      fillTemporary temporary (utf8 content)
      quiet (.mode temporary)
      put temporary : ApplyProg Unit).wp (alone (Step review)) (Goes review items item w₀) w := by
    apply Prog.wp_seq (fillTemporary_wp kept)
    · intro e v h
      exact .error h.1
    rintro _ u ⟨kept, filled⟩
    apply Prog.wp_seq (quiet_wp kept)
    · intro e v h
      exact .error h.1
    rintro _ v ⟨kept, same⟩
    exact hput v kept (same ▸ filled rfl)
  refine Prog.wp_seq (R := fun r v => ∃ ended, r = .ok ended ∧ Goes review items item w₀ ended v)
    ?_ ?_ ?_
  · rw [Prog.wp_attempt]
    exact Prog.wp_mono (fun r _ goes => ⟨r, rfl, goes⟩) inner
  · rintro e v ⟨ended, h, -⟩
    cases h
  rintro ended v ⟨_, h, goes⟩
  obtain rfl := Except.ok.inj h
  apply Prog.wp_seq (discardTemporary_wp goes.kept.refl)
  · intro e u kept
    exact .error (goes.later kept).kept
  intro _ u kept
  rw [Prog.wp_ofExcept]
  exact goes.later kept

/-- The look, and the rename behind it. -/
theorem replaceExpected_wp (due : Due review items item relative content)
    (seen : Seen item expected) (kept : Kept review items w₀ w)
    (filled : w.files.temporaries temporary = some (utf8 content)) :
    (do
      requireExpectedSource review relative expected
      replaceFile temporary relative
      quiet (.syncDirectory relative) : ApplyProg Unit).wp (alone (Step review))
        (Goes review items item w₀) w := by
  apply Prog.wp_seq (requireExpectedSource_wp kept)
  · intro e v h
    exact .error h.1
  rintro _ v ⟨kept, same, looked⟩
  obtain ⟨earlier, looks, hlooks, looked⟩ := looked rfl
  exact Goes.synced_wp (replaceFile_wp due seen looked kept hlooks ((congrFun same _).trans filled))

theorem writeText_wp (due : Due review items item relative content) (seen : Seen item expected)
    (kept : Kept review items w₀ w) : (writeText review relative content expected).wp
      (alone (Step review)) (Goes review items item w₀) w := by
  unfold writeText
  dsimp only
  split
  · exact .error kept
  apply Prog.wp_seq (quiet_wp kept)
  · intro e v h
    exact .error h.1
  rintro _ v ⟨kept, -⟩
  apply Prog.wp_seq (requireExpectedSource_wp kept)
  · intro e v h
    exact .error h.1
  rintro _ v ⟨kept, -, -⟩
  apply Prog.wp_seq (quiet_wp kept)
  · intro e v h
    exact .error h.1
  rintro _ v ⟨kept, -⟩
  apply Prog.wp_seq (createTemporary_wp kept)
  · intro e v kept
    exact .error kept
  intro temporary v kept
  apply Prog.wp_seq (staged_wp (fun t => do
    requireExpectedSource review relative expected
    replaceFile t relative
    quiet (.syncDirectory relative)) (fun _ => replaceExpected_wp due seen) kept)
  · intro e v goes
    exact .error goes.kept
  intro _ v goes
  exact Prog.wp_mono (fun _ _ h => goes.behind h.1) (quiet_wp goes.kept.refl)

theorem writeNewText_wp (due : Due review items item relative content)
    (change : item.change = .added) (kept : Kept review items w₀ w) :
    (writeNewText review relative content).wp (alone (Step review))
      (Goes review items item w₀) w := by
  unfold writeNewText
  dsimp only
  split
  · exact .error kept
  split
  · exact .error kept
  apply Prog.wp_seq (quiet_wp kept)
  · intro e v h
    exact .error h.1
  rintro _ v ⟨kept, -⟩
  apply Prog.wp_seq (quiet_wp kept)
  · intro e v h
    exact .error h.1
  rintro _ v ⟨kept, -⟩
  apply Prog.wp_seq (createTemporary_wp kept)
  · intro e v kept
    exact .error kept
  intro temporary v kept
  apply Prog.wp_seq (staged_wp (fun t => do
    linkFile t relative
    quiet (.syncDirectory relative))
    (fun _ kept filled => Goes.synced_wp (linkFile_wp due change kept filled)) kept)
  · intro e v goes
    exact .error goes.kept
  intro _ v goes
  exact Prog.wp_mono (fun _ _ h => goes.behind h.1) (quiet_wp goes.kept.refl)

theorem writeExisting_wp (due : Due review items item relative content)
    (seen : Seen item expected) (kept : Kept review items w₀ w) :
    (writeExisting review relative content expected).wp (alone (Step review))
      (Goes review items item w₀) w := by
  unfold writeExisting
  split
  · exact writeText_wp due seen kept
  rw [Prog.wp_bind]
  apply alone_perform
  rintro answer v ⟨files, looks, -, -, hact, hsteps⟩
  rw [onResult_ok, Prog.wp_ofExcept]
  rcases hact with ⟨rfl, hfiles, e, rfl⟩ | ⟨looked, source, writes, hfiles⟩
  · exact .left_here kept (fun _ h => absurd h List.not_mem_nil) hsteps hfiles
  · refine .written_here due kept looked.quiet hsteps ?_
    rw [hfiles]
    exact due.replaced seen looked writes

theorem writeNew_wp (due : Due review items item relative content)
    (change : item.change = .added) (kept : Kept review items w₀ w) :
    (writeNew review relative content).wp (alone (Step review)) (Goes review items item w₀) w := by
  unfold writeNew
  split
  · exact writeNewText_wp due change kept
  rw [Prog.wp_bind]
  apply alone_perform
  rintro answer v ⟨files, looks, -, hlooking, hact, hsteps⟩
  have quiet := not_looking hlooking rfl
  rw [onResult_ok, Prog.wp_ofExcept]
  rcases hact with ⟨hfiles, e, rfl⟩ | ⟨vacant, source, writes, hfiles⟩
  · exact .left_here kept quiet hsteps hfiles
  · refine .written_here due kept quiet hsteps ?_
    rw [hfiles]
    exact due.added change vacant writes

/-! ## 9. The whole plan -/

variable {entries : List FileEntry} {entry : FileEntry} {digest : Text} {planned : PlannedItem}

/-- A part that builds the plan leaves the Source, and ends as it would by itself. -/
theorem collect_uses {p : CollectProg α} {R : Except PlanError α → Prop}
    (h : p.Uses (fun _ => True) R) :
    (p.interpret askCollect).Uses (fun o => ApplyOp.leaves o = true) R := by
  induction p with
  | ret a => exact h
  | raise e => exact h
  | op o k ih => exact ⟨rfl, fun a => ih a (h.2 a)⟩

/-- The content that is to be written is that of the item. -/
theorem stableContent_uses : (stableContent review entry digest).Uses
    (fun o => ApplyOp.leaves o = true)
    fun r => ∀ content, r = .ok content → review.fileDigest (utf8 content) = digest := by
  unfold stableContent
  rw [Prog.uses_bind]
  refine Prog.uses_mono (fun _ h => h) ?_ (collect_uses (Yields.any (readStableFile entry)))
  intro r _
  cases r with
  | error e =>
    intro content h
    cases h
  | ok raw =>
    rw [onResult_ok]
    split
    · intro content h
      cases h
    · rename_i hraw
      split
      · intro content h
        cases h
      · rename_i text htext
        intro content h
        obtain rfl := Except.ok.inj h
        rw [utf8_of_decodeUtf8 htext]
        simpa using fun hne => hraw (.inl hne)

theorem readyResultContent_uses : (readyResultContent review entries item).Uses
    (fun o => ApplyOp.leaves o = true)
    fun r => ∀ content, r = .ok content →
      item.resultDigest = some (review.fileDigest (utf8 content)) := by
  unfold readyResultContent
  split
  · rename_i entry digest _ hdigest
    split
    · intro content h
      cases h
    · refine Prog.uses_mono (fun _ h => h) ?_ stableContent_uses
      intro r hr content hcontent
      rw [hdigest, hr content hcontent]
  · intro content h
    cases h

theorem writeItem_wp (mem : planned.item ∈ items) (ready : planned.item.status = .ready)
    (path : review.sourceRelativePath planned.item.path = .ok relative)
    (writable : Writable review planned) (kept : Kept review items w₀ w) :
    (writeItem review entries relative planned).wp (alone (Step review))
      (Goes review items planned.item w₀) w := by
  unfold writeItem
  apply Prog.wp_seq (leaves_wp readyResultContent_uses kept)
  · intro e v h
    exact .error h.2
  rintro content v ⟨result, kept⟩
  have due : Due review items planned.item relative content :=
    ⟨mem, ready, path, result content rfl⟩
  split
  · rename_i modified
    obtain ⟨expected, hexpected, hdigest, hmtime⟩ := (writable ready).2 modified
    rw [hexpected]
    exact writeExisting_wp due ⟨modified, hdigest, hmtime⟩ kept
  · rename_i added
    exact writeNew_wp due added kept
  all_goals exact .error kept

theorem applyReport_applied {r : Except PlanError Unit} (h : (applyReport r).1 = .applied) :
    r = .ok () := by
  unfold applyReport at h
  split at h
  · rfl
  all_goals cases h

theorem applyItem_wp (mem : planned.item ∈ items) (writable : Writable review planned)
    (kept : Kept review items w₀ w) : (applyItem review entries planned).wp (alone (Step review))
      (fun r v => Kept review items w₀ v ∧ ∃ report, r = .ok report ∧
        Reported review v.steps planned.item report) w := by
  unfold applyItem
  dsimp only
  split
  · refine ⟨kept, _, rfl, rfl, rfl, ?_⟩
    intro h
    cases h
  · refine ⟨kept, _, rfl, rfl, rfl, ?_⟩
    intro h
    cases h
  · refine ⟨kept, _, rfl, rfl, rfl, ?_⟩
    intro h
    cases h
  rename_i ready
  obtain ⟨relative, path⟩ := (writable ready).1
  rw [path, Prog.wp_bind, Prog.wp_ofExcept, onResult_ok, Prog.wp_bind, Prog.wp_attempt]
  refine Prog.wp_mono ?_ (writeItem_wp mem ready path writable kept)
  intro r v goes
  rw [onResult_ok]
  refine ⟨goes.kept, _, rfl, rfl, rfl, ?_⟩
  intro applied
  exact ⟨ready, goes.written (applyReport_applied applied)⟩

theorem Reported.later {more : List SourceStep} {report : CollectionReportItem}
    (h : Reported review steps item report) (sub : steps <+: more) :
    Reported review more item report := by
  refine ⟨h.path, h.change, ?_⟩
  intro applied
  obtain ⟨ready, written⟩ := h.applied applied
  exact ⟨ready, written.later sub⟩

theorem applyItems_wp {list : List PlannedItem} (mem : ∀ planned ∈ list, planned.item ∈ items)
    (writable : ∀ planned ∈ list, Writable review planned) (kept : Kept review items w₀ w) :
    (applyItems review entries list).wp (alone (Step review))
      (fun r v => Kept review items w₀ v ∧ ∃ reports, r = .ok reports ∧
        List.Forall₂ (Reported review v.steps) (list.map PlannedItem.item) reports) w := by
  induction list generalizing w₀ w with
  | nil => exact ⟨kept, [], rfl, .nil⟩
  | cons planned rest ih =>
    rw [List.forall_mem_cons] at mem writable
    apply Prog.wp_seq (applyItem_wp mem.1 writable.1 kept)
    · rintro e v ⟨-, report, h, -⟩
      cases h
    rintro _ v ⟨kept, report, h, reported⟩
    obtain rfl := Except.ok.inj h
    apply Prog.wp_seq (ih mem.2 writable.2 kept.refl)
    · rintro e u ⟨-, reports, h, -⟩
      cases h
    rintro _ u ⟨later, reports, h, all⟩
    obtain rfl := Except.ok.inj h
    refine ⟨⟨later.reviewed, kept.steps.trans later.steps⟩, _, rfl, ?_⟩
    exact .cons (reported.later later.steps) all

variable {run : CollectionRun} {revision : Text}

/-- No item was written: every step left the Source. -/
theorem Reviewed.of_nil (h : Reviewed review [] steps) : ∀ step ∈ steps, step.2 = step.1 := by
  intro step hstep
  obtain ⟨earlier, later, rfl⟩ := List.append_of_mem hstep
  rcases h earlier step later rfl with same | ⟨item, mem, -⟩
  · exact same
  · exact absurd mem List.not_mem_nil

theorem Reviewed.of_quiet (h : ∀ step ∈ steps, step.2 = step.1) : Reviewed review items steps := by
  rintro earlier step later rfl
  exact .inl (h step (List.mem_append_right _ List.mem_cons_self))

/-- What the whole of it ends in, from where nothing has been done. -/
theorem applyLocked_wp (hw : w.steps = []) : (applyLocked review run revision).wp
    (alone (Step review)) (fun r v =>
      (∀ e, r = .error e → ∀ step ∈ v.steps, step.2 = step.1) ∧
      ∀ report, r = .ok report → ∃ plan : CollectionPlan, review.planRevision plan = revision ∧
        plan.applyAllowed ∧ Reviewed review plan.items v.steps ∧
        report.planRevision = revision ∧
        List.Forall₂ (Reported review v.steps) plan.items report.items) w := by
  have start : Kept review [] w w := by
    refine ⟨?_, List.prefix_rfl⟩
    rw [hw]
    exact .of_quiet fun _ h => absurd h List.not_mem_nil
  unfold applyLocked
  apply Prog.wp_seq (leaves_wp (collect_uses buildPlan_writable) start)
  · rintro e v ⟨-, kept⟩
    refine ⟨fun _ _ => kept.reviewed.of_nil, ?_⟩
    intro report h
    cases h
  rintro ⟨tree, planned⟩ v ⟨writable, kept⟩
  dsimp only
  split
  · refine ⟨fun _ _ => kept.reviewed.of_nil, ?_⟩
    intro report h
    cases h
  rename_i hrevision
  split
  · refine ⟨fun _ _ => kept.reviewed.of_nil, ?_⟩
    intro report h
    cases h
  rename_i hallowed
  have same : revision = review.planRevision (run.plan review planned) := by
    by_contra hne
    exact hrevision (.inr hne)
  -- nothing was done so far, so what was done is reviewed for this plan, too
  have kept : Kept review (run.plan review planned).items w v :=
    ⟨.of_quiet kept.reviewed.of_nil, kept.steps⟩
  apply Prog.wp_seq (applyItems_wp (fun p hp => List.mem_map_of_mem hp) writable kept)
  · rintro e u ⟨-, reports, h, -⟩
    cases h
  rintro _ u ⟨kept, reports, h, all⟩
  obtain rfl := Except.ok.inj h
  constructor
  · intro e h
    cases h
  intro report h
  obtain rfl := Except.ok.inj h
  exact ⟨run.plan review planned, same.symm, not_not.mp hallowed, kept.reviewed, same.symm, all⟩

/-- What a reviewed step finds, but for what it finds below a link, is there behind it. -/
theorem Reviewed.keeps (h : Reviewed review items steps) {step : SourceStep}
    (hstep : step ∈ steps) {parts : List Text} {node : SourceNode} (plain : ¬step.1.Linked parts)
    (there : step.1.lstat parts = .ok node) : ∃ node, step.2.lstat parts = .ok node := by
  obtain ⟨earlier, later, rfl⟩ := List.append_of_mem hstep
  rcases h earlier step later rfl with same | ⟨item, -, -, at_, raw, mtimeNs, -, -, placed, -⟩
  · exact ⟨node, same ▸ there⟩
  · exact placed.kept parts node plain there

end

/-- **A collection writes what was reviewed.** Whatever the others make of the Source between any
    two operations, and the result's backend answers: an apply that raises has left the Source as
    it was; one that returns was given the revision of a plan, and of no other one but by a
    collision of the digest, has done nothing but to write ready items of that plan, each right
    behind a look that found the reviewed time and content or where nothing was, and reports on
    every item in order, as applied only on those it wrote. No path is lost but below a link that
    others put there. -/
theorem apply_writes_reviewed {review : Review} {run : CollectionRun}
    {revision : Text} {files : Files} {v : World} {r : Except PlanError CollectionReport}
    (ran : Exec (Step review) (applyLocked review run revision) ⟨files, []⟩ r v) :
    (∀ e, r = .error e → ∀ step ∈ v.steps, step.2 = step.1) ∧
    (∀ report, r = .ok report → ∃ plan : CollectionPlan, review.planRevision plan = revision ∧
      (∀ reviewed, review.planRevision reviewed = revision →
        reviewed = plan ∨ Collides review.fileDigest reviewed.encoded plan.encoded) ∧
      plan.applyAllowed ∧ Reviewed review plan.items v.steps ∧
      report.planRevision = revision ∧
      List.Forall₂ (Reported review v.steps) plan.items report.items) ∧
    ∀ step ∈ v.steps, ∀ parts node, ¬step.1.Linked parts → step.1.lstat parts = .ok node →
      ∃ node, step.2.lstat parts = .ok node := by
  obtain ⟨failed, returned⟩ := ran.post (applyLocked_wp rfl)
  refine ⟨failed, ?_, ?_⟩
  · intro report hr
    obtain ⟨plan, hplan, allowed, reviewed, hreport, all⟩ := returned report hr
    refine ⟨plan, hplan, ?_, allowed, reviewed, hreport, all⟩
    intro other hother
    by_cases same : other.encoded = plan.encoded
    · exact .inl (encoded_injective same)
    · exact .inr ⟨same, hother.trans hplan.symm⟩
  · intro step hstep parts node plain there
    cases r with
    | error e => exact ⟨node, (failed e rfl step hstep).symm ▸ there⟩
    | ok report =>
      obtain ⟨plan, -, -, reviewed, -, -⟩ := returned report rfl
      exact reviewed.keeps hstep plain there

/-! ## 10. A letter that the run has changed -/

/-- The item of a file that had the letter b, and has the letter a in the result. -/
def letterItem : CollectionPlanItem where
  path := ['a']
  change := .modified
  status := .ready
  reason := "source_unchanged_since_run"
  baselineDigest := some (sampleDigest [98])
  resultDigest := some (sampleDigest [97])
  currentDigest := some (sampleDigest [98])
  currentMtimeNs := some 7

deriving instance DecidableEq for PlannedItem

def letterPlan : CollectionPlan := ⟨['r'], ['w'], ['.'], [letterItem]⟩

/-- The `sha256` of what is digested for `letterPlan`. -/
def letterRevision : Text :=
  "e326db1b244baf52a9eccceadf6992ea3b255cb1474ad0e1b1612dad9e918606".toList

/-- `sha256` of two letters and of the plan; of other bytes, something that is no digest. -/
def digestWith (plan raw : Bytes) : Text :=
  if raw = [97] then sampleDigest [97]
  else if raw = [98] then sampleDigest [98]
  else if raw = plan then letterRevision
  else 'x' :: raw.map fun byte => Char.ofNat byte.toNat

def letterDigest : Bytes → Text := digestWith letterPlan.encoded

theorem ofNat_byte_injective :
    Function.Injective fun byte : UInt8 => Char.ofNat byte.toNat := by
  intro a b h
  have hnat : ∀ byte : UInt8, (Char.ofNat byte.toNat).toNat = byte.toNat := by
    intro byte
    have hlt := byte.toNat_lt
    have hvalid : byte.toNat.isValidChar := .inl (by omega)
    simp [Char.ofNat, hvalid, Char.toNat, Char.ofNatAux]
  exact UInt8.toNat_inj.mp ((hnat a).symm.trans ((congrArg Char.toNat h).trans (hnat b)))

theorem digestWith_cases (plan raw : Bytes) :
    (raw = [97] ∧ (digestWith plan raw).head? = some 'c') ∨
    (raw = [98] ∧ (digestWith plan raw).head? = some '3') ∨
    (raw = plan ∧ (digestWith plan raw).head? = some 'e') ∨
    digestWith plan raw = 'x' :: raw.map fun byte => Char.ofNat byte.toNat := by
  unfold digestWith
  split
  · rename_i here
    exact .inl ⟨here, by decide⟩
  split
  · rename_i here
    exact .inr (.inl ⟨here, by decide⟩)
  split
  · rename_i here
    exact .inr (.inr (.inl ⟨here, by decide⟩))
  · exact .inr (.inr (.inr rfl))

theorem digestWith_injective (plan : Bytes) : Function.Injective (digestWith plan) := by
  intro a b h
  have hhead := congrArg List.head? h
  rcases digestWith_cases plan a with ⟨rfl, ha⟩ | ⟨rfl, ha⟩ | ⟨ha', ha⟩ | ha <;>
    rcases digestWith_cases plan b with ⟨rfl, hb⟩ | ⟨rfl, hb⟩ | ⟨hb', hb⟩ | hb
  -- digests of different kinds begin with different letters
  any_goals rfl
  any_goals (simp [ha, hb] at hhead; done)
  · exact ha'.trans hb'.symm
  · have hbytes := (List.cons.inj (ha.symm.trans (h.trans hb))).2
    exact List.map_injective_iff.mpr ofNat_byte_injective hbytes

theorem digestWith_self {plan : Bytes} (h : plan.head? = some 123) :
    digestWith plan plan = letterRevision := by
  unfold digestWith
  rw [if_neg, if_neg, if_pos rfl]
  · rintro rfl
    simp at h
  · rintro rfl
    simp at h

def letterReview : Review := { sampleReview with fileDigest := letterDigest }

def letterRun : CollectionRun := ⟨['r'], ['w'], 100, manifestOf (sampleBaseline [98]) []⟩

/-- A file at a path, in the place of what was there. -/
def SourceTree.put (tree : SourceTree) (parts : List Text) (node : SourceNode) : SourceTree :=
  { tree with lstat := Function.update tree.lstat parts (.ok node) }

theorem SourceTree.placed_put {tree : SourceTree} {parts : List Text} {node : SourceNode} :
    tree.Placed parts node (tree.put parts node) := by
  refine ⟨Function.update_self _ _ _, ?_, ?_⟩
  · intro other found hne _ _
    have same : (tree.put parts node).lstat other = tree.lstat other :=
      Function.update_of_ne hne _ _
    rw [same]
  · intro other found _ there
    by_cases here : other = parts
    · rw [here]
      exact ⟨node, Function.update_self _ _ _⟩
    · exact ⟨found, (Function.update_of_ne here _ _).trans there⟩

/-- Nobody else is there, and nothing fails. -/
def letterAnswer : (o : ApplySig.Op) → World → Option (ApplySig.Ans o × World)
  | .collect o, w => some ((sampleSurroundings [98]).answer letterReview o,
      ⟨w.files, w.steps ++ [(w.files.source, w.files.source)]⟩)
  | .quiet _, w => some (.ok (), ⟨w.files, w.steps ++ [(w.files.source, w.files.source)]⟩)
  | .statSource path, w =>
    match w.files.source.lstat (posixParts path) with
    | .ok node => some (.ok ⟨1, 1, node.size, node.mtimeNs⟩,
        ⟨w.files, w.steps ++ [(w.files.source, w.files.source)]⟩)
    | .error _ => none
  | .readSource path limit, w =>
    match w.files.source.lstat (posixParts path) with
    | .ok (.file content _ true) => some (.ok (content.take limit),
        ⟨w.files, w.steps ++ [(w.files.source, w.files.source)]⟩)
    | _ => none
  | .createTemporary _, w =>
    if w.files.temporaries ['t'] = none then
      some (.ok ['t'], ⟨w.files.stage ['t'] (some []),
        w.steps ++ [(w.files.source, w.files.source)]⟩)
    else none
  | .fillTemporary temporary content, w => some (.ok (), ⟨w.files.stage temporary (some content),
      w.steps ++ [(w.files.source, w.files.source)]⟩)
  | .replace temporary path, w =>
    match w.files.source.lstat (posixParts path), w.files.temporaries temporary with
    | .ok (.file _ _ _), some content =>
      let source := w.files.source.put (posixParts path) (.file content 9 true)
      some (.ok (), ⟨⟨source, Function.update w.files.temporaries temporary none⟩,
        w.steps ++ [(w.files.source, source)]⟩)
    | _, _ => none
  | .discardTemporary temporary, w => some (.ok (), ⟨w.files.stage temporary none,
      w.steps ++ [(w.files.source, w.files.source)]⟩)
  | .link _ _, _ | .remoteWrite _ _ _, _ | .remoteUpload _ _, _ => none

theorem letterAnswer_sound {o : ApplySig.Op} {w u : World} {a : ApplySig.Ans o}
    (h : letterAnswer o w = some (a, u)) : Step letterReview o a w u := by
  refine ⟨w.files, [], rfl, fun _ => rfl, ?_⟩
  rw [List.append_nil]
  cases o with
  | collect o | quiet call | fillTemporary temporary content | discardTemporary temporary =>
    obtain ⟨rfl, rfl⟩ := Prod.mk.inj (Option.some.inj h)
    exact ⟨rfl, rfl⟩
  | statSource path =>
    dsimp only [letterAnswer] at h
    split at h
    · rename_i node hnode
      obtain ⟨rfl, rfl⟩ := Prod.mk.inj (Option.some.inj h)
      exact ⟨⟨rfl, node, .inl hnode, rfl, rfl⟩, rfl⟩
    · cases h
  | readSource path limit =>
    dsimp only [letterAnswer] at h
    split at h
    · rename_i content mtimeNs hnode
      obtain ⟨rfl, rfl⟩ := Prod.mk.inj (Option.some.inj h)
      exact ⟨⟨rfl, content, mtimeNs, .inl hnode, rfl⟩, rfl⟩
    · cases h
  | createTemporary path =>
    dsimp only [letterAnswer] at h
    split at h
    · rename_i fresh
      obtain ⟨rfl, rfl⟩ := Prod.mk.inj (Option.some.inj h)
      exact ⟨⟨fresh, rfl⟩, rfl⟩
    · cases h
  | replace temporary path =>
    dsimp only [letterAnswer] at h
    split at h
    · rename_i old mtimeNs readable content hold hcontent
      obtain ⟨rfl, rfl⟩ := Prod.mk.inj (Option.some.inj h)
      refine ⟨⟨content, _, hcontent, ⟨?_, 9, SourceTree.placed_put⟩, rfl⟩, rfl⟩
      intro size time hdirectory
      rw [hold] at hdirectory
      cases hdirectory
    · cases h
  | link _ _ | remoteWrite _ _ _ | remoteUpload _ _ => cases h

def letterFiles : Files := ⟨(sampleSurroundings [98]).source, fun _ => none⟩

/-- What is planned, by itself. -/
def letterBuilt : Option (Except PlanError (ScannedTree × List PlannedItem) × World) :=
  Conc.run letterAnswer
    ((buildPlan letterReview letterRun.maxArchiveBytes letterRun.baseline).interpret askCollect)
    ⟨letterFiles, []⟩

def letterPlanned : List PlannedItem := [⟨letterItem, some ⟨sampleDigest [98], 7⟩⟩]

/-- What is reported, behind the plan. -/
def letterApplied : Option (Except PlanError (List CollectionReportItem) × World) :=
  letterBuilt.bind fun built =>
    Conc.run letterAnswer (applyItems letterReview [resultEntry] letterPlanned) built.2

theorem letterPlan_revision : letterReview.planRevision letterPlan = letterRevision := by
  have hdigest : letterReview.fileDigest = digestWith letterPlan.encoded := rfl
  have hhead : letterPlan.encoded.head? = some 123 := by decide +kernel
  rw [Review.planRevision, hdigest]
  exact digestWith_self hhead

theorem letterBuilt_ok : ∃ tree w, letterBuilt = some (.ok (tree, letterPlanned), w) ∧
    tree.entries = [resultEntry] := by
  have hbuilt : letterBuilt.bind (fun ended => ended.1.toOption.map fun built =>
      (built.1.entries, built.2)) = some ([resultEntry], letterPlanned) := by decide +kernel
  obtain ⟨⟨r, w⟩, hrun, hr⟩ := Option.bind_eq_some_iff.mp hbuilt
  obtain ⟨⟨tree, planned⟩, hr, hview⟩ := Option.map_eq_some_iff.mp hr
  obtain ⟨hentries, rfl⟩ := Prod.mk.inj hview
  cases r with
  | error e => cases hr
  | ok built =>
    obtain rfl := Option.some.inj hr
    exact ⟨tree, w, hrun, hentries⟩

theorem letterApplied_ok : ∃ v, letterApplied =
    some (.ok [⟨['a'], .modified, .applied, "applied"⟩], v) := by
  have happlied : letterApplied.bind (fun ended => ended.1.toOption) =
      some [⟨['a'], .modified, .applied, "applied"⟩] := by decide +kernel
  obtain ⟨⟨r, v⟩, hrun, hr⟩ := Option.bind_eq_some_iff.mp happlied
  cases r with
  | error e => cases hr
  | ok reports =>
    obtain rfl := Option.some.inj hr
    exact ⟨v, hrun⟩

/-- The letter is written. -/
theorem apply_writes_reviewed_letter : ∃ (v : World) (report : CollectionReport),
    report.items = [⟨['a'], .modified, .applied, "applied"⟩] ∧
    (∀ reviewed, letterReview.planRevision reviewed = letterRevision ↔ reviewed = letterPlan) ∧
    Written letterReview letterItem v.steps := by
  obtain ⟨tree, w, hbuilt, hentries⟩ := letterBuilt_ok
  obtain ⟨v, happlied⟩ := letterApplied_ok
  have hplan : letterRun.plan letterReview letterPlanned = letterPlan := rfl
  have hallowed : letterPlan.applyAllowed := by decide
  have hrun : Conc.run letterAnswer (applyLocked letterReview letterRun letterRevision)
      ⟨letterFiles, []⟩ =
        some (.ok ⟨['r'], letterRevision, [⟨['a'], .modified, .applied, "applied"⟩]⟩, v) := by
    rw [letterApplied, hbuilt, Option.bind_some] at happlied
    rw [letterBuilt] at hbuilt
    rw [applyLocked, run_bind, hbuilt, Option.bind_some, onResult_ok]
    dsimp only
    rw [hplan, letterPlan_revision, if_neg (by decide), if_neg (not_not.mpr hallowed),
      run_bind, hentries, happlied]
    rfl
  obtain ⟨-, returned, -⟩ := apply_writes_reviewed (run_sound letterAnswer_sound hrun)
  obtain ⟨plan, hplan, unique, -, -, -, all⟩ := returned _ rfl
  have injective : Function.Injective letterReview.fileDigest := digestWith_injective _
  have same : ∀ reviewed, letterReview.planRevision reviewed = letterRevision →
      reviewed = plan := by
    intro reviewed hreviewed
    rcases unique reviewed hreviewed with same | ⟨hne, hdigest⟩
    · exact same
    · exact absurd (injective hdigest) hne
  obtain rfl := same letterPlan letterPlan_revision
  refine ⟨v, ⟨['r'], letterRevision, _⟩, rfl, ?_, ?_⟩
  · intro reviewed
    refine ⟨same reviewed, ?_⟩
    rintro rfl
    exact hplan
  cases all with
  | cons reported _ => exact (reported.applied rfl).2

end Termroom.Collect
