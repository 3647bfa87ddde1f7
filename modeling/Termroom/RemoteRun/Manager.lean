import Termroom.RemoteRun.Ops

/-!
# `RemoteRunManager`

The methods of `remote_runs.py` that move a Remote Run through its lifecycle, each as the
program of atomic operations it performs. Everything between two operations of a method is
pure, and any other thread may act there.

`RunCall` is what can be started: a request of the browser, a round of the observer or of
the cleanup, the timer of a spool, a preparation task. The Core's loops over several Runs
(`cleanup_expired`, `_reconcile_startup`) appear with what they do to one Run.
-/

set_option autoImplicit false

namespace Termroom.RemoteRun

open Conc

def REMOTE_RUN_RETENTION : Nat := 24 * 60 * 60
def WAITING_UPLOAD_TTL : Nat := 60 * 60

/-- What `__init__` is given. -/
structure Config where
  nodeRuns : Bool
  maxArchiveBytes : Nat

/-- A row as `get` returns it, with its target. -/
structure Run extends RunRow where
  target : Target
  deriving DecidableEq, Repr

/-- `text[:limit]`. -/
def clip (limit : Nat) (text : String) : String := String.ofList (text.toList.take limit)

/-! ## 1. Reading -/

def get : RunProg Run := do
  match ← atomic .getRemoteRun with
  | none => .raise (.key "Unknown Remote Run")
  | some row =>
    match ← atomic .getComputer with
    | none =>
      .raise (.remoteRun "Remote Run target registration is missing" "target_missing")
    | some target => pure ⟨row, target⟩

def terminalExpiry : RunProg Nat := do
  let now ← atomic .utcNow
  pure (now + REMOTE_RUN_RETENTION)

def terminalExpiryFrom : Timestamp → RunProg Nat
  | .at ended => pure (ended + REMOTE_RUN_RETENTION)
  | .raw _ => terminalExpiry

def waitingUploadExpiry : RunProg Nat := do
  let now ← atomic .utcNow
  pure (now + WAITING_UPLOAD_TTL)

def cleanupPending (run : Run) : RunProg Bool :=
  match run.state.terminal, run.expiresAt with
  | true, some expires => do
    let now ← atomic .utcNow
    pure (expires ≤ now)
  | _, _ => pure false

/-- `with self.lock_for(run_id)`. -/
def withLock {α : Type} (p : RunProg α) : RunProg α := do
  atomic .acquire
  p.finally_ (atomic .release)

section

variable (cfg : Config)

/-- `_target_backend`: the one backend there is for the target, if there is. -/
def targetBackend (target : Target) : RunProg Unit :=
  if target.node && !cfg.nodeRuns then
    .raise (.remoteRun "Node Remote Run is unavailable" "capability_unsupported")
  else pure ()

/-! ## 2. Applying what a Remote reports -/

def applyRemoteStatus (run : Run) (remote : RemoteStatus) : RunProg Unit :=
  match remote.state with
  | none => pure ()
  | some state =>
    if run.state.terminal then pure ()
    else
      match state with
      | .preparing =>
        if remote.phase = some .cloning then do
          let _ ← atomic (.transition
            { expectedStates := [.preparing], state := some .preparing,
              phase := some (some .cloning), errorCode := some none, errorDetail := some none })
        else do
          let _ ← atomic (.transition
            { expectedStates := [.preparing], state := some .preparing,
              phase := some (remote.phase <|> run.phase) })
      | .running => do
        let now ← atomic .utcNow
        let _ ← atomic (.transition
          { expectedStates := [.preparing, .running], state := some .running,
            phase := some none,
            startedAt := some (some ((remote.startedAt <|> run.startedAt).getD (.at now))),
            errorCode := some none, errorDetail := some none,
            sourceRevision := some (remote.sourceRevision <|> run.sourceRevision) })
      | state => do
        let now ← atomic .utcNow
        let endedAt := remote.endedAt.getD (.at now)
        let expiresAt ← terminalExpiryFrom endedAt
        let _ ← atomic (.transition
          { expectedStates := [.preparing, .running], state := some state,
            phase := some none, startedAt := some (remote.startedAt <|> run.startedAt),
            endedAt := some (some endedAt), expiresAt := some (some expiresAt),
            exitCode := some remote.exitCode, errorCode := some remote.errorCode,
            errorDetail := some remote.errorDetail,
            sourceRevision := some (remote.sourceRevision <|> run.sourceRevision) })

/-- The status that stands for a Run whose files and pane are gone. -/
def lostLayout (startedAt : Option Timestamp) (endedAt : Nat) : RemoteStatus where
  state := some .lost
  phase := none
  startedAt := startedAt
  endedAt := some (.at endedAt)
  exitCode := none
  errorCode := some "layout_missing"
  errorDetail := some "Remote Run files and managed tmux pane are missing"
  sourceRevision := none
  layoutMissing := false
  layoutError := false
  tmuxRunning := false
  tmuxExists := false
  recordErrors := false

def applyRemoteObservation (run : Run) (remote : RemoteStatus) : RunProg Unit :=
  if remote.layoutMissing then
    if run.state = .running && !remote.tmuxRunning then do
      let now ← atomic .utcNow
      applyRemoteStatus run (lostLayout run.startedAt now)
    else pure ()
  else if !remote.layoutError then applyRemoteStatus run remote
  else pure ()

/-! ## 3. Preparation -/

def checkCancel (h : Nat) : RunProg Unit := do
  if ← atomic (.isCancelled h) then .raise .cancelled else pure ()

def superseded : RunError := .remoteRun "Remote Run preparation was superseded" "state_conflict"

def ensureTargetCapacity (target : Target) (required : Nat) : RunProg Unit := do
  targetBackend cfg target
  let available ← call .preflight
  match available with
  | none => pure ()
  | some available =>
    if available < required then
      .raise (.remoteRun "The Remote Run Source is larger than the target's available space"
        "target_disk_space")
    else pure ()

def writeSourceMetadata (target : Target) : RunProg Unit := do
  targetBackend cfg target
  call (.writeJson "source.json")

/-- `_write_manifest`. -/
def writeManifest (target : Target) : RunProg Unit := do
  targetBackend cfg target
  call (.writeJson "source-manifest.json")
  orRaise (atomic .writeCollectionManifest)

def writeZipManifest (target : Target) : RunProg Unit := do
  targetBackend cfg target
  call (.writeJson "source-manifest.json")

/-- The compare-and-set to phase `starting`, which every start is behind. -/
def startingTransition : Transition where
  expectedStates := [.preparing]
  state := some .preparing
  phase := some (some .starting)
  endedAt := some none
  expiresAt := some none
  errorCode := some (some "start_status_unknown")
  errorDetail := some none

def copyingTransition (totalBytes : Nat) : Transition where
  expectedStates := [.preparing]
  state := some .preparing
  phase := some (some .copying)
  sourceSize := some (some totalBytes)

def reconcileStartException (target : Target) (exc : RunError) : RunProg Unit := do
  let remote ← (do
    targetBackend cfg target
    call .reconcile : RunProg RemoteStatus).attempt
  let current ← get
  let unresolved (current : Run) : RunProg Unit := do
    let _ ← atomic (.transition
      { expectedStates := [.preparing], state := some .preparing,
        phase := some (some (current.phase.getD .starting)), endedAt := some none,
        expiresAt := some none, errorCode := some (some "start_status_unknown"),
        errorDetail := some (some (clip 1000 exc.message)) })
  match remote with
  | .error e => if e.isException then unresolved current else .raise e
  | .ok remote => do
    applyRemoteStatus current remote
    let current ← get
    if current.state ≠ .preparing ∨ remote.phase = some .cloning then pure ()
    else unresolved current

/-- `_start_with_reconciliation`; `starter` is one of the two start calls. -/
def startWithReconciliation (target : Target)
    (starter : RunProg (Except RunError Unit)) : RunProg Bool := do
  match ← starter with
  | .error e =>
    if e.startUnknown then do
      reconcileStartException cfg target e
      pure false
    else .raise e
  | .ok () => do
    let _ ← atomic (.transition
      { expectedStates := [.preparing], errorCode := some none, errorDetail := some none })
    pure true

def startMaterializedRun (target : Target) (h : Nat) : RunProg Unit := do
  checkCancel h
  if ← atomic (.transition startingTransition) then do
    let _ ← startWithReconciliation cfg target (do
      targetBackend cfg target
      tryCall .start)
  else do
    checkCancel h
    .raise superseded

def materializeWorkspace (target : Target) (h : Nat) : RunProg Unit := do
  checkCancel h
  let totalBytes ← call .snapshotSource
  ensureTargetCapacity cfg target totalBytes
  if ← atomic (.transition (copyingTransition totalBytes)) then do
    checkCancel h
    targetBackend cfg target
    call .materialize
    writeManifest cfg target
  else do
    checkCancel h
    .raise superseded

def prepareWorkspace (target : Target) (h : Nat) : RunProg Unit := do
  checkCancel h
  orRaise (atomic .requireWorkspace)
  targetBackend cfg target
  call .createLayout
  materializeWorkspace cfg target h
  checkCancel h
  call .commitSnapshot
  writeSourceMetadata cfg target
  startMaterializedRun cfg target h

def prepareGit (target : Target) (h : Nat) : RunProg Unit := do
  checkCancel h
  targetBackend cfg target
  let _ ← call .preflight
  call .createLayout
  call .gitInvocation
  writeSourceMetadata cfg target
  checkCancel h
  if ← atomic (.transition startingTransition) then do
    if ← startWithReconciliation cfg target (tryCall .startGit) then do
      let _ ← atomic (.transition
        { expectedStates := [.preparing], state := some .preparing,
          phase := some (some .cloning), errorCode := some none, errorDetail := some none })
    else pure ()
  else do
    checkCancel h
    .raise superseded

def prepareZip (target : Target) (h : Nat) : RunProg Unit := do
  checkCancel h
  if ← atomic .spoolReady then do
    let totalBytes ← orRaise (atomic .validateZip)
    ensureTargetCapacity cfg target totalBytes
    let _ ← atomic (.transition (copyingTransition totalBytes))
    targetBackend cfg target
    call .createLayout
    checkCancel h
    call .materialize
    checkCancel h
    call .commitSnapshot
    writeZipManifest cfg target
    writeSourceMetadata cfg target
    startMaterializedRun cfg target h
  else .raise (.remoteRun "Verified ZIP spool is missing" "zip_spool_missing")

def prepareSync (h : Nat) : RunProg Unit := do
  let run ← get
  if run.state = .preparing then
    match run.sourceKind with
    | .git => prepareGit cfg run.target h
    | .workspace => prepareWorkspace cfg run.target h
    | .archive => prepareZip cfg run.target h
  else pure ()

/-- `_record_preparation_failure`; `cancel` reads the event it is given. -/
def recordPreparationFailure (exc : RunError) (cancel : RunProg Bool) : RunProg Unit := do
  match ← atomic .getRemoteRun with
  | none => pure ()
  | some current =>
    if current.state = .preparing then do
      let isSet ← cancel
      let stopped := isSet || (exc.isRemoteRunError && exc.codeOr "" = "cancelled")
      let now ← atomic .utcNow
      let code := if stopped then "cancelled" else exc.codeOr "prepare_failed"
      let expiresAt ← terminalExpiry
      let _ ← atomic (.transition
        { expectedStates := [.preparing],
          state := some (if stopped then .stopped else .failed),
          phase := some none, endedAt := some (some (.at now)),
          expiresAt := some (some expiresAt), errorCode := some (some (clip 80 code)),
          errorDetail := some (if stopped then none else some (clip 1000 exc.message)) })
    else pure ()

/-- `_prepare`, as the task of handle `h`, up to its callback. -/
def prepare (h : Nat) : RunProg Unit :=
  (do
    match ← (prepareSync cfg h).attempt with
    | .ok () => pure ()
    | .error e =>
      if e.isException then recordPreparationFailure e (atomic (.isCancelled h))
      else .raise e : RunProg Unit).finally_ do
    atomic (.taskFinish h)
    atomic (.taskDoneCallback h)

/-! ## 4. The ZIP upload -/

/-- `upload_archive`. `safeName` is what `validate_zip_filename` makes of the filename. -/
def uploadArchive (safeName : Except RunError String) (contentLength : Option Nat) :
    RunProg Run := do
  let run ← get
  if run.sourceKind ≠ .archive then
    .raise (.remoteRun "This Remote Run does not use a ZIP Archive" "source_kind")
  else do
    let safeName ← .ofExcept safeName
    if safeName ≠ run.archiveName then
      .raise (.conflict "ZIP filename differs from the immutable Remote Run Source"
        "idempotency_conflict")
    else if cfg.maxArchiveBytes < contentLength.getD 0 then
      .raise (.value "ZIP upload exceeds the configured limit" (some "zip_upload_limit"))
    else if ← atomic (.transition
        { expectedStates := [.preparing], expectedPhase := some (some .waitingUpload),
          state := some .preparing, phase := some (some .uploading) }) then do
      let received ← (do
        let total ← orRaise (atomic .receiveUpload)
        orRaise (atomic .writeSidecar)
        if ← atomic (.transition
            { expectedStates := [.preparing], expectedPhase := some (some .uploading),
              state := some .preparing, phase := some (some .checking),
              expiresAt := some none, sourceSize := some (some total) }) then do
          atomic .scheduleSpoolExpiry
          let _ ← atomic .schedule
          get
        else .raise (.conflict "ZIP upload completion was superseded" "state_conflict") :
          RunProg Run).attempt
      match received with
      | .ok run => pure run
      | .error e =>
        if e.isException then do
          atomic .unlinkPart
          let expiresAt ← waitingUploadExpiry
          let _ ← atomic (.transition
            { expectedStates := [.preparing], expectedPhase := some (some .uploading),
              state := some .preparing, phase := some (some .waitingUpload),
              expiresAt := some (some expiresAt), sourceSize := some none })
          .raise e
        else .raise e
    else do
      let current ← get
      if current.phase ∈ [some .checking, some .copying, some .starting] then pure current
      else .raise (.conflict "ZIP upload is already active or finished" "upload_conflict")

/-! ## 5. Observing -/

/-- What `poll` and `reconcile` return; `remote` is absent when the target is offline or was
    not asked. -/
structure Observation where
  run : Run
  online : Bool
  cleanupPending : Bool
  remote : Option RemoteStatus
  deriving DecidableEq, Repr

/-- `_ensure_workspace_bridge`. -/
def ensureWorkspaceBridge (run : Run) : RunProg Unit :=
  match run.workspaceId with
  | some _ => orRaise (atomic .requireWorkspace)
  | none => do
    targetBackend cfg run.target
    call .ensureWorkspaceShell
    orRaise (atomic .openWorkspace)
    orRaise (atomic .connectWorkspace)

def offline (run : Run) : RunProg Observation := do
  let pending ← cleanupPending run
  pure ⟨run, false, pending, none⟩

/-- A running Run no longer needs its spool. -/
def dropRunningSpool (run : Run) : RunProg Unit :=
  if run.state = .running ∧ run.sourceKind = .archive then atomic .removeSpool else pure ()

def poll : RunProg Observation := withLock do
  let run ← get
  targetBackend cfg run.target
  match ← tryCall .poll with
  | .error e => if e.isSSHBackendError then offline run else .raise e
  | .ok remote => do
    applyRemoteObservation run remote
    let updated ← get
    let updated ← (
      if updated.state ∈ [.running, .finished, .stopped, .lost] ∧ !remote.layoutMissing ∧
          !remote.layoutError then do
        match ← (ensureWorkspaceBridge cfg updated).attempt with
        | .ok () => get
        | .error e =>
          if (e.isOSError || e.isRemoteRunError || e.isSSHBackendError) &&
              decide (updated.state ∉ [.running, .finished]) then get
          else .raise e
      else pure updated : RunProg Run)
    dropRunningSpool updated
    let pending ← cleanupPending updated
    pure ⟨updated, true, pending, some remote⟩

def reconcile : RunProg Observation := withLock do
  let run ← get
  if run.state.terminal then do
    let pending ← cleanupPending run
    pure ⟨run, true, pending, none⟩
  else do
    targetBackend cfg run.target
    match ← tryCall .reconcile with
    | .error e => if e.isSSHBackendError then offline run else .raise e
    | .ok remote => do
      applyRemoteObservation run remote
      let updated ← get
      dropRunningSpool updated
      let pending ← cleanupPending updated
      pure ⟨updated, true, pending, some remote⟩

/-! ## 6. Stopping -/

/-- What `stop` returns. -/
structure StopResult where
  stopped : Bool
  needsKill : Bool
  cancellationPending : Bool
  run : Run
  deriving DecidableEq, Repr

/-- `handle and not handle.task.done()`, after which a live handle is cancelled. -/
def cancelPreparation : RunProg Bool := do
  match ← atomic .getPreparation with
  | none => pure false
  | some h => do
    if ← atomic (.taskDone h) then pure false
    else do
      atomic (.setCancel h)
      pure true

def layoutUnverifiable : RunError :=
  .conflict "Remote Run files cannot be verified safely" "layout_unverifiable"

def sessionUnverifiable : RunError :=
  .conflict "Remote Run files are missing while its session cannot be verified"
    "layout_unverifiable"

/-- The end that `stop` and `kill` record themselves. -/
def endedTransition (now expiresAt : Nat) (errorCode : String) : Transition where
  expectedStates := [.preparing, .running]
  state := some .stopped
  phase := some none
  endedAt := some (some (.at now))
  expiresAt := some (some expiresAt)
  errorCode := some (some errorCode)

/-- The end that `stop` records for a Run that waits for its upload. -/
def unuploadedTransition (now expiresAt : Nat) : Transition where
  expectedStates := [.preparing]
  expectedPhase := some (some .waitingUpload)
  state := some .stopped
  phase := some none
  endedAt := some (some (.at now))
  expiresAt := some (some expiresAt)
  errorCode := some (some "cancelled")

def stopResult (stopped needsKill cancellationPending : Bool) : RunProg StopResult := do
  let run ← get
  pure ⟨stopped, needsKill, cancellationPending, run⟩

/-- The end of `stop` that asks the target once more. -/
def stopReconciled : RunProg StopResult := do
  let remote ← call .reconcile
  let current ← get
  applyRemoteStatus current remote
  let updated ← get
  pure ⟨updated.state.terminal, false, false, updated⟩

def stopLayoutMissing (run : Run) (now : Nat) (liveHandle : Bool) (result : StopStatus) :
    RunProg StopResult :=
  if result.sent then stopResult false true false
  else if run.state = .running && !result.tmuxRunning then do
    let current ← get
    applyRemoteStatus current (lostLayout run.startedAt now)
    stopResult true false false
  else if run.state ≠ .preparing || result.tmuxExists then .raise sessionUnverifiable
  else if liveHandle then stopResult false false true
  else do
    let expiresAt ← terminalExpiry
    let _ ← atomic (.transition (endedTransition now expiresAt "cancelled"))
    stopResult true false false

def stop : RunProg StopResult := do
  let run ← get
  if run.state.terminal then pure ⟨true, false, false, run⟩
  else do
    let now ← atomic .utcNow
    let _ ← atomic (.transition
      { expectedStates := [.preparing, .running], stopRequestedAt := some (some now) })
    let liveHandle ← cancelPreparation
    if run.state = .preparing ∧ run.phase = some .waitingUpload then do
      let expiresAt ← terminalExpiry
      let _ ← atomic (.transition (unuploadedTransition now expiresAt))
      stopResult true false false
    else do
      targetBackend cfg run.target
      match ← tryCall .interrupt with
      | .error (.layout _ _) =>
        if liveHandle && decide (run.state = .preparing) then stopResult false false true
        else .raise layoutUnverifiable
      | .error e => .raise e
      | .ok result =>
        if result.completed then stopReconciled
        else if result.layoutMissing then stopLayoutMissing run now liveHandle result
        else if result.sent then stopResult false true false
        else if liveHandle then stopResult false false true
        else stopReconciled

/-- The end of `kill` that records the end of the Run. -/
def killRecorded (now : Nat) (errorCode : String) : RunProg Run := do
  let expiresAt ← terminalExpiry
  let _ ← atomic (.transition (endedTransition now expiresAt errorCode))
  get

def killLayoutMissing (run : Run) (now : Nat) (liveHandle : Bool) (result : StopStatus) :
    RunProg Run :=
  if result.killed then killRecorded now "killed"
  else if run.state = .running && !result.tmuxRunning then do
    let current ← get
    applyRemoteStatus current (lostLayout run.startedAt now)
    get
  else if run.state ≠ .preparing || result.tmuxExists then .raise sessionUnverifiable
  else if liveHandle then get
  else killRecorded now "cancelled"

def kill : RunProg Run := do
  let run ← get
  if run.state.terminal then pure run
  else do
    let liveHandle ← cancelPreparation
    let now ← atomic .utcNow
    let _ ← atomic (.transition
      { expectedStates := [.preparing, .running],
        stopRequestedAt := some (some (run.stopRequestedAt.getD now)) })
    targetBackend cfg run.target
    match ← tryCall .kill with
    | .error (.layout _ _) =>
      if liveHandle && decide (run.state = .preparing) then get
      else .raise layoutUnverifiable
    | .error e => .raise e
    | .ok result =>
      if result.completed then do
        let remote ← call .reconcile
        let current ← get
        applyRemoteStatus current remote
        get
      else if result.layoutMissing then killLayoutMissing run now liveHandle result
      else killRecorded now "killed"

/-! ## 7. Deleting, cleanup and retry -/

/-- What `request_delete` returns: whether the Run was deleted. -/
def requestDelete : RunProg Bool := withLock do
  let run ← get
  if run.state.terminal then do
    let now ← atomic .utcNow
    if ← atomic (.expireNow now) then do
      let run ← get
      targetBackend cfg run.target
      match ← tryCall .deleteRoot with
      | .error e => if e.isOSError || e.isSSHBackendError then pure false else .raise e
      | .ok () => do
        atomic .removeSpool
        orRaise (atomic .deleteWorkspace)
        orRaise (atomic .deleteRow)
        pure true
    else .raise (.conflict "Remote Run is not deletable" "state_conflict")
  else .raise (.conflict "Stop the Remote Run before deleting it" "run_active")

def forget : RunProg Unit := withLock do
  let run ← get
  let pending ← cleanupPending run
  if run.state.terminal && pending then do
    atomic .removeSpool
    orRaise (atomic .deleteWorkspace)
    orRaise (atomic .deleteRow)
  else
    .raise (.conflict "Only a terminal cleanup-pending Run can be forgotten"
      "forget_not_allowed")

/-- `cleanup_expired`, as far as it concerns this Run: the number of times it removed it. -/
def cleanupExpired : RunProg Nat := do
  let now ← atomic .utcNow
  let abandoned ← (do
    if ← atomic (.listAbandoned now) then do
      if ← atomic (.transition
          { expectedStates := [.preparing], expectedPhase := some (some .waitingUpload),
            state := some .failed, phase := some none, endedAt := some (some (.at now)),
            expiresAt := some (some now), errorCode := some (some "upload_expired"),
            errorDetail := some (some "ZIP upload was not completed") }) then do
        atomic .removeSpool
        orRaise (atomic .deleteRow)
        pure 1
      else pure 0
    else pure 0 : RunProg Nat)
  if ← atomic (.listExpired now) then do
    match ← (requestDelete cfg).attempt with
    | .ok deleted => pure (if deleted then abandoned + 1 else abandoned)
    | .error e =>
      match e with
      | .key _ => pure abandoned
      | e =>
        if e.isOSError || e.isRemoteRunError || e.isSSHBackendError then pure abandoned
        else .raise e
  else pure abandoned

/-- The compare-and-set of `retry_preparation`. -/
def retryTransition : Transition where
  expectedStates := [.failed]
  state := some .preparing
  phase := some (some .checking)
  startedAt := some none
  stopRequestedAt := some none
  endedAt := some none
  expiresAt := some none
  exitCode := some none
  errorCode := some none
  errorDetail := some none

def retryPreparation : RunProg Run := do
  let run ← get
  if run.sourceKind ≠ .archive ∨ run.state ≠ .failed then
    .raise (.conflict "Only a failed ZIP preparation can be retried" "retry_not_allowed")
  else do
    if ← atomic .spoolReady then do
      targetBackend cfg run.target
      let deleted ← tryCall .deleteRoot
      match deleted with
      | .ok () | .error (.fileNotFound _) => do
        if ← atomic (.transition retryTransition) then do
          let _ ← atomic .schedule
          get
        else .raise (.conflict "Remote Run retry was superseded" "state_conflict")
      | .error e => .raise e
    else .raise (.remoteRun "Verified ZIP spool has expired" "zip_spool_expired")

/-- The `core_restarted` failure of `_reconcile_startup`. -/
def recordRestarted : RunProg Unit := do
  let current ← atomic .getRemoteRun
  if current.bind RunRow.errorCode = some "start_status_unknown" then pure ()
  else
    recordPreparationFailure
      (.remoteRun "Core restarted before Source preparation finished" "core_restarted")
      (pure false)

/-- `_reconcile_startup` where the Remote could not be asked: a Run without a layout was
    never started. -/
def recordRestartedUnlessLayout : RunProg Unit := do
  match ← atomic .getComputer with
  | none => pure ()
  | some target =>
    match ← (do
      targetBackend cfg target
      call .layoutExists : RunProg Bool).attempt with
    | .ok true => pure ()
    | .ok false => recordRestarted
    | .error e =>
      if e.isOSError || e.isRemoteRunError || e.isSSHBackendError then pure () else .raise e

/-- `_reconcile_startup`, as far as it concerns this Run, up to its `cleanup_expired`. -/
def reconcileStartup : RunProg Unit := do
  match ← atomic .getRemoteRun with
  | none => pure ()
  | some row =>
    if row.state = .running then do
      match ← (poll cfg).attempt with
      | .ok _ => pure ()
      | .error e => if e.isException then pure () else .raise e
    else if row.state = .preparing ∧ row.phase ≠ some .waitingUpload then do
      match ← (poll cfg).attempt with
      | .ok result =>
        if result.run.state ≠ .preparing then pure ()
        else if !result.online then recordRestartedUnlessLayout cfg
        else if result.remote.any fun remote => remote.tmuxExists || remote.recordErrors then
          pure ()
        else recordRestarted
      | .error e =>
        if e.isOSError || e.isRemoteRunError || e.isSSHBackendError then
          recordRestartedUnlessLayout cfg
        else .raise e
    else pure ()

end

/-! ## 8. The system -/

/-- What can be started on a Run. -/
inductive RunCall where
  | schedule
  | prepare (h : Nat)
  | uploadArchive (safeName : Except RunError String) (contentLength : Option Nat)
  | poll
  | reconcile
  | stop
  | kill
  | requestDelete
  | forget
  | cleanupExpired
  | retryPreparation
  | reconcileStartup
  /-- The timer of `_schedule_spool_expiry`. -/
  | spoolExpiry

abbrev RunCall.Ret : RunCall → Type
  | .schedule | .requestDelete => Bool
  | .prepare _ | .forget | .reconcileStartup | .spoolExpiry => Unit
  | .uploadArchive _ _ | .kill | .retryPreparation => Run
  | .poll | .reconcile => Observation
  | .stop => StopResult
  | .cleanupExpired => Nat

def RunCall.body (cfg : Config) : (l : RunCall) → RunProg l.Ret
  | .schedule => atomic .schedule
  | .prepare h => RemoteRun.prepare cfg h
  | .uploadArchive safeName contentLength => RemoteRun.uploadArchive cfg safeName contentLength
  | .poll => RemoteRun.poll cfg
  | .reconcile => RemoteRun.reconcile cfg
  | .stop => RemoteRun.stop cfg
  | .kill => RemoteRun.kill cfg
  | .requestDelete => RemoteRun.requestDelete cfg
  | .forget => RemoteRun.forget
  | .cleanupExpired => RemoteRun.cleanupExpired cfg
  | .retryPreparation => RemoteRun.retryPreparation cfg
  | .reconcileStartup => RemoteRun.reconcileStartup cfg
  | .spoolExpiry => atomic .removeSpool

/-- What starting a call does by itself: the task of a handle starts once, when `schedule`
    has made it. -/
def RunCall.start {R : Type} : RunCall → RunWorld R → RunWorld R → Prop
  | .prepare h, u, v => (∃ hd, u.handles[h]? = some hd ∧ hd.started = false) ∧
      v = u.modifyHandle h fun hd => { hd with started := true }
  | _, u, v => v = u

/-- The manager with calls in `allowed`, on one Run, against a Remote. -/
abbrev manager (cfg : Config) (B : Remote) (allowed : RunCall → Prop) :
    System RunSig RunError where
  World := RunWorld B.State
  Label := RunCall
  Ret := RunCall.Ret
  body := RunCall.body cfg
  step := fun t _ o a u v => o.step B t a u v
  start := fun _ l u v => allowed l ∧ l.start u v
  env := fun u v => ∃ r, B.env u.remote r ∧ v = { u with remote := r }

end Termroom.RemoteRun
