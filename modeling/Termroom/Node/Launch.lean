import Mathlib.Logic.Function.Basic
import Termroom.Conc.Exec
import Termroom.Conc.Run
import Termroom.RemoteRun.Reconcile

/-!
# The program of a Run is launched once

`NodeRemoteRunRuntime` (`node_remote_runs.py`) launches the program of a Remote Run by handing its
descriptors over to a tmux pane. A start takes many steps before that. Each may fail, and the agent
may be killed between any two and started again; its files are kept, what it had in memory is not.

A start that fails takes back its tmux session and nothing else. The file it leaves is `output.log`,
which is linked into place before the session is made: linking fails where the file is there
already, and nothing takes it away. The stop marker is looked at first, and stays as well.
-/

set_option autoImplicit false

namespace Termroom.Node.Launch

open Conc RemoteRun

/-! ## 1. Operations -/

/-- The files in `.termroom` that a start or a stop names. -/
inductive Leaf where
  | output
  | outputSeal
  | stop
  | prepareLog
  | gitAskpass
  | gitArgv
  | gitUrl
  | gitPath
  | gitBootstrap
  | workIdentity
  /-- `.{name}.tmp-{uuid}`. -/
  | temporary (uuid : Nat)
  deriving DecidableEq, Repr

/-- What `os.stat` says of a file. -/
structure LeafState where
  inode : Nat
  regular : Bool
  links : Nat
  owned : Bool
  mode : Nat
  size : Nat
  /-- `st_mtime_ns` and `st_ctime_ns`. -/
  times : Nat × Nat
  deriving DecidableEq, Repr

inductive LaunchError where
  /-- `NodeRemoteRunError`, or an exception of the handoff with a code of its own. -/
  | node (code : String)
  | fileNotFound
  | fileExists
  /-- Another `OSError`. -/
  | os
  | observe (e : ObserveError)
  | other
  deriving DecidableEq, Repr

def LaunchError.isOs : LaunchError → Bool
  | .fileNotFound | .fileExists | .os => true
  | .node _ | .observe _ | .other => false

structure TmuxResult where
  returncode : Int
  stdout : String
  deriving DecidableEq, Repr

inductive TmuxCommand where
  | hasSession
  | newSession
  | setOption (name value : String)
  | showOwner
  | sendKeys
  | killSession
  deriving DecidableEq, Repr

inductive Descriptor where
  | cwd
  | runRoot
  | metadata
  | work
  | command
  | output
  | gitArgv
  | gitPath
  | gitAskpass
  | gitHome
  | prepareLog
  | staging
  | channel
  deriving DecidableEq, Repr

inductive LaunchOp where
  /-- `_identity`. -/
  | identity
  /-- `_assert_layout` and `_layout_handles`, which may write `work.identity`. -/
  | layout
  /-- The parent of a leaf is opened. -/
  | openParent
  /-- It is opened, duplicated or sealed. -/
  | acquire (d : Descriptor)
  | uuid
  | now
  | stat (leaf : Leaf)
  | fstat (temporary : Nat)
  | create (temporary : Nat) (mode : Nat)
  /-- Written, flushed and synchronized. -/
  | write (temporary : Nat) (content : String)
  | chmod (temporary : Nat) (mode : Nat)
  | link (temporary : Nat) (leaf : Leaf)
  | replace (temporary : Nat) (leaf : Leaf)
  | unlink (temporary : Nat)
  | syncDirectory
  | tmux (command : TmuxCommand)
  /-- The descriptors are handed over to a pane, and the program is run there. -/
  | handoff
  | look (o : ObserveOp)
  /-- The record `cwd`, decoded and validated. -/
  | readCwd
  /-- The record `git-url`, decoded. -/
  | readGitUrl
  /-- `shutil.which("git")`, resolved. -/
  | git
  /-- The arguments of `build_public_git_clone_invocation`, encoded. -/
  | invocation (url git : String)
  | makeGitHome
  | makeStaging
  /-- Is the handle of `work.tmp` in memory? -/
  | hasStaging
  /-- The handle is dropped, and `work.tmp` removed if it is empty. -/
  | removeStaging
  /-- The text of `work.identity`. -/
  | identityText (state : String)
  /-- `_work_identity_states`. -/
  | identityState
  /-- A window `run` with the role and the id of the Run is listed. -/
  | runWindow
  deriving DecidableEq

abbrev LaunchOp.Ans : LaunchOp → Type
  | .uuid => Nat
  | .now => String
  | .stat _ | .fstat _ => Except LaunchError LeafState
  | .tmux _ | .handoff => Except LaunchError TmuxResult
  | .look o => o.Ans
  | .readCwd | .readGitUrl | .invocation _ _ | .identityText _ => Except LaunchError String
  | .git => Option String
  | .hasStaging => Bool
  | .identityState => Option LeafState
  | .runWindow => Except LaunchError Bool
  | _ => Except LaunchError Unit

abbrev LaunchSig : Sig := ⟨LaunchOp, LaunchOp.Ans⟩

abbrev LaunchProg := Prog LaunchSig LaunchError

def ask (o : LaunchOp) : LaunchProg o.Ans := @Prog.perform LaunchSig LaunchError o

/-- An operation whose exception goes through. -/
def must {α : Type} (p : LaunchProg (Except LaunchError α)) : LaunchProg α := do
  let r ← p
  .ofExcept r

/-- `if c: raise e`. -/
def refuse (c : Prop) [Decidable c] (e : LaunchError) : LaunchProg Unit :=
  if c then .raise e else pure ()

/-- What `_reconcile` and the tmux queries read. -/
def observing {α : Type} (p : ObserveProg α) : LaunchProg α := do
  let r ← (p.interpret fun o => (@Prog.perform LaunchSig ObserveError (.look o))).attempt
  match r with
  | .ok a => pure a
  | .error e => .raise (.observe e)

/-! ## 2. Private files -/

/-- `_private_leaf_state_at`. -/
def privateLeafStateAt (leaf : Leaf) (mode : Nat) : LaunchProg (Option LeafState) := do
  match ← ask (.stat leaf) with
  | .error .fileNotFound => pure none
  | .error e => .raise e
  | .ok info =>
    if ¬info.regular ∨ info.links ≠ 1 ∨ ¬info.owned ∨ info.mode ≠ mode then
      .raise (.node "metadata_invalid")
    else pure (some info)

/-- `_atomic_private_write_at`: the file is written under a name of its own. -/
def writeTemporary (temporary : Nat) (leaf : Leaf) (content : String) (mode : Nat)
    (expected : Option LeafState) : LaunchProg Unit := do
  must (ask (.create temporary mode))
  must (ask (.write temporary content))
  must (ask (.chmod temporary mode))
  let current ← privateLeafStateAt leaf mode
  refuse (current ≠ expected) (.node "metadata_invalid")

/-- It is put under the name it is for, which is free unless another file is expected there. -/
def publishTemporary (temporary : Nat) (leaf : Leaf) (expected : Option LeafState) :
    LaunchProg Unit := do
  if expected = none then
    match ← ask (.link temporary leaf) with
    | .error .fileExists => .raise (.node "metadata_invalid")
    | .error e => .raise e
    | .ok () => must (ask (.unlink temporary))
  else must (ask (.replace temporary leaf))

/-- It is the file that is found there. -/
def confirmPublished (temporary : Nat) (leaf : Leaf) (mode : Nat) : LaunchProg LeafState := do
  let published ← privateLeafStateAt leaf mode
  let written ← must (ask (.fstat temporary))
  match published with
  | none => .raise (.node "metadata_invalid")
  | some state =>
    if state.inode ≠ written.inode then .raise (.node "metadata_invalid")
    else
      must (ask .syncDirectory)
      pure state

/-- The `finally` of `_atomic_private_write_at`. -/
def removeTemporary (temporary : Nat) : LaunchProg Unit := do
  match ← ask (.unlink temporary) with
  | .error .fileNotFound | .ok () => pure ()
  | .error e => .raise e

/-- `_atomic_private_write_at`, as its callers call it: with the state they expect. -/
def atomicPrivateWriteAt (leaf : Leaf) (content : String) (mode : Nat)
    (expected : Option LeafState) : LaunchProg LeafState := do
  let temporary ← ask .uuid
  Prog.finally_
    (do
      writeTemporary temporary leaf content mode expected
      publishTemporary temporary leaf expected
      confirmPublished temporary leaf mode)
    (removeTemporary temporary)

/-- `_private_state_for_path`. -/
def privateStateForPath (leaf : Leaf) (mode : Nat) : LaunchProg (Option LeafState) := do
  must (ask .openParent)
  privateLeafStateAt leaf mode

/-- `_write_private`, of a file that is not expected to be there. -/
def writePrivate (leaf : Leaf) (content : String) (mode : Nat) : LaunchProg Unit := do
  must (ask .openParent)
  let _ ← atomicPrivateWriteAt leaf content mode none
  pure ()

/-- The state of `work.identity` that is known, or else the one that is found. -/
def identityState : LaunchProg (Option LeafState) := do
  match ← ask .identityState with
  | some known => pure (some known)
  | none => privateLeafStateAt .workIdentity 0o600

/-- `_write_work_identity`. -/
def writeWorkIdentity (state : String) : LaunchProg Unit := do
  let expected ← identityState
  let value ← must (ask (.identityText state))
  let _ ← atomicPrivateWriteAt .workIdentity value 0o600 expected
  pure ()

/-- `_stop_requested`. -/
def stopRequested : LaunchProg Bool := do
  let state ← privateStateForPath .stop 0o600
  pure state.isSome

/-- `_publish_stop`. -/
def publishStop : LaunchProg Unit := do
  if ← stopRequested then pure ()
  else
    let value ← ask .now
    writePrivate .stop value 0o600

/-! ## 3. A start -/

/-- The runtime, and the Run it is asked for. -/
structure Runtime where
  runId : String
  /-- `_descriptor_handoff` is there. -/
  descriptorHandoff : Bool
  /-- `REMOTE_GIT_BOOTSTRAP_SCRIPT`. -/
  bootstrapScript : String
  deriving DecidableEq, Repr

inductive Mode where
  | run
  | git
  deriving DecidableEq, Repr

/-- `_tmux`, with `check=True`. -/
def tmux (command : TmuxCommand) : LaunchProg Unit := do
  let result ← must (ask (.tmux command))
  refuse (result.returncode ≠ 0) (.node "tmux_failed")

/-- `_session_owned`. -/
def sessionOwned (n : Runtime) : LaunchProg Bool := do
  let result ← must (ask (.tmux .showOwner))
  pure (result.returncode = 0 && result.stdout.trimAscii.toString = n.runId)

/-- `_path_exists(paths[name]) for name in …`, up to the first that is there. -/
def anyExists : List RecordFile → LaunchProg Bool
  | [] => pure false
  | file :: rest => do
    if ← observing (RemoteRun.look (reading (.exists_ file))) then pure true else anyExists rest

/-- `_tmux_status`. -/
def tmuxStatus : LaunchProg TmuxStatus := observing (RemoteRun.look (reading .tmuxStatus))

/-- A session of the Run's name is the Run's. -/
def assertOwned (n : Runtime) (status : TmuxStatus) : LaunchProg Unit := do
  if status.exists_ then
    let owned ← sessionOwned n
    refuse (owned = false) (.node "session_identity_conflict")
  else pure ()

/-- `_existing_start`, from the status of tmux on. -/
def existingSession (n : Runtime) (lifecycle : Bool) : LaunchProg (Option ReconcileResult) := do
  let status ← tmuxStatus
  if !lifecycle && !status.exists_ then pure none
  else
    assertOwned n status
    let observation ← observing nodeReconcile
    pure (some observation)

/-- `_existing_start`. -/
def existingStart (n : Runtime) : LaunchProg (Option ReconcileResult) := do
  if ← stopRequested then existingSession n true
  else
    let lifecycle ← anyExists [.state, .prepareResult, .completion]
    existingSession n lifecycle

/-- `_handoff_tmux`. -/
def handoffTmux (n : Runtime) : LaunchProg TmuxResult := do
  refuse (n.descriptorHandoff = false) (.node "capability_unsupported")
  match ← ask .handoff with
  | .ok result => pure result
  | .error (.node code) => .raise (.node code)
  | .error _ => .raise (.node "tmux_handoff_failed")

/-- The session is marked as the Run's. -/
def markSession (n : Runtime) : LaunchProg Unit := do
  tmux (.setOption "@termroom_remote_run_id" n.runId)
  tmux (.setOption "remain-on-exit" "on")
  let _ ← must (ask (.tmux (.setOption "remain-on-exit-format" "")))
  let _ ← must (ask (.tmux (.setOption "window-size" "latest")))
  tmux (.setOption "role" "remote_run")
  tmux (.setOption "managed_run" n.runId)

/-- What is done once the session is made, and undone with it. -/
def launchPane (n : Runtime) : LaunchProg Unit := do
  markSession n
  let result ← handoffTmux n
  refuse (result.returncode ≠ 0) (.node "tmux_failed")

/-- The descriptors that only a Git Run has. -/
def gitDescriptors : LaunchProg Unit := do
  let known ← ask .hasStaging
  refuse (known = false) (.node "layout_invalid")
  must (ask (.acquire .gitArgv))
  must (ask (.acquire .gitPath))
  must (ask (.acquire .gitAskpass))
  must (ask (.acquire .gitHome))
  writePrivate .prepareLog "" 0o600
  must (ask (.acquire .prepareLog))
  must (ask (.acquire .staging))

/-- `_start_tmux`, up to `output.log`. -/
def prepareLaunch (mode : Mode) : LaunchProg Unit := do
  must (ask .layout)
  let session ← must (ask (.tmux .hasSession))
  refuse (session.returncode = 0) (.node "run_exists")
  must (ask .layout)
  let _ ← must (ask .readCwd)
  must (ask (.acquire (if mode = .run then .cwd else .runRoot)))
  must (ask (.acquire .runRoot))
  must (ask (.acquire .metadata))
  must (ask (.acquire .work))
  must (ask (.acquire .command))
  let sealed ← privateLeafStateAt .outputSeal 0o600
  refuse (sealed.isSome = true) (.node "metadata_invalid")

def modeDescriptors (mode : Mode) : LaunchProg Unit :=
  if mode = .git then gitDescriptors else pure ()

/-- From there on, up to the session. -/
def openLaunch (mode : Mode) : LaunchProg Unit := do
  must (ask (.acquire .output))
  modeDescriptors mode
  must (ask (.acquire .channel))
  tmux .newSession

/-- `_start_tmux`. -/
def startTmux (n : Runtime) (mode : Mode) : LaunchProg Unit := do
  prepareLaunch mode
  writePrivate .output "" 0o600
  openLaunch mode
  match ← ((launchPane n).attempt : LaunchProg (Except LaunchError Unit)) with
  | .ok () => pure ()
  | .error e =>
    let _ ← must (ask (.tmux .killSession))
    .raise e

inductive StartReply where
  | replayed (observation : ReconcileResult)
  | preparing
  | cloning (url : String)
  deriving DecidableEq

/-- `start`. -/
def start (n : Runtime) : LaunchProg StartReply := do
  must (ask .identity)
  must (ask .layout)
  match ← existingStart n with
  | some observation => pure (.replayed observation)
  | none =>
    startTmux n .run
    pure .preparing

/-- `_discard_git_work_staging`. -/
def discardGitWorkStaging : LaunchProg Unit := do
  if !(← ask .hasStaging) then pure ()
  else
    let removed ← (do
      must (ask .removeStaging)
      writeWorkIdentity "stable" : LaunchProg Unit).attempt
    match removed with
    | .ok () => pure ()
    | .error e => if e.isOs then pure () else .raise e

/-- The files of a Git Run. -/
def writeGitFiles (n : Runtime) (url git argv : String) : LaunchProg Unit := do
  must (ask .makeGitHome)
  writePrivate .gitAskpass "#!/bin/sh\nexit 1\n" 0o700
  writePrivate .gitArgv argv 0o600
  writePrivate .gitUrl (url ++ "\n") 0o600
  writePrivate .gitPath (git ++ "\n") 0o600
  writePrivate .gitBootstrap n.bootstrapScript 0o700
  must (ask .makeStaging)

/-- The `try` of `start_git`. -/
def launchGit (n : Runtime) : LaunchProg Unit := do
  must (ask .layout)
  writeWorkIdentity "git-pending"
  startTmux n .git

/-- `start_git`; the URL is as `validate_public_https_git_url` leaves it. -/
def startGit (n : Runtime) (url : Except LaunchError String) : LaunchProg StartReply := do
  must (ask .identity)
  let url ← .ofExcept url
  must (ask .layout)
  match ← existingStart n with
  | some observation =>
    let stored ← must (ask .readGitUrl)
    refuse (stored ≠ url) (.node "idempotency_conflict")
    pure (.replayed observation)
  | none =>
    match ← ask .git with
    | none => .raise (.node "git_missing")
    | some git =>
      let argv ← must (ask (.invocation url git))
      writeGitFiles n url git argv
      match ← ((launchGit n).attempt : LaunchProg (Except LaunchError Unit)) with
      | .ok () => pure (.cloning url)
      | .error e =>
        discardGitWorkStaging
        .raise e

/-! ## 4. The other requests -/

/-- `_kill_session`. -/
def killSession (n : Runtime) : LaunchProg Bool := do
  let result ← must (ask (.tmux .hasSession))
  if result.returncode ≠ 0 then pure false
  else if ← sessionOwned n then
    let _ ← must (ask (.tmux .killSession))
    pure true
  else pure false

/-- `_owned_run_window`. -/
def ownedRunWindow (n : Runtime) : LaunchProg Bool := do
  if !(← sessionOwned n) then pure false else must (ask .runWindow)

structure StopReply where
  /-- `sent` or `killed`. -/
  done : Bool
  completed : Bool
  /-- The status of tmux, where the layout is missing. -/
  layoutMissing : Option TmuxStatus := none
  deriving DecidableEq, Repr

/-- `_valid_completion` of `completion.json`. -/
def completed : LaunchProg Bool := do
  let record ← observing (readJsonRecord .completion)
  pure (completionRecord record).isSome

/-- `interrupt`. -/
def interrupt (n : Runtime) : LaunchProg StopReply := do
  must (ask .identity)
  match ← ask .layout with
  | .error .fileNotFound =>
    let status ← tmuxStatus
    pure ⟨false, false, some status⟩
  | .error e => .raise e
  | .ok () =>
    if ← completed then pure ⟨false, true, none⟩
    else
      publishStop
      if ← ownedRunWindow n then
        let result ← must (ask (.tmux .sendKeys))
        pure ⟨result.returncode = 0, false, none⟩
      else pure ⟨false, false, none⟩

/-- `kill`. -/
def kill (n : Runtime) : LaunchProg StopReply := do
  must (ask .identity)
  match ← ask .layout with
  | .error .fileNotFound =>
    let status ← tmuxStatus
    let killed ← if status.exists_ then killSession n else pure false
    pure ⟨killed, false, some status⟩
  | .error e => .raise e
  | .ok () =>
    if ← completed then pure ⟨false, true, none⟩
    else
      publishStop
      let killed ← killSession n
      if ← completed then pure ⟨false, true, none⟩ else pure ⟨killed, false, none⟩

inductive ObserveReply where
  /-- `_unavailable_layout`; the code is none where the layout is missing. -/
  | unavailable (error : Option String) (status : TmuxStatus)
  | observed (result : ReconcileResult)
  deriving DecidableEq

/-- `observe`. -/
def observe : LaunchProg ObserveReply := do
  must (ask .identity)
  match ← ask .layout with
  | .error .fileNotFound =>
    let status ← tmuxStatus
    pure (.unavailable none status)
  | .error (.node code) =>
    let status ← tmuxStatus
    pure (.unavailable (some code) status)
  | .error e => .raise e
  | .ok () =>
    let result ← observing nodeReconcile
    pure (.observed result)

inductive Request where
  | start
  | startGit (url : Except LaunchError String)
  | interrupt
  | kill
  | observe

/-- What a request runs, its reply left aside. -/
def Request.program (n : Runtime) : Request → LaunchProg Unit
  | .start => do let _ ← Launch.start n; pure ()
  | .startGit url => do let _ ← Launch.startGit n url; pure ()
  | .interrupt => do let _ ← Launch.interrupt n; pure ()
  | .kill => do let _ ← Launch.kill n; pure ()
  | .observe => do let _ ← Launch.observe; pure ()

/-! ## 5. Runs -/

/-- The root of a Run: which files are in `.termroom`, and how often a program was launched. -/
structure Root where
  present : Leaf → Bool
  handoffs : Nat

namespace Root

/-- A file is put under its name. -/
def publish (w : Root) (leaf : Leaf) : Root :=
  { w with present := Function.update w.present leaf true }

/-- Nothing happens to `output.log`, nor to the stop marker, and no program is launched. So it is
    whatever tmux and the scripts of a program do that was launched. -/
structure Aside (w v : Root) : Prop where
  output : v.present .output = w.present .output
  stop : v.present .stop = w.present .stop
  handoffs : v.handoffs = w.handoffs

end Root

/-- What an operation does. One that fails may have had its effect. -/
def LaunchOp.Does : (o : LaunchOp) → o.Ans → Root → Root → Prop
  | .stat leaf, .ok _, u, v => v = u ∧ u.present leaf = true
  | .stat leaf, .error .fileNotFound, u, v => v = u ∧ u.present leaf = false
  | .stat _, .error _, u, v => v = u
  | .link _ leaf, .ok (), u, v => u.present leaf = false ∧ v = u.publish leaf
  | .link _ leaf, .error _, u, v => v = u ∨ u.present leaf = false ∧ v = u.publish leaf
  | .replace _ leaf, _, u, v => v = u ∨ v = u.publish leaf
  | .handoff, _, u, v => Root.Aside { u with handoffs := u.handoffs + 1 } v
  | _, _, u, v => u.Aside v

inductive Act where
  /-- A request, under the lock of its Run, to its end or until the agent is killed. -/
  | request (r : Request)
  | aside

inductive Step (n : Runtime) (w : Root) : Act → Root → Prop
  | request {r : Request} {v : Root} (cut : Cut Root.Aside LaunchOp.Does (r.program n) w v) :
      Step n w (.request r) v
  | aside {v : Root} (h : w.Aside v) : Step n w .aside v

/-! ## 6. What counts of an operation -/

namespace Root

variable {u v w : Root}

/-- No program was launched twice, nor without its `output.log`. -/
structure Ok (w : Root) : Prop where
  once : w.handoffs ≤ 1
  logged : w.present .output = false → w.handoffs = 0

/-- A program may be launched now. -/
structure Ready (w : Root) : Prop where
  output : w.present .output = true
  unstopped : w.present .stop = false
  first : w.handoffs = 0

theorem Aside.refl (w : Root) : w.Aside w := ⟨rfl, rfl, rfl⟩

theorem Aside.ok (h : u.Aside v) (hu : u.Ok) : v.Ok := by
  refine ⟨?_, fun houtput => ?_⟩
  · rw [h.handoffs]
    exact hu.once
  · rw [h.handoffs]
    exact hu.logged (h.output.symm.trans houtput)

theorem Aside.unstopped (h : u.Aside v) (hu : u.present .stop = false) : v.present .stop = false :=
  h.stop.trans hu

theorem Aside.ready (h : u.Aside v) (hu : u.Ready) : v.Ready :=
  ⟨h.output.trans hu.output, h.unstopped hu.unstopped, h.handoffs.trans hu.first⟩

@[simp] theorem publish_handoffs (leaf : Leaf) : (w.publish leaf).handoffs = w.handoffs := rfl

@[simp] theorem publish_present (leaf other : Leaf) :
    (w.publish leaf).present other = if other = leaf then true else w.present other := by
  simp [publish, Function.update_apply]

theorem publish_aside {leaf : Leaf} (houtput : leaf ≠ .output) (hstop : leaf ≠ .stop) :
    w.Aside (w.publish leaf) :=
  ⟨by simp [houtput.symm], by simp [hstop.symm], rfl⟩

end Root

/-- An operation that neither launches a program nor touches the two files. -/
def LaunchOp.Quiet : LaunchOp → Prop
  | .link _ leaf | .replace _ leaf => leaf ≠ .output ∧ leaf ≠ .stop
  | .handoff => False
  | _ => True

section

variable {o : LaunchOp} {a : o.Ans} {u v w : Root}

theorem LaunchOp.Does.stat {leaf : Leaf} {a : Except LaunchError LeafState}
    (h : (LaunchOp.stat leaf).Does a u v) : v = u := by
  cases a with
  | ok info => exact h.1
  | error e =>
    cases e with
    | fileNotFound => exact h.1
    | _ => exact h

theorem LaunchOp.Does.link {leaf : Leaf} {temporary : Nat} {a : Except LaunchError Unit}
    (h : (LaunchOp.link temporary leaf).Does a u v) :
    v = u ∨ u.present leaf = false ∧ v = u.publish leaf := by
  cases a with
  | ok _ => exact .inr h
  | error e => exact h

theorem LaunchOp.Quiet.aside (quiet : o.Quiet) (h : o.Does a u v) : u.Aside v := by
  cases o with
  | stat leaf =>
    rw [LaunchOp.Does.stat h]
    exact .refl u
  | link temporary leaf =>
    rcases LaunchOp.Does.link h with rfl | ⟨-, rfl⟩
    · exact .refl _
    · exact Root.publish_aside quiet.1 quiet.2
  | replace temporary leaf =>
    rcases h with rfl | rfl
    · exact .refl _
    · exact Root.publish_aside quiet.1 quiet.2
  | handoff => exact quiet.elim
  | _ => exact h

/-- Only the handoff launches a program, and no operation takes a file away that counts. -/
theorem LaunchOp.Does.other (h : o.Does a u v) (ho : o ≠ .handoff) :
    v.handoffs = u.handoffs ∧ (u.present .output = true → v.present .output = true) ∧
      (u.present .stop = true → v.present .stop = true) := by
  have aside {x : Root} (h : u.Aside x) : x.handoffs = u.handoffs ∧
      (u.present .output = true → x.present .output = true) ∧
      (u.present .stop = true → x.present .stop = true) :=
    ⟨h.handoffs, h.output.trans, h.stop.trans⟩
  have publish (leaf : Leaf) : (u.publish leaf).handoffs = u.handoffs ∧
      (u.present .output = true → (u.publish leaf).present .output = true) ∧
      (u.present .stop = true → (u.publish leaf).present .stop = true) := by
    refine ⟨rfl, fun h => ?_, fun h => ?_⟩ <;> simp [h]
  cases o with
  | stat leaf =>
    rw [LaunchOp.Does.stat h]
    exact aside (.refl u)
  | link temporary leaf =>
    rcases LaunchOp.Does.link h with rfl | ⟨-, rfl⟩
    · exact aside (.refl _)
    · exact publish leaf
  | replace temporary leaf =>
    rcases h with rfl | rfl
    · exact aside (.refl _)
    · exact publish leaf
  | handoff => exact absurd rfl ho
  | _ => exact aside h

end

/-- A program is launched while the Run is ready, if at all. -/
def contract : Contract LaunchSig Root where
  inv := Root.Ok
  rely := Root.Aside
  step := LaunchOp.Does
  ok := fun o _ u _ => o = .handoff → u.Ready

section

variable {o : LaunchOp} {a : o.Ans} {u v w x : Root} {α : Type} {p : LaunchProg α}

theorem Root.Ok.step (hu : u.Ok) (h : o.Does a u v) (ok : o = .handoff → u.Ready) : v.Ok := by
  by_cases ho : o = .handoff
  · have ready := ok ho
    subst ho
    have aside : Root.Aside { u with handoffs := u.handoffs + 1 } v := h
    have output : v.present .output = true := aside.output.trans ready.output
    have handoffs : v.handoffs = 1 :=
      aside.handoffs.trans (congrArg (· + 1) ready.first)
    refine ⟨Nat.le_of_eq handoffs, fun hnone => ?_⟩
    rw [output] at hnone
    cases hnone
  · obtain ⟨hhandoffs, houtput, -⟩ := h.other ho
    refine ⟨hhandoffs ▸ hu.once, fun hnone => hhandoffs.trans (hu.logged ?_)⟩
    by_contra hthere
    rw [houtput (by simpa using hthere)] at hnone
    cases hnone

/-- Where the marker is, a request launches nothing. -/
theorem stopped_step (stopped : u.present .stop = true) (h : o.Does a u v)
    (ok : o = .handoff → u.Ready) : v.present .stop = true ∧ v.handoffs = u.handoffs := by
  have ho : o ≠ .handoff := by
    intro ho
    rw [(ok ho).unstopped] at stopped
    cases stopped
  obtain ⟨hhandoffs, -, hstop⟩ := h.other ho
  exact ⟨hstop stopped, hhandoffs⟩

theorem quiet_wp {F : Root → Prop} (aside : ∀ u v, Root.Aside u v → F u → F v)
    (quiet : p.All LaunchOp.Quiet) (hw : F w) : p.wp contract (fun _ v => F v) w := by
  refine Prog.wp_mono (fun _ _ h => h.2) (Prog.wp_of_uses aside ?_ quiet hw)
  intro o a u v ho hu _ hstep
  refine ⟨fun heq => ?_, aside u v (ho.aside hstep) hu⟩
  subst heq
  exact ho.elim

theorem any_wp (quiet : p.All LaunchOp.Quiet) : p.wp contract (fun _ _ => True) w :=
  quiet_wp (fun _ _ _ => id) quiet trivial

/-! ## 7. What the programs do besides -/

theorem All.must {P : LaunchOp → Prop} {q : LaunchProg (Except LaunchError α)} (h : q.All P) :
    (Launch.must q).All P := Prog.All.bind h fun _ => .ofExcept

theorem All.ask {P : LaunchOp → Prop} (h : P o) : (ask o).All P := ⟨h, fun _ => trivial⟩

theorem All.observing {q : ObserveProg α} : (Launch.observing q).All LaunchOp.Quiet := by
  refine .bind (.attempt ?_) fun r => ?_
  · exact Prog.All.interpret (P := fun _ => True) (by
      induction q with
      | ret a => trivial
      | raise e => trivial
      | op o k ih => exact ⟨trivial, ih⟩) fun o _ => ⟨trivial, fun _ => trivial⟩
  · cases r with
    | ok a => exact .pure
    | error e => exact .raise

theorem All.ite {c : Prop} [Decidable c] {P : LaunchOp → Prop} {p q : LaunchProg α}
    (hp : p.All P) (hq : q.All P) : (if c then p else q).All P := by
  split
  · exact hp
  · exact hq

theorem privateLeafStateAt_all {leaf : Leaf} {mode : Nat} :
    (privateLeafStateAt leaf mode).All LaunchOp.Quiet := by
  refine .bind (All.ask trivial) fun r => ?_
  cases r with
  | error e => cases e <;> first | exact .pure | exact .raise
  | ok info => exact All.ite .raise .pure

theorem refuse_all {c : Prop} [Decidable c] {e : LaunchError} {P : LaunchOp → Prop} :
    (refuse c e).All P := All.ite .raise .pure

theorem writeTemporary_all {temporary : Nat} {leaf : Leaf} {content : String} {mode : Nat}
    {expected : Option LeafState} :
    (writeTemporary temporary leaf content mode expected).All LaunchOp.Quiet :=
  .bind (All.must (All.ask trivial)) fun _ => .bind (All.must (All.ask trivial)) fun _ =>
    .bind (All.must (All.ask trivial)) fun _ => .bind privateLeafStateAt_all fun _ => refuse_all

theorem confirmPublished_all {temporary : Nat} {leaf : Leaf} {mode : Nat} :
    (confirmPublished temporary leaf mode).All LaunchOp.Quiet := by
  refine .bind privateLeafStateAt_all fun published => ?_
  refine .bind (All.must (All.ask trivial)) fun written => ?_
  cases published with
  | none => exact .raise
  | some state => exact All.ite .raise (.bind (All.must (All.ask trivial)) fun _ => .pure)

theorem removeTemporary_all {temporary : Nat} :
    (removeTemporary temporary).All LaunchOp.Quiet := by
  refine .bind (All.ask trivial) fun r => ?_
  cases r with
  | ok _ => exact .pure
  | error e => cases e <;> first | exact .pure | exact .raise

section

variable {P : LaunchOp → Prop} {leaf : Leaf} (quiet : ∀ o, LaunchOp.Quiet o → P o)
  (link : ∀ temporary, P (.link temporary leaf))
include quiet link

theorem publishTemporary_all {temporary : Nat} {expected : Option LeafState}
    (replace : expected ≠ none → P (.replace temporary leaf)) :
    (publishTemporary temporary leaf expected).All P := by
  unfold publishTemporary
  split
  · refine .bind (All.ask (link temporary)) fun r => ?_
    cases r with
    | ok _ => exact All.must (All.ask (quiet _ trivial))
    | error e => cases e <;> exact .raise
  · rename_i hexpected
    exact All.must (All.ask (replace hexpected))

theorem atomicPrivateWriteAt_all {content : String} {mode : Nat} {expected : Option LeafState}
    (replace : ∀ temporary, expected ≠ none → P (.replace temporary leaf)) :
    (atomicPrivateWriteAt leaf content mode expected).All P := by
  refine .bind (All.ask (quiet _ trivial)) fun temporary => .finally_ ?_ ?_
  · exact .bind (writeTemporary_all.mono quiet) fun _ =>
      .bind (publishTemporary_all quiet link (replace temporary)) fun _ =>
        confirmPublished_all.mono quiet
  · exact removeTemporary_all.mono quiet

theorem writePrivate_all {content : String} {mode : Nat} :
    (writePrivate leaf content mode).All P :=
  .bind (All.must (All.ask (quiet _ trivial))) fun _ =>
    .bind (atomicPrivateWriteAt_all quiet link fun _ h => absurd rfl h) fun _ => .pure

end

theorem privateStateForPath_all {leaf : Leaf} {mode : Nat} :
    (privateStateForPath leaf mode).All LaunchOp.Quiet :=
  .bind (All.must (All.ask trivial)) fun _ => privateLeafStateAt_all

theorem writePrivate_quiet {leaf : Leaf} {content : String} {mode : Nat} (output : leaf ≠ .output)
    (stop : leaf ≠ .stop) : (writePrivate leaf content mode).All LaunchOp.Quiet :=
  writePrivate_all (fun _ => id) fun _ => ⟨output, stop⟩

theorem writeWorkIdentity_all {state : String} :
    (writeWorkIdentity state).All LaunchOp.Quiet := by
  refine .bind (.bind (All.ask trivial) fun known => ?_) fun expected => ?_
  · cases known with
    | some known => exact .pure
    | none => exact privateLeafStateAt_all
  refine .bind (All.must (All.ask trivial)) fun value => .bind ?_ fun _ => .pure
  have others : Leaf.workIdentity ≠ .output ∧ Leaf.workIdentity ≠ .stop := by decide
  exact atomicPrivateWriteAt_all (fun _ => id) (fun _ => others) fun _ _ => others

theorem stopRequested_all : stopRequested.All LaunchOp.Quiet :=
  .bind privateStateForPath_all fun _ => .pure

theorem tmux_all {command : TmuxCommand} : (tmux command).All LaunchOp.Quiet :=
  .bind (All.must (All.ask trivial)) fun _ => refuse_all

theorem sessionOwned_all {n : Runtime} : (sessionOwned n).All LaunchOp.Quiet :=
  .bind (All.must (All.ask trivial)) fun _ => .pure

theorem anyExists_all {files : List RecordFile} : (anyExists files).All LaunchOp.Quiet := by
  induction files with
  | nil => exact .pure
  | cons file rest ih => exact .bind All.observing fun _ => All.ite .pure ih

theorem assertOwned_all {n : Runtime} {status : TmuxStatus} :
    (assertOwned n status).All LaunchOp.Quiet :=
  All.ite (.bind sessionOwned_all fun _ => refuse_all) .pure

theorem existingSession_all {n : Runtime} {lifecycle : Bool} :
    (existingSession n lifecycle).All LaunchOp.Quiet := by
  refine .bind All.observing fun status => All.ite .pure (.bind assertOwned_all fun _ => ?_)
  exact .bind All.observing fun _ => .pure

theorem prepareLaunch_all {mode : Mode} : (prepareLaunch mode).All LaunchOp.Quiet := by
  refine .bind (All.must (All.ask trivial)) fun _ => ?_
  refine .bind (All.must (All.ask trivial)) fun _ => .bind refuse_all fun _ => ?_
  refine .bind (All.must (All.ask trivial)) fun _ => ?_
  refine .bind (All.must (All.ask trivial)) fun _ => ?_
  refine .bind (All.must (All.ask trivial)) fun _ => ?_
  refine .bind (All.must (All.ask trivial)) fun _ => ?_
  refine .bind (All.must (All.ask trivial)) fun _ => ?_
  refine .bind (All.must (All.ask trivial)) fun _ => ?_
  refine .bind (All.must (All.ask trivial)) fun _ => ?_
  exact .bind privateLeafStateAt_all fun _ => refuse_all

theorem gitDescriptors_all : gitDescriptors.All LaunchOp.Quiet := by
  refine .bind (All.ask trivial) fun _ => .bind refuse_all fun _ => ?_
  refine .bind (All.must (All.ask trivial)) fun _ => ?_
  refine .bind (All.must (All.ask trivial)) fun _ => ?_
  refine .bind (All.must (All.ask trivial)) fun _ => ?_
  refine .bind (All.must (All.ask trivial)) fun _ => ?_
  refine .bind (writePrivate_quiet (by decide) (by decide)) fun _ => ?_
  exact .bind (All.must (All.ask trivial)) fun _ => All.must (All.ask trivial)

theorem openLaunch_all {mode : Mode} : (openLaunch mode).All LaunchOp.Quiet := by
  refine .bind (All.must (All.ask trivial)) fun _ => .bind ?_ fun _ => ?_
  · exact All.ite gitDescriptors_all .pure
  · exact .bind (All.must (All.ask trivial)) fun _ => tmux_all

theorem markSession_all {n : Runtime} : (markSession n).All LaunchOp.Quiet := by
  refine .bind tmux_all fun _ => .bind tmux_all fun _ => ?_
  refine .bind (All.must (All.ask trivial)) fun _ => ?_
  refine .bind (All.must (All.ask trivial)) fun _ => ?_
  exact .bind tmux_all fun _ => tmux_all

theorem writeGitFiles_all {n : Runtime} {url git argv : String} :
    (writeGitFiles n url git argv).All LaunchOp.Quiet := by
  refine .bind (All.must (All.ask trivial)) fun _ => ?_
  refine .bind (writePrivate_quiet (by decide) (by decide)) fun _ => ?_
  refine .bind (writePrivate_quiet (by decide) (by decide)) fun _ => ?_
  refine .bind (writePrivate_quiet (by decide) (by decide)) fun _ => ?_
  refine .bind (writePrivate_quiet (by decide) (by decide)) fun _ => ?_
  refine .bind (writePrivate_quiet (by decide) (by decide)) fun _ => ?_
  exact All.must (All.ask trivial)

theorem discardGitWorkStaging_all : discardGitWorkStaging.All LaunchOp.Quiet := by
  refine .bind (All.ask trivial) fun known => All.ite .pure (.bind (.attempt ?_) fun removed => ?_)
  · exact .bind (All.must (All.ask trivial)) fun _ => writeWorkIdentity_all
  · cases removed with
    | ok _ => exact .pure
    | error e => exact All.ite .pure .raise

/-! ## 8. A start launches at most one program -/

theorem privateLeafStateAt_wp {leaf : Leaf} {mode : Nat} :
    (privateLeafStateAt leaf mode).wp contract
      (fun r v => r = .ok none → v.present leaf = false) w := by
  unfold privateLeafStateAt
  rw [Prog.wp_bind]
  intro u _ _ a v hstep
  refine ⟨?_, ?_⟩
  · intro ho
    cases ho
  cases a with
  | ok info =>
    simp only [Prog.wp_ret, onResult_ok]
    split
    · intro h
      cases h
    · intro h
      cases h
  | error e =>
    cases e with
    | fileNotFound =>
      obtain ⟨rfl, habsent⟩ := hstep
      exact fun _ => habsent
    | _ =>
      intro h
      cases h

theorem stopRequested_wp :
    stopRequested.wp contract (fun r v => r = .ok false → v.present .stop = false) w := by
  unfold stopRequested privateStateForPath
  refine Prog.wp_seq (R := fun r v => r = .ok none → v.present .stop = false) ?_ ?_ ?_
  · refine Prog.wp_seq (any_wp (All.must (All.ask trivial))) ?_ fun _ _ _ => ?_
    · intro e v _ h
      cases h
    · exact privateLeafStateAt_wp
  · intro e v _ h
    cases h
  · intro state v hstate h
    cases state with
    | none => exact hstate rfl
    | some state => cases h

theorem uses_seq {β : Type} {P : LaunchOp → Prop} {f : α → LaunchProg β}
    {R : Except LaunchError β → Prop} (first : p.All P) (error : ∀ e, R (.error e))
    (rest : ∀ a, (f a).Uses P R) : (p >>= f).Uses P R := by
  rw [Prog.uses_bind]
  refine Prog.uses_mono (fun _ => id) (fun r _ => ?_) first
  cases r with
  | ok a => exact rest a
  | error e => exact error e

/-- What shows that a start took place is answered with what became of it. -/
theorem existingSession_some {n : Runtime} :
    (existingSession n true).Uses LaunchOp.Quiet fun r => r ≠ .ok none := by
  refine uses_seq All.observing (fun e => by simp) fun status => ?_
  refine uses_seq assertOwned_all (fun e => by simp) fun _ => ?_
  exact uses_seq All.observing (fun e => by simp) fun _ => by simp

/-- A start goes on only where there is no marker. -/
theorem existingStart_wp {n : Runtime} :
    (existingStart n).wp contract (fun r v => r = .ok none → v.present .stop = false) w := by
  unfold existingStart
  refine Prog.wp_seq stopRequested_wp ?_ fun stopped v hstopped => ?_
  · intro e v _ h
    cases h
  · cases stopped with
    | true =>
      have ends := Prog.wp_of_uses (c := contract) (F := fun _ => True) (w := v)
        (fun _ _ _ => id) (fun o _ _ _ ho _ _ _ => ⟨fun heq => ?_, trivial⟩)
        (existingSession_some (n := n)) trivial
      · exact Prog.wp_mono (fun r v h hr => absurd hr h.1) ends
      · subst heq
        exact ho.elim
    | false =>
      refine Prog.wp_mono (fun _ _ h _ => h) (quiet_wp (fun _ _ h => h.unstopped) ?_ (hstopped rfl))
      exact .bind anyExists_all fun _ => existingSession_all

theorem publishOutput_wp {temporary : Nat} (unstopped : w.present .stop = false) :
    (publishTemporary temporary .output none).wp contract (fun r v => r = .ok () → v.Ready) w := by
  unfold publishTemporary
  rw [if_pos rfl, Prog.wp_bind]
  intro u hu hi a v hstep
  refine ⟨?_, ?_⟩
  · intro ho
    cases ho
  cases a with
  | error e =>
    simp only [Prog.wp_ret, onResult_ok]
    cases e <;> intro h <;> cases h
  | ok _ =>
    obtain ⟨habsent, rfl⟩ := hstep
    have ready : (u.publish .output).Ready :=
      ⟨by simp, by simpa using hu.unstopped unstopped, hi.logged habsent⟩
    have quiet : (must (ask (.unlink temporary))).All LaunchOp.Quiet := All.must (All.ask trivial)
    simp only [Prog.wp_ret, onResult_ok]
    exact Prog.wp_mono (fun _ _ h _ => h) (quiet_wp (fun _ _ h => h.ready) quiet ready)

/-- What the temporary file is removed after. -/
theorem finally_wp {q : LaunchProg Unit} (quiet : q.All LaunchOp.Quiet)
    (h : p.wp contract (fun r v => (∃ a, r = .ok a) → v.Ready) w) :
    (p.finally_ q).wp contract (fun r v => (∃ a, r = .ok a) → v.Ready) w := by
  unfold Prog.finally_
  rw [Prog.wp_bind, Prog.wp_attempt]
  refine Prog.wp_mono (fun r v hr => ?_) h
  rw [onResult_ok, Prog.wp_bind]
  refine Prog.wp_mono (fun r' x hx => ?_) (quiet_wp (F := fun x => (∃ a, r = .ok a) → x.Ready)
    (fun _ _ aside hu hok => aside.ready (hu hok)) quiet hr)
  cases r' with
  | ok _ =>
    rw [onResult_ok, Prog.wp_ofExcept]
    exact hx
  | error e =>
    intro h
    obtain ⟨a, ha⟩ := h
    cases ha

/-- `output.log` is put there once. -/
theorem writeOutput_wp (unstopped : w.present .stop = false) :
    (writePrivate .output "" 0o600).wp contract (fun r v => r = .ok () → v.Ready) w := by
  have keeps {α : Type} {p : LaunchProg α} {w : Root} (quiet : p.All LaunchOp.Quiet)
      (h : w.present .stop = false) : p.wp contract (fun _ v => v.present .stop = false) w :=
    quiet_wp (fun _ _ aside => aside.unstopped) quiet h
  unfold writePrivate atomicPrivateWriteAt
  refine Prog.wp_seq (keeps (All.must (All.ask trivial)) unstopped) ?_ fun _ v₁ h₁ => ?_
  · intro e v _ h
    cases h
  refine Prog.wp_seq (R := fun r v => (∃ a, r = .ok a) → v.Ready) ?_ ?_ ?_
  · refine Prog.wp_seq (keeps (All.ask trivial) h₁) ?_ fun temporary v₂ h₂ => ?_
    · intro e v _ h
      obtain ⟨a, ha⟩ := h
      cases ha
    apply finally_wp removeTemporary_all
    refine Prog.wp_seq (keeps writeTemporary_all h₂) ?_ fun _ v₃ h₃ => ?_
    · intro e v _ h
      obtain ⟨a, ha⟩ := h
      cases ha
    refine Prog.wp_seq (publishOutput_wp h₃) ?_ fun _ v₄ h₄ => ?_
    · intro e v _ h
      obtain ⟨a, ha⟩ := h
      cases ha
    exact Prog.wp_mono (fun _ _ h _ => h)
      (quiet_wp (fun _ _ aside => aside.ready) confirmPublished_all (h₄ rfl))
  · intro e v _ h
    cases h
  · intro _ v h _
    exact h ⟨_, rfl⟩

theorem launchPane_wp {n : Runtime} (ready : w.Ready) :
    (launchPane n).wp contract (fun _ _ => True) w := by
  unfold launchPane handoffTmux
  refine Prog.wp_seq (quiet_wp (fun _ _ aside => aside.ready) markSession_all ready)
    (fun _ _ _ => trivial) fun _ v₁ h₁ => ?_
  refine Prog.wp_seq (R := fun _ _ => True) ?_ (fun _ _ _ => trivial) fun _ _ _ => ?_
  · refine Prog.wp_seq (quiet_wp (fun _ _ aside => aside.ready) refuse_all h₁)
      (fun _ _ _ => trivial) fun _ v₂ h₂ => ?_
    -- the only place where a program is launched
    rw [Prog.wp_bind]
    intro u hu _ a v _
    refine ⟨fun _ => hu.ready h₂, ?_⟩
    cases a with
    | ok result => trivial
    | error e => cases e <;> trivial
  · exact any_wp refuse_all

theorem startTmux_wp {n : Runtime} {mode : Mode} (unstopped : w.present .stop = false) :
    (startTmux n mode).wp contract (fun _ _ => True) w := by
  unfold startTmux
  refine Prog.wp_seq (quiet_wp (fun _ _ aside => aside.unstopped) prepareLaunch_all unstopped)
    (fun _ _ _ => trivial) fun _ v₁ h₁ => ?_
  refine Prog.wp_seq (writeOutput_wp h₁) (fun _ _ _ => trivial) fun _ v₂ h₂ => ?_
  refine Prog.wp_seq (quiet_wp (fun _ _ aside => aside.ready) openLaunch_all (h₂ rfl))
    (fun _ _ _ => trivial) fun _ v₃ h₃ => ?_
  rw [Prog.wp_bind, Prog.wp_attempt]
  refine Prog.wp_mono (fun r v _ => ?_) (launchPane_wp h₃)
  cases r with
  | ok _ => trivial
  | error e => exact any_wp (.bind (All.must (All.ask trivial)) fun _ => .raise)

theorem start_wp {n : Runtime} : (start n).wp contract (fun _ _ => True) w := by
  unfold start
  refine Prog.wp_seq (any_wp (All.must (All.ask trivial))) (fun _ _ _ => trivial) fun _ _ _ => ?_
  refine Prog.wp_seq (any_wp (All.must (All.ask trivial))) (fun _ _ _ => trivial) fun _ _ _ => ?_
  refine Prog.wp_seq existingStart_wp (fun _ _ _ => trivial) fun existing v hnone => ?_
  cases existing with
  | some observation => trivial
  | none =>
    exact Prog.wp_seq (startTmux_wp (hnone rfl)) (fun _ _ _ => trivial) fun _ _ _ => trivial

theorem launchGit_wp {n : Runtime} (unstopped : w.present .stop = false) :
    (launchGit n).wp contract (fun _ _ => True) w := by
  unfold launchGit
  have keeps {α : Type} {p : LaunchProg α} {w : Root} (quiet : p.All LaunchOp.Quiet)
      (h : w.present .stop = false) : p.wp contract (fun _ v => v.present .stop = false) w :=
    quiet_wp (fun _ _ aside => aside.unstopped) quiet h
  refine Prog.wp_seq (keeps (All.must (All.ask trivial)) unstopped) (fun _ _ _ => trivial)
    fun _ v₁ h₁ => ?_
  refine Prog.wp_seq (keeps writeWorkIdentity_all h₁) (fun _ _ _ => trivial) fun _ v₂ h₂ => ?_
  exact startTmux_wp h₂

theorem startGit_wp {n : Runtime} {url : Except LaunchError String} :
    (startGit n url).wp contract (fun _ _ => True) w := by
  have keeps {α : Type} {p : LaunchProg α} {w : Root} (quiet : p.All LaunchOp.Quiet)
      (h : w.present .stop = false) : p.wp contract (fun _ v => v.present .stop = false) w :=
    quiet_wp (fun _ _ aside => aside.unstopped) quiet h
  unfold startGit
  refine Prog.wp_seq (any_wp (All.must (All.ask trivial))) (fun _ _ _ => trivial) fun _ _ _ => ?_
  refine Prog.wp_seq (any_wp .ofExcept) (fun _ _ _ => trivial) fun url _ _ => ?_
  refine Prog.wp_seq (any_wp (All.must (All.ask trivial))) (fun _ _ _ => trivial) fun _ _ _ => ?_
  refine Prog.wp_seq existingStart_wp (fun _ _ _ => trivial) fun existing v hnone => ?_
  cases existing with
  | some observation =>
    exact any_wp (.bind (All.must (All.ask trivial)) fun _ => .bind refuse_all fun _ => .pure)
  | none =>
    refine Prog.wp_seq (keeps (All.ask trivial) (hnone rfl)) (fun _ _ _ => trivial)
      fun git v₁ h₁ => ?_
    cases git with
    | none => trivial
    | some git =>
      refine Prog.wp_seq (keeps (All.must (All.ask trivial)) h₁) (fun _ _ _ => trivial)
        fun argv v₂ h₂ => ?_
      refine Prog.wp_seq (keeps writeGitFiles_all h₂) (fun _ _ _ => trivial) fun _ v₃ h₃ => ?_
      rw [Prog.wp_bind, Prog.wp_attempt]
      refine Prog.wp_mono (fun r v _ => ?_) (launchGit_wp h₃)
      cases r with
      | ok _ => trivial
      | error e => exact any_wp (.bind discardGitWorkStaging_all fun _ => .raise)

/-! ## 9. The other requests launch nothing -/

def LaunchOp.Launchless (o : LaunchOp) : Prop := o ≠ .handoff

theorem LaunchOp.Quiet.launchless (quiet : o.Quiet) : o.Launchless := by
  intro ho
  subst ho
  exact quiet.elim

theorem publishStop_all : publishStop.All LaunchOp.Launchless := by
  have quiet : ∀ o, LaunchOp.Quiet o → o.Launchless := fun _ => LaunchOp.Quiet.launchless
  refine .bind (stopRequested_all.mono quiet) fun _ => All.ite .pure ?_
  exact .bind (All.ask nofun) fun _ => writePrivate_all quiet fun _ => nofun

theorem completed_all : completed.All LaunchOp.Quiet := .bind All.observing fun _ => .pure

theorem killSession_all {n : Runtime} : (killSession n).All LaunchOp.Quiet := by
  refine .bind (All.must (All.ask trivial)) fun _ => All.ite .pure (.bind sessionOwned_all ?_)
  exact fun _ => All.ite (.bind (All.must (All.ask trivial)) fun _ => .pure) .pure

theorem ownedRunWindow_all {n : Runtime} : (ownedRunWindow n).All LaunchOp.Quiet :=
  .bind sessionOwned_all fun _ => All.ite .pure (All.must (All.ask trivial))

theorem interrupt_all {n : Runtime} : (interrupt n).All LaunchOp.Launchless := by
  have quiet : ∀ o, LaunchOp.Quiet o → o.Launchless := fun _ => LaunchOp.Quiet.launchless
  refine .bind (All.must (All.ask nofun)) fun _ => .bind (All.ask nofun) fun layout => ?_
  cases layout with
  | error e =>
    cases e <;> first
      | exact .raise
      | exact .bind (All.observing.mono quiet) fun _ => .pure
  | ok _ =>
    refine .bind (completed_all.mono quiet) fun _ => All.ite .pure (.bind publishStop_all ?_)
    refine fun _ => .bind (ownedRunWindow_all.mono quiet) fun _ => All.ite ?_ .pure
    exact .bind (All.must (All.ask nofun)) fun _ => .pure

theorem kill_all {n : Runtime} : (kill n).All LaunchOp.Launchless := by
  have quiet : ∀ o, LaunchOp.Quiet o → o.Launchless := fun _ => LaunchOp.Quiet.launchless
  refine .bind (All.must (All.ask nofun)) fun _ => .bind (All.ask nofun) fun layout => ?_
  cases layout with
  | error e =>
    cases e with
    | fileNotFound =>
      refine .bind (All.observing.mono quiet) fun status => ?_
      exact All.ite (.bind (killSession_all.mono quiet) fun _ => .pure) .pure
    | _ => exact .raise
  | ok _ =>
    refine .bind (completed_all.mono quiet) fun _ => All.ite .pure (.bind publishStop_all ?_)
    refine fun _ => .bind (killSession_all.mono quiet) fun _ => ?_
    exact .bind (completed_all.mono quiet) fun _ => All.ite .pure .pure

theorem observe_all : observe.All LaunchOp.Launchless := by
  have quiet : ∀ o, LaunchOp.Quiet o → o.Launchless := fun _ => LaunchOp.Quiet.launchless
  refine .bind (All.must (All.ask nofun)) fun _ => .bind (All.ask nofun) fun layout => ?_
  cases layout with
  | error e =>
    cases e <;> first
      | exact .raise
      | exact .bind (All.observing.mono quiet) fun _ => .pure
  | ok _ => exact .bind (All.observing.mono quiet) fun _ => .pure

theorem request_wp {n : Runtime} (r : Request) :
    (r.program n).wp contract (fun _ _ => True) w := by
  have launchless {q : LaunchProg Unit} (h : q.All LaunchOp.Launchless) :
      q.wp contract (fun _ _ => True) w :=
    Prog.wp_of_all (fun _ _ _ _ ho _ _ heq => absurd heq ho) h fun _ _ => trivial
  cases r with
  | start => exact Prog.wp_seq start_wp (fun _ _ _ => trivial) fun _ _ _ => trivial
  | startGit url => exact Prog.wp_seq startGit_wp (fun _ _ _ => trivial) fun _ _ _ => trivial
  | interrupt => exact launchless (.bind interrupt_all fun _ => .pure)
  | kill => exact launchless (.bind kill_all fun _ => .pure)
  | observe => exact launchless (.bind observe_all fun _ => .pure)

end

/-! ## 10. Runs of requests -/

section

variable {n : Runtime} {u v w : Root} {act : Act} {acts : List Act}

theorem Root.Ok.next (hu : u.Ok) (step : Step n u act v) : v.Ok := by
  cases step with
  | aside h => exact h.ok hu
  | request cut =>
    exact cut.keeps (c := contract) (fun _ _ h => h.ok) (fun _ => id)
      (fun _ _ _ _ hu h ok => hu.step h ok) (request_wp _) hu

theorem stopped_next (hu : u.Ok) (stopped : u.present .stop = true) (step : Step n u act v) :
    v.present .stop = true ∧ v.handoffs = u.handoffs := by
  cases step with
  | aside h => exact ⟨h.stop.trans stopped, h.handoffs⟩
  | request cut =>
    refine (cut.keeps (c := contract)
      (J := fun x => x.Ok ∧ x.present .stop = true ∧ x.handoffs = u.handoffs)
      (fun _ _ h hx => ⟨h.ok hx.1, h.stop.trans hx.2.1, h.handoffs.trans hx.2.2⟩)
      (fun _ hx => hx.1) (fun _ _ _ _ hx h ok => ?_) (request_wp _) ⟨hu, stopped, rfl⟩).2
    obtain ⟨hstop, hhandoffs⟩ := stopped_step hx.2.1 h ok
    exact ⟨hx.1.step h ok, hstop, hhandoffs.trans hx.2.2⟩

/-- Nothing was started yet. -/
def Root.Unstarted (w : Root) : Prop := w.present .output = false ∧ w.handoffs = 0

theorem ok_of_run (unstarted : w.Unstarted) (run : Run (Step n) w acts v) : v.Ok := by
  induction run with
  | refl => exact ⟨Nat.le_succ_of_le (Nat.le_of_eq unstarted.2), fun _ => unstarted.2⟩
  | snoc _ last ih => exact ih.next last

/-- **A Run's program is launched once**, whatever fails and whenever the agent is killed; and
    not any more where the stop marker was published. -/
theorem launched_once {before after : List Act} (unstarted : w.Unstarted)
    (first : Run (Step n) w before u) (then_ : Run (Step n) u after v) :
    v.handoffs ≤ 1 ∧ (u.present .stop = true → v.handoffs = u.handoffs) := by
  refine ⟨(ok_of_run unstarted (first.append then_)).once, fun stopped => ?_⟩
  have kept : v.Ok ∧ v.present .stop = true ∧ v.handoffs = u.handoffs := by
    induction then_ with
    | refl => exact ⟨ok_of_run unstarted first, stopped, rfl⟩
    | snoc _ last ih =>
      obtain ⟨hok, hstop, hhandoffs⟩ := ih
      obtain ⟨hstop', hhandoffs'⟩ := stopped_next hok hstop last
      exact ⟨hok.next last, hstop', hhandoffs'.trans hhandoffs⟩
  exact kept.2.2

end

/-! ## 11. A Run that is started, stopped and started again -/

/-- Nothing fails, and tmux never has a session. -/
def LaunchOp.succeed : (o : LaunchOp) → Root → o.Ans × Root
  | .stat leaf, w =>
    (if w.present leaf then .ok ⟨0, true, 1, true, 0o600, 0, (0, 0)⟩ else .error .fileNotFound, w)
  | .fstat _, w => (.ok ⟨0, true, 1, true, 0o600, 0, (0, 0)⟩, w)
  | .uuid, w => (0, w)
  | .now, w => ("2026-01-01T00:00:00+00:00\n", w)
  | .link _ leaf, w =>
    if w.present leaf then (.error .fileExists, w) else (.ok (), w.publish leaf)
  | .replace _ leaf, w => (.ok (), w.publish leaf)
  | .tmux command, w => (.ok ⟨if command = .hasSession ∨ command = .showOwner then 1 else 0, ""⟩, w)
  | .handoff, w => (.ok ⟨0, ""⟩, { w with handoffs := w.handoffs + 1 })
  | .look .tmuxStatus, w => (.ok .missing, w)
  | .look (.exists_ _), w => (.ok false, w)
  | .look .stopExists, w => (.ok (w.present .stop), w)
  | .look (.read _), w => (.missing, w)
  | .look .readRevision, w => (none, w)
  | .look .acquire, w | .look .release, w => ((), w)
  | .readCwd, w => (.ok ".", w)
  | .readGitUrl, w | .invocation _ _, w | .identityText _, w => (.ok "", w)
  | .git, w => (none, w)
  | .hasStaging, w => (false, w)
  | .identityState, w => (none, w)
  | .runWindow, w => (.ok false, w)
  | .identity, w | .layout, w | .openParent, w | .acquire _, w | .create _ _, w
  | .write _ _, w | .chmod _ _, w | .unlink _, w | .syncDirectory, w | .makeGitHome, w
  | .makeStaging, w | .removeStaging, w => (.ok (), w)

theorem LaunchOp.succeed_does (o : LaunchOp) (w : Root) :
    o.Does (o.succeed w).1 w (o.succeed w).2 := by
  cases o with
  | stat leaf =>
    cases h : w.present leaf <;> simp [LaunchOp.succeed, LaunchOp.Does, h]
  | link temporary leaf =>
    cases h : w.present leaf <;> simp [LaunchOp.succeed, LaunchOp.Does, h]
  | replace temporary leaf => exact .inr rfl
  | look o => cases o <;> exact .refl w
  | _ => exact .refl _

/-- A request to which nothing happens. -/
theorem step_of_run {n : Runtime} {r : Request} {w v : Root} {result : Except LaunchError Unit}
    (h : Conc.run (fun o w => some (LaunchOp.succeed o w)) (r.program n) w = some (result, v)) :
    Step n w (.request r) v := by
  refine .request (Exec.cut Root.Aside.refl (run_sound (fun {o w a u} ha => ?_) h))
  have does := o.succeed_does w
  rw [Option.some.inj ha] at does
  exact does

theorem launched_once_stopped :
    ∃ u v : Root, Run (Step ⟨"run", true, "#!/bin/bash\n"⟩) ⟨fun _ => false, 0⟩
        [.request .start, .request .interrupt] u ∧
      Run (Step ⟨"run", true, "#!/bin/bash\n"⟩) u [.request .start] v ∧
      u.present .stop = true ∧ u.handoffs = 1 ∧ v.handoffs ≤ 1 ∧
      (u.present .stop = true → v.handoffs = u.handoffs) := by
  let started : Root := { Root.publish ⟨fun _ => false, 0⟩ .output with handoffs := 1 }
  have first : Run (Step ⟨"run", true, "#!/bin/bash\n"⟩) ⟨fun _ => false, 0⟩
      [.request .start, .request .interrupt] (started.publish .stop) :=
    .snoc (.snoc .refl (step_of_run (show _ = some (.ok (), started) from rfl)))
      (step_of_run (show _ = some (.ok (), started.publish .stop) from rfl))
  have then_ : Run (Step ⟨"run", true, "#!/bin/bash\n"⟩) (started.publish .stop) [.request .start]
      (started.publish .stop) :=
    .snoc .refl (step_of_run (show _ = some (.ok (), started.publish .stop) from rfl))
  exact ⟨_, _, first, then_, by decide, by decide, launched_once ⟨rfl, rfl⟩ first then_⟩

end Termroom.Node.Launch
