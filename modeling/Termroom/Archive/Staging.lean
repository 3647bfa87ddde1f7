import Termroom.Archive.Zip
import Termroom.Conc.Exec

/-!
# The two sinks of a staging tree

A Source is staged as a tree under the Run's root. Over SSH the Core makes each directory and
each file itself, by SFTP (`sshSink`); on a Node it requests them, and the Node's runtime makes
them (`nodeSink`). Both are driven through `_CancellableSink`.

A sink is a program over single SFTP requests and single requests to the Node. Each of them has
the effect that it has, or is lost, whatever has become of it: `interrupted` records that.
-/

set_option autoImplicit false

namespace Termroom.Archive

open Conc

/-! ## 1. Trees -/

/-- A path below the staging root, part by part. -/
abbrev Path := List Text

inductive StagedNode where
  | directory
  | file (content : Bytes) (executable : Bool)
  deriving DecidableEq, Repr

abbrev StagedTree := Finmap fun _ : Path => StagedNode

/-- How a request fails. -/
inductive RemoteError where
  /-- The Node refuses it. -/
  | node (message code : String)
  /-- An `OSError` for a missing path. -/
  | missing
  | os
  /-- Its answer did not arrive; whether this raises an `EOFError` or a `RuntimeError`. -/
  | lost (runtime : Bool)
  deriving DecidableEq, Repr

inductive StageError where
  /-- Python does not accept the call. -/
  | typeError (message : String)
  | archive (e : ArchiveSafetyError)
  | remoteRun (message code : String)
  | value (message : String)
  /-- `SourceFileChangedError`. -/
  | sourceChanged (path : Text)
  | ssh (message : String)
  | node (message code : String)
  | key (name : Text)
  | remote (e : RemoteError)
  deriving DecidableEq, Repr

namespace StagedTree

def lstat (tree : StagedTree) (path : Path) : Except RemoteError StagedNode :=
  match tree.lookup path with
  | some node => .ok node
  | none => .error .missing

def mkdir (tree : StagedTree) (path : Path) : Except RemoteError Unit × StagedTree :=
  if path ∈ tree then (.error .os, tree)
  else if tree.lookup path.dropLast = some .directory then (.ok (), tree.insert path .directory)
  else (.error .missing, tree)

/-- Opening a file for writing, which truncates it. -/
def openWrite (tree : StagedTree) (path : Path) : Except RemoteError Unit × StagedTree :=
  match tree.lookup path with
  | some .directory => (.error .os, tree)
  | some (.file _ executable) => (.ok (), tree.insert path (.file [] executable))
  | none =>
    if tree.lookup path.dropLast = some .directory then (.ok (), tree.insert path (.file [] false))
    else (.error .missing, tree)

def write (tree : StagedTree) (path : Path) (chunk : Bytes) :
    Except RemoteError Unit × StagedTree :=
  match tree.lookup path with
  | some (.file content executable) =>
    (.ok (), tree.insert path (.file (content ++ chunk) executable))
  | _ => (.error .os, tree)

def chmod (tree : StagedTree) (path : Path) (executable : Bool) :
    Except RemoteError Unit × StagedTree :=
  match tree.lookup path with
  | some (.file content _) => (.ok (), tree.insert path (.file content executable))
  | some .directory => (.ok (), tree)
  | none => (.error .missing, tree)

/-- The rename of a file; over SFTP it does not replace one. -/
def rename (tree : StagedTree) (source target : Path) : Except RemoteError Unit × StagedTree :=
  match tree.lookup source with
  | some (.file content executable) =>
    if target ∈ tree then (.error .os, tree)
    else (.ok (), (tree.erase source).insert target (.file content executable))
  | some .directory => (.error .os, tree)
  | none => (.error .missing, tree)

def remove (tree : StagedTree) (path : Path) : Except RemoteError Unit × StagedTree :=
  match tree.lookup path with
  | some (.file _ _) => (.ok (), tree.erase path)
  | some .directory => (.error .os, tree)
  | none => (.error .missing, tree)

end StagedTree

/-! ## 2. The Node's runtime -/

/-- `NodeRemoteRunUploadStream`. -/
structure UploadStream where
  temporary : Path
  target : Path
  expectedSize : Nat
  executable : Bool
  total : Nat
  deriving DecidableEq, Repr

/-- The staging tree and, on a Node, the registered streams. -/
structure Stage where
  tree : StagedTree
  streams : Text → Option UploadStream

section node

variable (isalpha : Char → Bool)

/-- `len(value) >= 2 and value[0].isalpha() and value[1] == ":"`. -/
def letterColon : Text → Bool
  | c :: ':' :: _ => isalpha c
  | _ => false

/-- `normalize_source_relative_path`, as the Node answers it. -/
def normalizeSourceRelativePath (value : Text) : Except RemoteError Text :=
  if value = [] then .error (.node "A relative Source path is required" "source_path")
  else if value.any isControl || value.contains '\\' then
    .error (.node "Source paths cannot contain control characters or backslashes" "source_path")
  else if value.head? = some '/' || letterColon isalpha value then
    .error (.node "Source paths must be relative" "source_path_absolute")
  else if (splitPath value).any fun part => part.isEmpty || part = ['.'] || part = ['.', '.'] then
    .error (.node "Source paths must already be normalized and cannot traverse parents"
      "source_path_traversal")
  else if (splitPath value).contains ".termroom".toList then
    .error (.node "The .termroom metadata directory cannot be a Source path"
      "source_path_metadata")
  else .ok value

/-- `_staging_target`. -/
def stagingTarget (tree : StagedTree) (relative : Text) : Except RemoteError Path :=
  let target := splitPath relative
  let label := if target.dropLast = [] then "Source staging" else "Source parent"
  if tree.lookup target.dropLast ≠ some .directory then
    .error (.node s!"{label} is unavailable" "path_invalid")
  else if target ∈ tree then
    .error (.node "Remote Run Source path already exists" "source_path_conflict")
  else .ok target

/-- `_send_error`: the Node answers an `OSError` with its code. -/
def answered {α : Type} (r : Except RemoteError α) : Except RemoteError α :=
  r.mapError fun
    | .missing => .node "[Errno 2] No such file or directory" "not_found"
    | .os => .node "[Errno 17] File exists" "already_exists"
    | e => e

/-- `snapshot_directory`. -/
def snapshotDirectory (path : Text) (stage : Stage) : Except RemoteError Unit × Stage :=
  match normalizeSourceRelativePath isalpha path >>= stagingTarget stage.tree with
  | .error e => (.error e, stage)
  | .ok target =>
    let (r, tree) := stage.tree.mkdir target
    (answered r, { stage with tree })

/-- `name` in the directory of `path`, as a dot file with this ending. -/
def besides (path : Path) (ending : Text) : Path :=
  path.dropLast ++ ['.' :: path.getLastD [] ++ ending]

/-- `snapshot_file_open`: the temporary file is created exclusively. -/
def snapshotFileOpen (path : Text) (executable : Bool) (expectedSize : Nat) (streamId : Text)
    (stage : Stage) : Except RemoteError Unit × Stage :=
  match normalizeSourceRelativePath isalpha path >>= stagingTarget stage.tree with
  | .error e => (.error e, stage)
  | .ok target =>
    let temporary := besides target (".upload-".toList ++ streamId)
    if temporary ∈ stage.tree then (answered (.error .os), stage)
    else (.ok (),
      ⟨stage.tree.insert temporary (.file [] false),
        Function.update stage.streams streamId
          (some ⟨temporary, target, expectedSize, executable, 0⟩)⟩)

/-- The stream is gone, and so is its temporary file. -/
def Stage.drop (stage : Stage) (streamId : Text) (s : UploadStream) : Stage :=
  ⟨(stage.tree.remove s.temporary).2, Function.update stage.streams streamId none⟩

/-- `feed`, for the frames of one chunk; nothing is answered. -/
def streamData (streamId : Text) (chunk : Bytes) (stage : Stage) : Stage :=
  match stage.streams streamId with
  | none => stage
  | some s =>
    let s' := { s with total := s.total + chunk.length }
    if s.expectedSize < s'.total then stage.drop streamId s
    else ⟨(stage.tree.write s.temporary chunk).2, Function.update stage.streams streamId (some s')⟩

/-- `close`: the size it answers. -/
def streamClose (streamId : Text) (stage : Stage) : Except RemoteError Nat × Stage :=
  match stage.streams streamId with
  | none => (.error (.node "Unknown Core stream" "stream_unknown"), stage)
  | some s =>
    if s.total ≠ s.expectedSize then
      (.error (.node "Remote Run Source file size changed during transfer" "source_file_changed"),
        stage.drop streamId s)
    else
      let (_, tree) := stage.tree.chmod s.temporary s.executable
      if s.target ∈ tree then
        (.error (.node "Remote Run Source path already exists" "source_path_conflict"),
          { stage with tree }.drop streamId s)
      else
        let (r, tree) := tree.rename s.temporary s.target
        (answered (r.map fun _ => s.total), ⟨tree, Function.update stage.streams streamId none⟩)

/-- `abort`. -/
def streamAbort (streamId : Text) (stage : Stage) : Stage :=
  match stage.streams streamId with
  | none => stage
  | some s => stage.drop streamId s

end node

/-! ## 3. Requests -/

/-- One request of the Core to an SFTP server or to a Node. -/
inductive RemoteOp where
  | lstat (path : Path)
  | mkdir (path : Path)
  | openWrite (path : Path)
  | write (path : Path) (chunk : Bytes)
  | close (path : Path)
  | chmod (path : Path) (executable : Bool)
  | rename (source target : Path)
  | remove (path : Path)
  | snapshotDirectory (path : Text)
  | snapshotFileOpen (path : Text) (executable : Bool) (expectedSize : Nat) (streamId : Text)
  | streamData (streamId : Text) (chunk : Bytes)
  | streamClose (streamId : Text)
  | streamAbort (streamId : Text)

abbrev RemoteOp.Value : RemoteOp → Type
  | .lstat _ => StagedNode
  | .streamClose _ => Nat
  | _ => Unit

/-- An SFTP request changes the tree only. -/
def Stage.onTree {α : Type} (stage : Stage) (r : Except RemoteError α × StagedTree) :
    Except RemoteError α × Stage := (r.1, { stage with tree := r.2 })

def RemoteOp.effect (isalpha : Char → Bool) :
    (o : RemoteOp) → Stage → Except RemoteError o.Value × Stage
  | .lstat path, s => (s.tree.lstat path, s)
  | .mkdir path, s => s.onTree (s.tree.mkdir path)
  | .openWrite path, s => s.onTree (s.tree.openWrite path)
  | .write path chunk, s => s.onTree (s.tree.write path chunk)
  | .close _, s => (.ok (), s)
  | .chmod path executable, s => s.onTree (s.tree.chmod path executable)
  | .rename source target, s => s.onTree (s.tree.rename source target)
  | .remove path, s => s.onTree (s.tree.remove path)
  | .snapshotDirectory path, s => Archive.snapshotDirectory isalpha path s
  | .snapshotFileOpen path executable expectedSize streamId, s =>
    Archive.snapshotFileOpen isalpha path executable expectedSize streamId s
  | .streamData streamId chunk, s => (.ok (), Archive.streamData streamId chunk s)
  | .streamClose streamId, s => Archive.streamClose streamId s
  | .streamAbort streamId, s => (.ok (), Archive.streamAbort streamId s)

inductive StageOp where
  /-- `cancel.is_set()`. -/
  | cancelled
  | uuid4
  | remote (o : RemoteOp)

abbrev StageOp.Ans : StageOp → Type
  | .cancelled => Bool
  | .uuid4 => Text
  | .remote o => Except RemoteError o.Value

abbrev StageSig : Sig := ⟨StageOp, StageOp.Ans⟩

abbrev StageProg (α : Type) := Prog StageSig StageError α

structure StageWorld where
  stage : Stage
  /-- A request was lost, or the preparation was cancelled. -/
  interrupted : Bool

/-- An identifier that `uuid4` may draw: it is part of no name in the tree. -/
def Unused (id : Text) (tree : StagedTree) : Prop :=
  ∀ path ∈ tree, ∀ name ∈ path, ¬id <:+: name

def StageOp.step (isalpha : Char → Bool) : (o : StageOp) → o.Ans → StageWorld → StageWorld → Prop
  | .cancelled, a, u, v => v = { u with interrupted := u.interrupted || a }
  | .uuid4, id, u, v => Unused id u.stage.tree ∧ v = u
  | .remote o, a, u, v =>
    (a = (o.effect isalpha u.stage).1 ∧ v = { u with stage := (o.effect isalpha u.stage).2 }) ∨
      (∃ runtime, a = .error (.lost runtime)) ∧ v.interrupted = true

/-! ## 4. The sinks -/

def ask (o : StageOp) : StageProg o.Ans := @Prog.perform StageSig StageError o

def call (o : RemoteOp) : StageProg o.Value := do
  let r ← ask (.remote o)
  .ofExcept (r.mapError .remote)

def failIf (p : Prop) [Decidable p] (e : StageError) : StageProg Unit :=
  if p then .raise e else pure ()

/-- A generator of chunks, as a sink is handed it: `check` runs before each and at the end. -/
structure ChunkSource where
  stream : ChunkStream
  check : StageProg Unit

/-- `for chunk in chunks`. -/
def forChunks {σ : Type} (check : StageProg Unit) (failure : Option ArchiveSafetyError)
    (body : Bytes → σ → StageProg σ) : List Bytes → σ → StageProg σ
  | [], s =>
    match failure with
    | some e => .raise (.archive e)
    | none => do
      check
      pure s
  | chunk :: rest, s => do
    check
    let s ← body chunk s
    forChunks check failure body rest s

def ChunkSource.forEach {σ : Type} (source : ChunkSource) (body : Bytes → σ → StageProg σ)
    (s : σ) : StageProg σ :=
  forChunks source.check source.stream.failure body source.stream.chunks s

/-- The methods of a sink. `make_directory` may be called without its keyword. -/
structure Sink where
  makeDirectory : Text → Option Bool → StageProg Unit
  writeFile : Text → ChunkSource → Bool → Nat → StageProg Unit

/-- `_validate_run_relative_path`. -/
def validateRunRelativePath (value : Text) : Except StageError Text :=
  if value = [] then .error (.value "Remote Run path is required")
  else if value.any fun c => c.toNat < 32 || c.toNat = 127 then
    .error (.value "Remote Run paths cannot contain control characters")
  else if value.contains '\\' || value.head? = some '/' then
    .error (.value "Remote Run paths must be relative POSIX paths")
  else if value = ['.'] then .ok value
  else if (splitPath value).any fun part => part.isEmpty || part = ['.'] || part = ['.', '.'] then
    .error (.value "Remote Run paths must already be normalized")
  else if (splitPath value).contains ".termroom".toList then
    .error (.value "Remote Run metadata is not exposed as a work file")
  else .ok value

/-- The attributes of a parent, which is created where it is missing. -/
def parentAttributes (path : Path) : StageProg StagedNode := do
  let r ← (call (.lstat path)).attempt
  match r with
  | .ok attr => pure attr
  | .error (.remote .missing) => do
    call (.mkdir path)
    call (.lstat path)
  | .error e => .raise e

def enterParents : Path → List Text → StageProg Path
  | current, [] => pure current
  | current, component :: rest => do
    let attr ← parentAttributes (current ++ [component])
    failIf (attr ≠ .directory) (.ssh "Snapshot parent is not a real directory")
    enterParents (current ++ [component]) rest

/-- `_new_remote_tree_path`, with `create_parents`. -/
def newRemoteTreePath (relativePath : Text) : StageProg Path := do
  let relative ← .ofExcept (validateRunRelativePath relativePath)
  failIf (relative = ['.']) (.value "A snapshot entry cannot replace its root")
  let rootAttr ← call (.lstat [])
  failIf (rootAttr ≠ .directory) (.ssh "Remote snapshot root is invalid")
  let parts := splitPath relative
  let parent ← enterParents [] parts.dropLast
  pure (parent ++ [parts.getLastD []])

/-- `_SSHRemoteRunSnapshotSink.make_directory`. -/
def sshMakeDirectory (relativePath : Text) (_executable : Option Bool) : StageProg Unit := do
  let path ← newRemoteTreePath relativePath
  let r ← (call (.lstat path)).attempt
  match r with
  | .ok attr =>
    failIf (attr ≠ .directory)
      (.ssh ("Snapshot directory conflicts with a file: " ++ String.ofList relativePath))
  | .error (.remote .missing) => call (.mkdir path)
  | .error e => .raise e

/-- The body of the `try` of `_SSHRemoteRunSnapshotSink.write_file`. -/
def sshTransfer (relativePath : Text) (temporary path : Path) (chunks : ChunkSource)
    (executable : Bool) (expectedSize : Nat) : StageProg Unit := do
  call (.openWrite temporary)
  let copy := chunks.forEach (fun chunk total => do
    failIf (expectedSize < total + chunk.length) (.sourceChanged relativePath)
    if chunk = [] then pure (total + chunk.length)
    else do
      call (.write temporary chunk)
      pure (total + chunk.length)) 0
  let total ← copy.finally_ (call (.close temporary))
  failIf (total ≠ expectedSize) (.sourceChanged relativePath)
  call (.chmod temporary executable)
  call (.rename temporary path)

/-- `_SSHRemoteRunSnapshotSink.write_file`. -/
def sshWriteFile (relativePath : Text) (chunks : ChunkSource) (executable : Bool)
    (expectedSize : Nat) : StageProg Unit := do
  let path ← newRemoteTreePath relativePath
  let id ← ask .uuid4
  let temporary := besides path (".termroom-".toList ++ id ++ ".part".toList)
  (sshTransfer relativePath temporary path chunks executable expectedSize).finally_ do
    let _ ← (call (.remove temporary)).attempt
    pure ()

def sshSink : Sink := ⟨sshMakeDirectory, sshWriteFile⟩

/-- `NodeRemoteRunSnapshotSink.make_directory`, whose keyword has no default. -/
def nodeMakeDirectory (relativePath : Text) : Option Bool → StageProg Unit
  | none => .raise (.typeError
      "make_directory() missing 1 required keyword-only argument: 'executable'")
  | some _ => call (.snapshotDirectory relativePath)

/-- `NodeRemoteRunSnapshotSink.write_file`. -/
def nodeWriteFile (relativePath : Text) (chunks : ChunkSource) (executable : Bool)
    (expectedSize : Nat) : StageProg Unit := do
  let id ← ask .uuid4
  call (.snapshotFileOpen relativePath executable expectedSize id)
  let transfer : StageProg Unit := do
    chunks.forEach (fun chunk _ => call (.streamData id chunk)) ()
    let size ← call (.streamClose id)
    failIf (size ≠ expectedSize)
      (.node "Node returned an invalid Source file size" "source_file_changed")
  let r ← transfer.attempt
  match r with
  | .ok () => pure ()
  | .error e => do
    let _ ← (call (.streamAbort id)).attempt
    .raise e

def nodeSink : Sink := ⟨nodeMakeDirectory, nodeWriteFile⟩

def checkCancel : StageProg Unit := do
  let cancelled ← ask .cancelled
  failIf cancelled (.remoteRun "Remote Run preparation was cancelled" "cancelled")

/-- `_CancellableSink`. -/
def cancellableSink (sink : Sink) : Sink where
  makeDirectory := fun path executable => do
    checkCancel
    sink.makeDirectory path executable
  writeFile := fun path chunks executable expectedSize => do
    checkCancel
    let checked : StageProg Unit := do
      chunks.check
      checkCancel
    sink.writeFile path { chunks with check := checked } executable expectedSize

/-- The backends that a Run can have as its target. -/
inductive Target where
  | ssh | node
  deriving DecidableEq, Repr

/-- The sink that the manager is given, and passes on. -/
def Target.sink : Target → Sink
  | .ssh => cancellableSink sshSink
  | .node => cancellableSink nodeSink

/-! ## 5. Undisturbed executions

What a program does to the stage when nothing interrupts it. -/

section undisturbed

variable {isalpha : Char → Bool} {α β : Type} {s : Stage}

abbrev stageContract (isalpha : Char → Bool) : Contract StageSig StageWorld :=
  alone (StageOp.step isalpha)

/-- Every execution from the stage `s` that nothing interrupts ends in `Q`. -/
def Undisturbed (isalpha : Char → Bool) (p : StageProg α) (Q : Except StageError α → Stage → Prop)
    (s : Stage) : Prop :=
  p.wp (stageContract isalpha) (fun r v => v.interrupted = false → Q r v.stage) ⟨s, false⟩

theorem StageOp.step.interrupted {o : StageOp} {a : o.Ans} {u v : StageWorld}
    (h : o.step isalpha a u v) (hu : u.interrupted = true) : v.interrupted = true := by
  cases o with
  | cancelled =>
    rw [show v = _ from h, hu]
    rfl
  | uuid4 =>
    rw [h.2]
    exact hu
  | remote o =>
    rcases h with ⟨-, rfl⟩ | ⟨-, hv⟩
    · exact hu
    · exact hv

theorem interrupted_wp (p : StageProg α) {w : StageWorld} (hw : w.interrupted = true) :
    p.wp (stageContract isalpha) (fun _ v => v.interrupted = true) w := by
  induction p generalizing w with
  | ret a => exact hw
  | raise e => exact hw
  | op o k ih =>
    intro u hu _ a v hs
    obtain rfl : w = u := hu
    exact ⟨trivial, ih a (StageOp.step.interrupted hs hw)⟩

namespace Undisturbed

variable {p : StageProg α} {Q Q' : Except StageError α → Stage → Prop}

theorem mono (hQ : ∀ r s, Q r s → Q' r s) (h : Undisturbed isalpha p Q s) :
    Undisturbed isalpha p Q' s :=
  Prog.wp_mono (fun _ _ h hv => hQ _ _ (h hv)) h

theorem pure {a : α} (h : Q (.ok a) s) : Undisturbed isalpha (Pure.pure a) Q s := fun _ => h

theorem raise {e : StageError} (h : Q (.error e) s) : Undisturbed isalpha (.raise e) Q s :=
  fun _ => h

theorem ofExcept {r : Except StageError α} (h : Q r s) :
    Undisturbed isalpha (.ofExcept r) Q s := by
  cases r with
  | ok a => exact pure h
  | error e => exact raise h

theorem bind {f : α → StageProg β} {R : Except StageError β → Stage → Prop}
    (h : Undisturbed isalpha p (fun r s' =>
      onResult (fun a => Undisturbed isalpha (f a) R s') (fun e => R (.error e) s') r) s) :
    Undisturbed isalpha (p >>= f) R s := by
  unfold Undisturbed
  rw [Prog.wp_bind]
  refine Prog.wp_mono (fun r v hv => ?_) h
  obtain ⟨s', interrupted⟩ := v
  cases r with
  | error e => exact hv
  | ok a =>
    cases interrupted with
    | false => exact hv rfl
    | true =>
      refine Prog.wp_mono (fun _ _ hv hq => ?_) (interrupted_wp (f a) rfl)
      exact nomatch hv.symm.trans hq

/-- **The rule of sequencing**: a specification of the first part, and the second part from
    where it may end. -/
theorem seq {f : α → StageProg β} {R : Except StageError β → Stage → Prop}
    (first : Undisturbed isalpha p Q s) (error : ∀ e s', Q (.error e) s' → R (.error e) s')
    (ok : ∀ a s', Q (.ok a) s' → Undisturbed isalpha (f a) R s') :
    Undisturbed isalpha (p >>= f) R s := by
  refine bind (first.mono fun r s' h => ?_)
  cases r with
  | ok a => exact ok a s' h
  | error e => exact error e s' h

theorem attempt {f : Except StageError α → StageProg β} {R : Except StageError β → Stage → Prop}
    (h : Undisturbed isalpha p (fun r s' => Undisturbed isalpha (f r) R s') s) :
    Undisturbed isalpha (p.attempt >>= f) R s := by
  refine bind ?_
  unfold Undisturbed
  rw [Prog.wp_attempt]
  exact h

theorem finally_ {q : StageProg Unit}
    (first : Undisturbed isalpha p (fun r s' => Undisturbed isalpha q
      (fun r' s'' => onResult (fun _ => Q r s'') (fun e => Q (.error e) s'') r') s') s) :
    Undisturbed isalpha (p.finally_ q) Q s := by
  refine attempt (first.mono fun r s' h => bind (h.mono fun r' s'' h' => ?_))
  cases r' with
  | ok _ => exact ofExcept h'
  | error e => exact h'

theorem cancelled {Q : Except StageError Bool → Stage → Prop} (h : Q (.ok false) s) :
    Undisturbed isalpha (ask .cancelled) Q s := by
  refine alone_perform fun a v hs hv => ?_
  obtain rfl : v = { stage := s, interrupted := false || a } := hs
  cases a with
  | false => exact h
  | true => exact nomatch hv

theorem uuid4 {Q : Except StageError Text → Stage → Prop}
    (h : ∀ id, Unused id s.tree → Q (.ok id) s) : Undisturbed isalpha (ask .uuid4) Q s := by
  refine alone_perform fun id v hs _ => ?_
  obtain ⟨hunused, rfl⟩ := hs
  exact h id hunused

theorem call {o : RemoteOp} {Q : Except StageError o.Value → Stage → Prop}
    (h : Q ((o.effect isalpha s).1.mapError .remote) (o.effect isalpha s).2) :
    Undisturbed isalpha (call o) Q s := by
  refine bind (alone_perform fun a v hs hv => ?_)
  rcases hs with ⟨rfl, rfl⟩ | ⟨-, interrupted⟩
  · exact ofExcept h
  · exact nomatch interrupted.symm.trans hv

end Undisturbed

end undisturbed

end Termroom.Archive
