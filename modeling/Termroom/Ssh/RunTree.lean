import Mathlib
import Termroom.Conc.Exec
import Termroom.Data.FileTree
import Termroom.Data.JsonText
import Termroom.Data.Strip
import Termroom.Archive.Zip

/-!
# The directory of a Remote Run, over SFTP

A Remote Run has a directory of its own below the Run base of its computer. It is built under
another name, and renamed when it is complete; it is renamed once more before it is removed, and
a marker beside it says that the removal has begun. Each of these steps is an operation over the
network, so that a call can stop behind any of them, with the operation carried out or not, and a
removal with any part of the tree gone.

The paths are those below the Run base.
-/

set_option autoImplicit false

namespace Termroom.Ssh.RunTree

open Conc Data Archive

/-! ## 1. Names -/

def lowerHex (c : Char) : Bool := c.isDigit || ('a' ≤ c && c ≤ 'f')

def uuid4Digit (c : Char) (index : Nat) : Bool :=
  if index = 8 ∨ index = 13 ∨ index = 18 ∨ index = 23 then c = '-'
  else if index = 14 then c = '4'
  else if index = 19 then c = '8' || c = '9' || c = 'a' || c = 'b'
  else lowerHex c

/-- `str(uuid.UUID(text)) == text`, for a UUID of version 4. -/
def isCanonicalUuid4 (text : Text) : Bool :=
  text.length = 36 && text.zipIdx.all fun c => uuid4Digit c.1 c.2

/-- What `validate_remote_run_id` accepts, and `uuid.uuid4` makes. -/
abbrev RunId := { text : Text // isCanonicalUuid4 text = true }

abbrev Path := List Text

abbrev RunBase := FileTree Text Bytes

def metadataName : Text := ".termroom".toList

def markerName : Text := "marker".toList

def workName : Text := "work".toList

def cwdName : Text := "cwd".toList

def runnerName : Text := "runner.sh".toList

def logPipeName : Text := "log-pipe.sh".toList

def commandName : Text := "command.sh".toList

section

variable (runId : RunId)

def creatingLeaf : Text := ".termroom-creating-".toList ++ runId.1

def quarantineLeaf : Text := ".termroom-deleting-".toList ++ runId.1

/-- `_remote_run_deletion_marker`. -/
def deletionMarkerLeaf : Text := quarantineLeaf runId ++ ".marker".toList

end

/-- The name of a temporary file of `_sftp_atomic_write`. -/
def temporaryName (name : Text) (id : RunId) : Text :=
  '.' :: name ++ ".termroom-".toList ++ id.1 ++ ".tmp".toList

/-- `_is_remote_run_marker_temporary`. -/
def isMarkerTemporary (name : Text) : Bool :=
  let begin_ := ".marker.termroom-".toList
  let end_ := ".tmp".toList
  begin_.isPrefixOf name && end_.isSuffixOf name &&
    isCanonicalUuid4 ((name.drop begin_.length).take (name.length - begin_.length - end_.length))

/-! ## 2. Operations -/

inductive Kind where
  | directory
  | file
  | symlink
  deriving DecidableEq, Repr

def kindOf : FileNode Bytes → Kind
  | .directory => .directory
  | .file _ => .file
  | .symlink => .symlink

inductive SftpError where
  /-- `FileNotFoundError`, or an `OSError` with `errno` 2. -/
  | missing
  /-- Any other `OSError`. -/
  | failure
  /-- `SSHException` and `EOFError`. -/
  | connection
  deriving DecidableEq, Repr

/-- The commands of the scripts that are run by `_exec_remote_run_bash`. -/
inductive ShellCommand where
  | killSession
  /-- `test ! -L; test -d`. -/
  | realDirectory (path : Path)
  /-- `test "$(ls -A -- path)" = names`. -/
  | listed (path : Path) (names : List Text)
  /-- `test "$(cat -- path)" = text`. -/
  | holds (path : Path) (text : Text)
  /-- `if test -e || test -L; then test -f; test ! -L; rm -f; fi`. -/
  | removeFile (path : Path)
  | rmdir (path : Path)
  /-- `rm -rf`. -/
  | removeTree (path : Path)
  /-- `test ! -e; test ! -L`. -/
  | gone (path : Path)

inductive SftpOp where
  | uuid4
  | lstat (path : Path)
  | listdirAttr (path : Path)
  /-- `open(path, "rb")`, and at most so many bytes. -/
  | read (path : Path) (maxBytes : Nat)
  | mkdir (dir : Path) (name : Text)
  /-- `open(path, "wb")`, and `write`. -/
  | write (dir : Path) (name : Text) (content : Bytes)
  | chmod (path : Path)
  | rename (src dir : Path) (name : Text)
  | posixRename (src dir : Path) (name : Text)
  | remove (path : Path)
  | shell (command : ShellCommand)

def SftpOp.Ans : SftpOp → Type
  | uuid4 => Except SftpError RunId
  | lstat _ => Except SftpError Kind
  | listdirAttr _ => Except SftpError (List (Text × Kind))
  | read _ _ => Except SftpError Bytes
  | mkdir _ _ | write _ _ _ | chmod _ | rename _ _ _ | posixRename _ _ _ | remove _
  | shell _ => Except SftpError Unit

abbrev SftpSig : Sig := ⟨SftpOp, SftpOp.Ans⟩

inductive SshError where
  | sftp (e : SftpError)
  /-- `SSHBackendError`. -/
  | backend (message : String)
  /-- `RemoteRunLayoutError`. -/
  | layout (message code : String)
  /-- `SSHBackendError`, for a metadata file. -/
  | tooLarge (path : Path)
  | decode
  | value (message : String)
  deriving DecidableEq, Repr

abbrev SshProg := Prog SftpSig SshError

section

variable {α : Type}

def lstat (path : Path) : SshProg Kind := do
  let answer ← Prog.perform (S := SftpSig) (.lstat path)
  Prog.ofExcept (Except.mapError .sftp answer)

def read (path : Path) (maxBytes : Nat) : SshProg Bytes := do
  let answer ← Prog.perform (S := SftpSig) (.read path (maxBytes + 1))
  let raw ← Prog.ofExcept (Except.mapError .sftp answer)
  Prog.ofExcept (if maxBytes < raw.length then .error (.tooLarge path) else .ok raw)

def listdirAttr (path : Path) : SshProg (List (Text × Kind)) := do
  let answer ← Prog.perform (S := SftpSig) (.listdirAttr path)
  Prog.ofExcept (Except.mapError .sftp answer)

def mkdir (dir : Path) (name : Text) : SshProg Unit := do
  let answer ← Prog.perform (S := SftpSig) (.mkdir dir name)
  Prog.ofExcept (Except.mapError .sftp answer)

def remove (path : Path) : SshProg Unit := do
  let answer ← Prog.perform (S := SftpSig) (.remove path)
  Prog.ofExcept (Except.mapError .sftp answer)

def rename (src dir : Path) (name : Text) : SshProg Unit := do
  let answer ← Prog.perform (S := SftpSig) (.rename src dir name)
  Prog.ofExcept (Except.mapError .sftp answer)

/-- One command of a script; `set -e` ends the script where one fails. -/
def shell (command : ShellCommand) : SshProg Unit := do
  let answer ← Prog.perform (S := SftpSig) (.shell command)
  Prog.ofExcept (Except.mapError .sftp answer)

def shellAll : List ShellCommand → SshProg Unit
  | [] => pure ()
  | command :: commands => do
    shell command
    shellAll commands

/-- `_sftp_exists`. -/
def sftpExists (path : Path) : SshProg Bool := do
  let answer ← Prog.perform (S := SftpSig) (.lstat path)
  match answer with
  | .ok _ => return true
  | .error .missing => return false
  | .error e => Prog.raise (.sftp e)

/-- `contextlib.suppress(OSError)` around `sftp.remove`. -/
def removeQuietly (path : Path) : SshProg Unit := do
  let answer ← Prog.perform (S := SftpSig) (.remove path)
  match answer with
  | .error .connection => Prog.raise (.sftp .connection)
  | .error .missing | .error .failure | .ok () => return ()

/-- What an `OSError` is replaced by. -/
def orElse (p : SshProg α) (instead : SshError) : SshProg α := do
  let r ← p.attempt
  match r with
  | .error (.sftp .missing) | .error (.sftp .failure) => Prog.raise instead
  | .error e => Prog.raise e
  | .ok a => return a

def require (condition : Bool) (otherwise : SshError) : SshProg Unit :=
  if condition then pure () else Prog.raise otherwise

end

/-- What replaces, or puts in place, a file that has been written beside it. -/
def putInPlace (dir : Path) (name : Text) (temporary : Text) : SshProg Unit := do
  let replaces ← sftpExists (dir ++ [name])
  if replaces then
    orElse (do
      let answer ← Prog.perform (S := SftpSig) (.posixRename (dir ++ [temporary]) dir name)
      Prog.ofExcept (Except.mapError .sftp answer))
      (.backend "Remote SFTP server does not support atomic metadata replacement")
  else rename (dir ++ [temporary]) dir name

/-- `_sftp_atomic_write`. -/
def sftpAtomicWrite (dir : Path) (name : Text) (value : Bytes) : SshProg Unit := do
  let id ← Prog.perform (S := SftpSig) .uuid4
  let id ← Prog.ofExcept (Except.mapError .sftp id)
  let temporary := temporaryName name id
  Prog.finally_ (do
    let written ← Prog.perform (S := SftpSig) (.write dir temporary value)
    Prog.ofExcept (Except.mapError .sftp written)
    let changed ← Prog.perform (S := SftpSig) (.chmod (dir ++ [temporary]))
    Prog.ofExcept (Except.mapError .sftp changed)
    putInPlace dir name temporary) (removeQuietly (dir ++ [temporary]))

/-! ## 3. What a directory is asserted to be -/

/-- The content of a marker. -/
def markerContent (runId : RunId) : Bytes := utf8 (runId.1 ++ ['\n'])

/-- `decode("utf-8", errors="strict").strip()`. -/
def stripped (raw : Bytes) (otherwise : SshError) : SshProg Text :=
  match decodeUtf8 raw with
  | some text => pure (strip text)
  | none => Prog.raise otherwise

section

variable (runId : RunId)

/-- What is raised for each part that is not as it should be. -/
structure TreeErrors where
  incomplete : SshError
  root : SshError
  metadata : SshError
  marker : SshError
  /-- Where the exceptions of reading and decoding the marker are replaced. -/
  unreadable : Option SshError
  mismatch : SshError

def readMarker (leaf : Text) : Option SshError → SshProg Bytes
  | none => read [leaf, metadataName, markerName] 128
  | some unreadable => orElse (read [leaf, metadataName, markerName] 128) unreadable

/-- A directory is the Run's: it is one, and there is a marker in it, which names the Run. -/
def assertTree (leaf : Text) (errors : TreeErrors) : SshProg Unit := do
  let root ← orElse (lstat [leaf]) errors.incomplete
  let metadata ← orElse (lstat [leaf, metadataName]) errors.incomplete
  let marker ← orElse (lstat [leaf, metadataName, markerName]) errors.incomplete
  require (root = .directory) errors.root
  require (metadata = .directory) errors.metadata
  require (marker = .file) errors.marker
  let raw ← readMarker leaf errors.unreadable
  let marked ← stripped raw (errors.unreadable.getD .decode)
  require (marked = runId.1) errors.mismatch

/-- `_assert_marked_remote_run_tree`. -/
def assertMarkedTree (leaf : Text) (label : String) : SshProg Unit :=
  assertTree runId leaf
    { incomplete := .backend ("Remote Run " ++ label ++ " is incomplete")
      root := .backend ("Remote Run " ++ label ++ " is not a real directory")
      metadata := .backend ("Remote Run " ++ label ++ " metadata is invalid")
      marker := .backend ("Remote Run " ++ label ++ " marker is invalid")
      unreadable := none
      mismatch := .backend "Run marker does not match; refusing automatic deletion" }

/-- `_assert_remote_run_root`. -/
def assertRoot : SshProg Unit :=
  assertTree runId runId.1
    { incomplete := .layout "Remote Run layout is incomplete" "layout_incomplete"
      root := .layout "Remote Run root is not a real directory" "root_invalid"
      metadata := .layout "Remote Run metadata directory is invalid" "metadata_invalid"
      marker := .layout "Run marker is not a regular file" "marker_invalid"
      unreadable := some (.layout "Run marker is unreadable" "marker_invalid")
      mismatch := .layout "Run marker does not match; refusing the operation" "marker_mismatch" }

/-- `_assert_quarantined_remote_run_container`. -/
def assertContainer : SshProg Unit := do
  let kind ← orElse (lstat [quarantineLeaf runId]) (.backend "Remote Run quarantine is unavailable")
  require (kind = .directory) (.backend "Remote Run quarantine is not a real directory")

/-- `_assert_quarantined_remote_run`. -/
def assertQuarantined : SshProg Unit := do
  assertContainer runId
  assertMarkedTree runId (quarantineLeaf runId) "quarantine"

/-- `_assert_remote_run_deletion_marker`. -/
def assertDeletionMarker : SshProg Unit := do
  let kind ← orElse (lstat [deletionMarkerLeaf runId])
    (.backend "Remote Run deletion marker is unavailable")
  require (kind = .file) (.backend "Remote Run deletion marker is invalid")
  let raw ← read [deletionMarkerLeaf runId] 128
  let marked ← stripped raw .decode
  require (marked = runId.1) (.backend "Remote Run deletion marker does not match")

/-- `_write_remote_run_deletion_marker`. -/
def writeDeletionMarker : SshProg Unit := do
  let there ← sftpExists [deletionMarkerLeaf runId]
  if there then assertDeletionMarker runId
  else
    sftpAtomicWrite [] (deletionMarkerLeaf runId) (markerContent runId)
    assertDeletionMarker runId

/-! ## 4. Deletion -/

/-- `_remove_pristine_remote_run_creation`, for a directory with nothing in it. -/
def removeBare : SshProg Unit := do
  shellAll [.realDirectory [creatingLeaf runId], .listed [creatingLeaf runId] [],
    .rmdir [creatingLeaf runId]]
  let there ← sftpExists [creatingLeaf runId]
  require (!there) (.backend "Remote Run creation staging still exists")

/-- The names in `.termroom`, which are all those of temporary files of the marker. -/
def markerTemporaries : List (Text × Kind) → SshProg (List Text)
  | [] => pure []
  | (name, kind) :: children =>
    if isMarkerTemporary name = false ∨ kind ≠ .file then
      Prog.raise (.backend "Remote Run creation metadata contains unexpected files")
    else do
      let names ← markerTemporaries children
      return name :: names

/-- `_remove_pristine_remote_run_creation`, for a directory with `.termroom` in it. -/
def removeSkeleton : SshProg Unit := do
  let kind ← lstat [creatingLeaf runId, metadataName]
  require (kind = .directory) (.backend "Remote Run creation metadata is invalid")
  let children ← listdirAttr [creatingLeaf runId, metadataName]
  let names ← markerTemporaries children
  shellAll ([.realDirectory [creatingLeaf runId],
    .realDirectory [creatingLeaf runId, metadataName],
    .listed [creatingLeaf runId] [metadataName]] ++
    names.map (fun name => .removeFile [creatingLeaf runId, metadataName, name]) ++
    [.listed [creatingLeaf runId, metadataName] [],
      .rmdir [creatingLeaf runId, metadataName], .rmdir [creatingLeaf runId]])
  let there ← sftpExists [creatingLeaf runId]
  require (!there) (.backend "Remote Run creation staging still exists")

/-- `_remove_pristine_remote_run_creation`. -/
def removePristineCreation : SshProg Unit := do
  let kind ← lstat [creatingLeaf runId]
  require (kind = .directory) (.backend "Remote Run creation staging is invalid")
  let entries ← listdirAttr [creatingLeaf runId]
  if entries = [] then removeBare runId
  else if entries.map Prod.fst = [metadataName] then removeSkeleton runId
  else Prog.raise (.backend "Remote Run creation staging contains unexpected files")

/-- `_remove_marked_remote_tree_from_base`. -/
def removeMarkedTree : SshProg Unit := do
  assertDeletionMarker runId
  shellAll [.realDirectory [quarantineLeaf runId],
    .holds [deletionMarkerLeaf runId] runId.1, .removeTree [quarantineLeaf runId],
    .gone [quarantineLeaf runId]]
  let there ← sftpExists [quarantineLeaf runId]
  require (!there) (.backend "Remote Run quarantine still exists after deletion")

def markDeletion (deletionStarted : Bool) : SshProg Unit :=
  if deletionStarted then pure () else writeDeletionMarker runId

/-- The directory is set aside under the name of the quarantine, if it is not there already. -/
def setAside : Option Text → SshProg Unit
  | some leaf => orElse (rename [leaf] [] (quarantineLeaf runId))
      (.backend "Could not quarantine the Remote Run")
  | none => pure ()

/-- From the moment the ownership of a directory has been checked. -/
def deleteOwned (deletionStarted : Bool) (source : Option Text) : SshProg Unit := do
  markDeletion runId deletionStarted
  shell .killSession
  setAside runId source
  assertContainer runId
  removeMarkedTree runId
  remove [deletionMarkerLeaf runId]

/-- The deletion marker is taken away, where there is one. -/
def unmark (deletionStarted : Bool) : SshProg Unit :=
  if deletionStarted then remove [deletionMarkerLeaf runId] else pure ()

/-- Where no directory is found. -/
def deleteMissing (deletionStarted : Bool) : SshProg Unit := do
  shell .killSession
  unmark runId deletionStarted

/-- Where the directory under construction is found, and no marker in it. -/
def deleteUnmarked (deletionStarted : Bool) : SshProg Unit := do
  unmark runId deletionStarted
  shell .killSession
  removePristineCreation runId

/-- Where the directory under construction is found. -/
def deleteCreation (deletionStarted : Bool) : SshProg Unit := do
  let marked ← sftpExists [creatingLeaf runId, metadataName, markerName]
  if marked then
    assertMarkedTree runId (creatingLeaf runId) "creation staging"
    deleteOwned runId deletionStarted (some (creatingLeaf runId))
  else deleteUnmarked runId deletionStarted

def assertStarted (deletionStarted : Bool) : SshProg Unit :=
  if deletionStarted then assertDeletionMarker runId else pure ()

/-- What has been set aside needs its own marker only until the deletion has one. -/
def assertSetAside (deletionStarted : Bool) : SshProg Unit :=
  if deletionStarted then assertContainer runId else assertQuarantined runId

/-- Behind the look at what there is. -/
def deleteFound (originalExists creatingExists quarantineExists deletionStarted : Bool) :
    SshProg Bool :=
  if originalExists then do
    assertRoot runId
    deleteOwned runId deletionStarted (some runId.1)
    return false
  else if creatingExists then do
    deleteCreation runId deletionStarted
    return false
  else if quarantineExists then do
    assertSetAside runId deletionStarted
    deleteOwned runId deletionStarted none
    return false
  else do
    deleteMissing runId deletionStarted
    return true

/-- `_delete_remote_run_root_connection`; it returns whether there was no directory. -/
def deleteRunRoot : SshProg Bool := do
  let originalExists ← sftpExists [runId.1]
  let creatingExists ← sftpExists [creatingLeaf runId]
  let quarantineExists ← sftpExists [quarantineLeaf runId]
  let deletionStarted ← sftpExists [deletionMarkerLeaf runId]
  require (originalExists.toNat + creatingExists.toNat + quarantineExists.toNat ≤ 1)
    (.backend "Multiple Remote Run roots exist; refusing automatic deletion")
  assertStarted runId deletionStarted
  deleteFound runId originalExists creatingExists quarantineExists deletionStarted

/-! ## 5. Creation -/

/-- `_normalize_remote_run_command`. -/
def normalizeCommand (command : Text) : Except SshError Text :=
  if strip command = [] then .error (.value "Remote Run command cannot be empty")
  else if '\x00' ∈ command then .error (.value "Remote Run command cannot contain NUL")
  else
    let body := command.rdropWhile (· = '\n') ++ ['\n']
    if 256 * 1024 < (utf8 body).length then .error (.value "Remote Run command is too large")
    else .ok body

/-- `_discard_remote_run_creation`. -/
def discardCreation : SshProg Unit := do
  let there ← sftpExists [creatingLeaf runId]
  if there then
    let marked ← sftpExists [creatingLeaf runId, metadataName, markerName]
    if marked then
      assertMarkedTree runId (creatingLeaf runId) "creation staging"
      let _ ← deleteRunRoot runId
      pure ()
    else removePristineCreation runId
  else pure ()

/-- What is written into the directory of a Run: its command, where it is run, and the scripts. -/
structure Layout where
  command : Option Text
  cwd : Text
  runnerScript : Text
  logPipeScript : Text

def Layout.body (layout : Layout) : Except SshError Text :=
  match layout.command with
  | none => .ok []
  | some command => normalizeCommand command

def beginRoot : SshProg Unit := do
  mkdir [] (creatingLeaf runId)
  mkdir [creatingLeaf runId] metadataName

/-- The directory is built under its other name, marker first, and renamed. -/
def buildRoot (layout : Layout) : SshProg Unit := do
  beginRoot runId
  sftpAtomicWrite [creatingLeaf runId, metadataName] markerName (markerContent runId)
  mkdir [creatingLeaf runId] workName
  sftpAtomicWrite [creatingLeaf runId, metadataName] cwdName (utf8 (layout.cwd ++ ['\n']))
  sftpAtomicWrite [creatingLeaf runId, metadataName] runnerName (utf8 layout.runnerScript)
  sftpAtomicWrite [creatingLeaf runId, metadataName] logPipeName (utf8 layout.logPipeScript)
  let body ← Prog.ofExcept layout.body
  sftpAtomicWrite [creatingLeaf runId, metadataName] commandName (utf8 body)
  rename [creatingLeaf runId] [] runId.1

/-- A directory that is there already is the Run's, and has its command. -/
def claimRoot (kind : Kind) (layout : Layout) : SshProg Unit := do
  require (kind = .directory) (.backend "Remote Run root is not a real directory")
  assertRoot runId
  match layout.command with
  | none => pure ()
  | some command =>
    let expected ← Prog.ofExcept (normalizeCommand command)
    let actual ← read [runId.1, metadataName, commandName] (256 * 1024)
    require (actual = utf8 expected)
      (.backend "Remote Run id already belongs to a different command")

def discardLeft (left : Bool) : SshProg Unit :=
  if left then discardCreation runId else pure ()

/-- From where there is no directory. -/
def createRoot (layout : Layout) : SshProg Unit := do
  let left ← sftpExists [creatingLeaf runId]
  discardLeft runId left
  let built ← (buildRoot runId layout).attempt
  match built with
  | .ok () => assertRoot runId
  | .error e =>
    -- what the clean-up raises is a note on the first exception
    let _ ← ((discardCreation runId).attempt : SshProg (Except SshError Unit))
    Prog.raise e

/-- Whether a deletion has begun, and may not have come to its end. -/
def deletionBegun : SshProg Bool := do
  let quarantined ← sftpExists [quarantineLeaf runId]
  if quarantined then pure true else sftpExists [deletionMarkerLeaf runId]

def finishDeletion (begun : Bool) : SshProg Unit :=
  if begun then do
    let _ ← deleteRunRoot runId
    pure ()
  else pure ()

/-- `create_remote_run_layout`, behind the checks of its arguments. -/
def createRunLayout (layout : Layout) : SshProg Unit := do
  let begun ← deletionBegun runId
  finishDeletion runId begun
  let answer ← Prog.perform (S := SftpSig) (.lstat [runId.1])
  match answer with
  | .ok kind => claimRoot runId kind layout
  | .error .missing => createRoot runId layout
  | .error e => Prog.raise (.sftp e)

end

/-! ## 6. What the operations do -/

/-- The Run base, and whether an operation has failed that should not have. -/
structure World where
  tree : RunBase
  faulty : Bool

def kindAt (tree : RunBase) (path : Path) : Except SftpError Kind :=
  match tree.entry path with
  | some node => .ok (kindOf node)
  | none => .error .missing

/-- The path leads through a symlink, and nobody knows to where. -/
def Through (tree : RunBase) (path : Path) : Prop :=
  ∃ parent name rest, path = parent ++ name :: rest ∧ tree.entry parent = some .symlink

/-- The names and kinds of what is in a directory. -/
def Lists (tree : RunBase) (path : Path) (children : List (Text × Kind)) : Prop :=
  tree.entry path = some .directory ∧ (children.map Prod.fst).Nodup ∧ ∀ name kind,
    (name, kind) ∈ children ↔ ∃ node, tree.entry (path ++ [name]) = some node ∧ kindOf node = kind

def Reads (tree : RunBase) (path : Path) (maxBytes : Nat) (raw : Bytes) : Prop :=
  match tree.entry path with
  | some (.file content) => raw = content.take maxBytes
  -- what a symlink leads to is not known
  | some .symlink => True
  | some .directory | none => False

/-- An operation that is carried out where it can be, and raises an `OSError` where not. -/
def Change (can : Prop) (after : RunBase) (answer : Except SftpError Unit) (t t' : RunBase) :
    Prop :=
  (can ∧ answer = .ok () ∧ t' = after) ∨
    (¬ can ∧ (∃ e, e ≠ .connection ∧ answer = .error e) ∧ t' = t)

/-- `$(…)` takes away the newlines at the end. -/
def shellText (content : Bytes) : Bytes := content.rdropWhile (· = 10)

/-- What lets a command of a script succeed. -/
def ShellCommand.can : ShellCommand → RunBase → Prop
  | .killSession, _ => True
  | .realDirectory path, t => t.entry path = some .directory
  | .listed path names, t => t.entry path = some .directory ∧
      ∀ name, t.entry (path ++ [name]) ≠ none ↔ name ∈ names
  | .holds path text, t => ∃ content, t.entry path = some (.file content) ∧
      shellText content = utf8 text
  | .removeFile path, t => t.entry path = none ∨ ∃ content, t.entry path = some (.file content)
  | .rmdir path, t => path ≠ [] ∧ t.entry path = some .directory ∧ t.Empty path
  | .removeTree path, _ => path ≠ []
  | .gone path, t => t.entry path = none

def ShellCommand.effect : ShellCommand → RunBase → RunBase
  | .killSession, t | .realDirectory _, t | .listed _ _, t | .holds _ _, t | .gone _, t => t
  | .removeFile path, t | .rmdir path, t | .removeTree path, t => t.prune path

/-- What an operation does that is answered so. -/
def act : (o : SftpOp) → o.Ans → RunBase → RunBase → Prop
  -- no temporary file has the id of another
  | .uuid4, .ok id, t, t' =>
    (∀ dir name, t.entry (dir ++ [temporaryName name id]) = none) ∧ t' = t
  | .uuid4, .error _, _, _ => False
  | .lstat path, answer, t, t' => (answer = kindAt t path ∨ Through t path) ∧ t' = t
  | .listdirAttr path, .ok children, t, t' => Lists t path children ∧ t' = t
  | .listdirAttr path, .error e, t, t' =>
    t.entry path ≠ some .directory ∧ e ≠ .connection ∧ t' = t
  | .read path maxBytes, .ok raw, t, t' => Reads t path maxBytes raw ∧ t' = t
  | .read path _, .error e, t, t' =>
    (∀ content, t.entry path ≠ some (.file content)) ∧ e ≠ .connection ∧ t' = t
  | .mkdir dir name, answer, t, t' =>
    Change (t.entry dir = some .directory ∧ t.entry (dir ++ [name]) = none)
      (t.put dir name .directory) answer t t'
  | .write dir name content, answer, t, t' =>
    Change (t.entry dir = some .directory ∧ t.entry (dir ++ [name]) ≠ some .directory)
      (t.put dir name (.file content)) answer t t'
  | .chmod path, answer, t, t' => Change (t.entry path ≠ none) t answer t t'
  | .rename src dir name, answer, t, t' =>
    Change (t.entry src ≠ none ∧ FileTree.Movable t src dir name) (t.move src dir name) answer t t'
  -- a server need not have it
  | .posixRename src dir name, answer, t, t' =>
    Change (t.entry src ≠ none ∧ t.entry src ≠ some .directory ∧
        t.entry (dir ++ [name]) ≠ some .directory ∧
        FileTree.Movable (t.prune (dir ++ [name])) src dir name)
      ((t.prune (dir ++ [name])).move src dir name) answer t t' ∨
    ((∃ e, e ≠ .connection ∧ answer = .error e) ∧ t' = t)
  | .remove path, answer, t, t' =>
    Change (path ≠ [] ∧ ∃ node, t.entry path = some node ∧ node ≠ .directory) (t.prune path)
      answer t t'
  | .shell command, answer, t, t' => Change (command.can t) (command.effect t) answer t t'

/-- An operation that fails has been carried out or not, or in part. -/
def Broken (o : SftpOp) (t t' : RunBase) : Prop :=
  t' = t ∨ (∃ answer, act o answer t t') ∨
    match o with
    | .write dir name _ => ∃ part, Change (t.entry dir = some .directory ∧
        t.entry (dir ++ [name]) ≠ some .directory) (t.put dir name (.file part)) (.ok ()) t t'
    | .shell (.removeTree path) => FileTree.Pruned t t' path
    | _ => False

def SftpOp.failed (e : SftpError) : (o : SftpOp) → o.Ans
  | .uuid4 => .error e
  | .lstat _ => .error e
  | .listdirAttr _ => .error e
  | .read _ _ => .error e
  | .mkdir _ _ => .error e
  | .write _ _ _ => .error e
  | .chmod _ => .error e
  | .rename _ _ _ => .error e
  | .posixRename _ _ _ => .error e
  | .remove _ => .error e
  | .shell _ => .error e

/-- An operation does what it is asked and says so, or breaks. -/
def Step (o : SftpSig.Op) (answer : SftpSig.Ans o) (w v : World) : Prop :=
  (act o answer w.tree v.tree ∧ v.faulty = w.faulty) ∨
    ((∃ e, e ≠ .missing ∧ answer = SftpOp.failed e o) ∧ Broken o w.tree v.tree ∧ v.faulty = true)

end Termroom.Ssh.RunTree
