import Mathlib
import Termroom.Archive.Manifest
import Termroom.Conc.Pool

/-!
# Uploads to a Local Workspace

A form uploads several files in one request, a stream one. Either stores a file in a temporary
one beside its target and renames it in the end. A stream looks once more, right before its
rename, whether the target has come to be; **a form does not**: it looked at all its targets
before it stored the first file, and with overwrite off it replaces whatever an upload put there
since.

`uploads_safe` is what is asked of every interleaving, for the runs in which nobody renames a file
to a target between a form's check and its own rename (`Careful`).
-/

set_option autoImplicit false

namespace Termroom.Files

open Conc Archive

/-! ## 1. The files -/

structure LocalPath where
  directory : Text
  name : Text
  deriving DecidableEq, Repr

structure LocalFile where
  content : Bytes
  mode : Nat
  deriving DecidableEq, Repr

/-- The name of a temporary file for this target. -/
def temporaryOf (target : LocalPath) (id : Text) : LocalPath :=
  ⟨target.directory, '.' :: target.name ++ ".upload-".toList ++ id⟩

/-- A rename that took place. -/
structure Renamed where
  upload : Nat
  target : LocalPath
  overwrite : Bool
  /-- The target was there. -/
  existed : Bool
  content : Bytes
  deriving DecidableEq, Repr

structure UploadWorld where
  files : LocalPath → Option LocalFile
  /-- `temp_path` of a request, while the file is there. -/
  temporary : Nat → Option LocalPath
  /-- The targets that a form with overwrite off has checked and not renamed to yet; history
      that no step depends on, as `renames`. -/
  awaiting : Nat → List LocalPath
  renames : List Renamed

def UploadWorld.init (files : LocalPath → Option LocalFile) : UploadWorld :=
  ⟨files, fun _ => none, fun _ => [], []⟩

inductive UploadError where
  | exists_ | tooLarge | duplicate | noUpload | os
  | other (exception : String)
  deriving DecidableEq, Repr

/-! ## 2. The requests -/

/-- What happens without an `await`, and the `await`s. -/
inductive LocalOp where
  /-- The targets are looked at, one after the other. -/
  | check (targets : List LocalPath)
  /-- The mode of the target, and `NamedTemporaryFile`. -/
  | create (target : LocalPath)
  /-- The next chunk, or the end; it may raise. -/
  | receive
  | write (chunk : Bytes)
  /-- From the last chunk to the end of the function; a stream looks at its target again. -/
  | finish (target : LocalPath) (mode : Nat) (mayReplace : Bool)
  /-- The `finally`. -/
  | cleanup
  /-- `await upload.close()`. -/
  | close
  deriving DecidableEq, Repr

/-- How far `finish` came. -/
inductive Finished where
  | done
  | failed (e : UploadError)
  /-- The directory could not be synced after the rename. -/
  | renamedThenFailed (e : UploadError)
  deriving DecidableEq, Repr

abbrev LocalOp.Ans : LocalOp → Type
  | .create _ => Except UploadError Nat
  | .finish _ _ _ => Finished
  | .close => Unit
  | _ => Except UploadError Unit

abbrev LocalSig : Sig := ⟨LocalOp, LocalOp.Ans⟩

abbrev LocalProg := Prog LocalSig UploadError

def perform (o : LocalOp) : LocalProg o.Ans := @Prog.perform LocalSig UploadError o

/-- The operation lets its exception through. -/
def checkTargetsOp (targets : List LocalPath) : LocalProg Unit :=
  perform (.check targets) >>= Prog.ofExcept

def createTemporary (target : LocalPath) : LocalProg Nat :=
  perform (.create target) >>= Prog.ofExcept

def receive : LocalProg Unit := perform .receive >>= Prog.ofExcept

def writeChunk (chunk : Bytes) : LocalProg Unit := perform (.write chunk) >>= Prog.ofExcept

def cleanup : LocalProg Unit := perform .cleanup >>= Prog.ofExcept

/-- The loop over the chunks; `total` bytes came before. -/
def storeChunks (maxBytes : Nat) : Nat → List Bytes → LocalProg Unit
  | _, [] => receive
  | total, chunk :: rest => do
    receive
    if chunk = [] then storeChunks maxBytes total rest
    else if maxBytes < total + chunk.length then .raise .tooLarge
    else do
      writeChunk chunk
      storeChunks maxBytes (total + chunk.length) rest

/-- What `_store_upload` and `_store_request_upload` have in common. -/
def store (maxBytes : Nat) (target : LocalPath) (chunks : List Bytes) (mayReplace : Bool) :
    LocalProg Unit := do
  let mode ← createTemporary target
  let r ← (storeChunks maxBytes 0 chunks).attempt
  match r with
  | .error e => do
    cleanup
    .raise e
  | .ok () => do
    let finished ← perform (.finish target mode mayReplace)
    match finished with
    | .done => pure ()
    | .renamedThenFailed e => .raise e
    | .failed e => do
      cleanup
      .raise e

/-- A file of a form, with the target that `upload_target` finds for its name. -/
structure FormFile where
  filename : Text
  target : LocalPath
  content : Bytes
  deriving DecidableEq, Repr

/-- `_store_upload`, which reads up to 1024 * 1024 bytes at a time and never looks at its target
    again. -/
def storeUpload (maxBytes : Nat) (upload : FormFile) : LocalProg Unit :=
  store maxBytes upload.target
    (readChunks (1024 * 1024) upload.content.length upload.content) true

/-- `_store_request_upload`. -/
def storeRequestUpload (maxBytes : Nat) (target : LocalPath) (chunks : List Bytes)
    (overwrite : Bool) : LocalProg Unit := store maxBytes target chunks overwrite

def storeUploads (maxBytes : Nat) : List FormFile → LocalProg Unit
  | [] => pure ()
  | upload :: rest => do
    storeUpload maxBytes upload
    storeUploads maxBytes rest

def closeUploads : List FormFile → LocalProg Unit
  | [] => pure ()
  | _ :: rest => do
    perform .close
    closeUploads rest

/-- The `try` of `upload_files`. -/
def storeForm (maxBytes : Nat) (uploads : List FormFile) : LocalProg Unit :=
  if (uploads.map FormFile.filename).Nodup then do
    checkTargetsOp (uploads.map FormFile.target)
    storeUploads maxBytes uploads
  else .raise .duplicate

/-- `upload_files`, from the form on. -/
def uploadFiles (maxBytes : Nat) (uploads : List FormFile) : LocalProg Unit :=
  if uploads = [] then .raise .noUpload
  else (storeForm maxBytes uploads).finally_ (closeUploads uploads)

/-- `upload_file_stream`. -/
def uploadFileStream (maxBytes : Nat) (target : LocalPath) (chunks : List Bytes)
    (overwrite : Bool) : LocalProg Unit := do
  checkTargetsOp [target]
  storeRequestUpload maxBytes target chunks overwrite

inductive UploadRequest where
  | form (overwrite : Bool) (uploads : List FormFile)
  | stream (overwrite : Bool) (target : LocalPath) (chunks : List Bytes)
  deriving DecidableEq, Repr

namespace UploadRequest

def overwrite : UploadRequest → Bool
  | .form overwrite _ => overwrite
  | .stream overwrite _ _ => overwrite

/-- A form that must not overwrite. -/
def unguarded : UploadRequest → Bool
  | .form overwrite _ => !overwrite
  | .stream _ _ _ => false

/-- Each target, with the bytes that are to be there. -/
def uploads : UploadRequest → List (LocalPath × Bytes)
  | .form _ uploads => uploads.map fun upload => (upload.target, upload.content)
  | .stream _ target chunks => [(target, chunks.flatten)]

def body (maxBytes : Nat) : UploadRequest → LocalProg Unit
  | .form _ uploads => uploadFiles maxBytes uploads
  | .stream overwrite target chunks => uploadFileStream maxBytes target chunks overwrite

end UploadRequest

/-! ## 3. The steps -/

/-- `if target.exists() and not overwrite`, for each target. -/
def checkTargets (files : LocalPath → Option LocalFile) (overwrite : Bool) :
    List LocalPath → Except UploadError Unit
  | [] => .ok ()
  | target :: rest =>
    if (files target).isSome && !overwrite then .error .exists_
    else checkTargets files overwrite rest

/-- The mode that the target has, or is to have. -/
def existingMode (files : LocalPath → Option LocalFile) (target : LocalPath) : Nat :=
  match files target with
  | some file => file.mode
  | none => 0o644

namespace UploadWorld

/-- A new file, that only its owner may read and write. -/
def create (w : UploadWorld) (t : Nat) (path : LocalPath) : UploadWorld :=
  { w with
    files := Function.update w.files path (some ⟨[], 0o600⟩)
    temporary := Function.update w.temporary t (some path) }

def append (w : UploadWorld) (t : Nat) (chunk : Bytes) : UploadWorld :=
  match w.temporary t with
  | none => w
  | some path =>
    let file := (w.files path).map fun file => { file with content := file.content ++ chunk }
    { w with files := Function.update w.files path file }

/-- `os.unlink(temp_path)`, where it is there. -/
def unlink (w : UploadWorld) (t : Nat) : UploadWorld :=
  match w.temporary t with
  | none => w
  | some path =>
    { w with
      files := Function.update w.files path none
      temporary := Function.update w.temporary t none }

/-- `os.chmod(temp_path, existing_mode)` and `os.replace(temp_path, target)`. -/
def rename (w : UploadWorld) (t : Nat) (overwrite : Bool) (target : LocalPath) (mode : Nat) :
    UploadWorld :=
  match w.temporary t with
  | none => w
  | some path =>
    let content := ((w.files path).map LocalFile.content).getD []
    { files := Function.update (Function.update w.files path none) target (some ⟨content, mode⟩)
      temporary := Function.update w.temporary t none
      awaiting := Function.update w.awaiting t ((w.awaiting t).erase target)
      renames := w.renames ++ [⟨t, target, overwrite, (w.files target).isSome, content⟩] }

def setAwaiting (w : UploadWorld) (t : Nat) (targets : List LocalPath) : UploadWorld :=
  { w with awaiting := Function.update w.awaiting t targets }

end UploadWorld

/-- What the operations do; each of them may fail. -/
def LocalOp.step (t : Nat) (l : UploadRequest) :
    (o : LocalOp) → o.Ans → UploadWorld → UploadWorld → Prop
  | .check targets, a, u, v =>
    (a = .ok () ∧ checkTargets u.files l.overwrite targets = .ok () ∧
      v = if l.unguarded then u.setAwaiting t targets else u) ∨
    ∃ e, a = .error e ∧ v = u
  | .create target, a, u, v =>
    (∃ id, a = .ok (existingMode u.files target) ∧ u.files (temporaryOf target id) = none ∧
      v = u.create t (temporaryOf target id)) ∨
    ∃ e, a = .error e ∧ v = u
  | .receive, _, u, v => v = u
  | .write chunk, a, u, v => (a = .ok () ∧ v = u.append t chunk) ∨ ∃ e, a = .error e ∧ v = u
  | .finish target mode mayReplace, a, u, v =>
    ((mayReplace = false → u.files target = none) ∧ v = u.rename t l.overwrite target mode ∧
      (a = .done ∨ ∃ e, a = .renamedThenFailed e)) ∨
    ∃ e, a = .failed e ∧ v = u
  | .cleanup, a, u, v => (a = .ok () ∧ v = u.unlink t) ∨ ∃ e, a = .error e ∧ v = u
  | .close, _, u, v => v = u.setAwaiting t []

/-- The requests of a server that accepts files of this size. -/
def uploadSystem (maxBytes : Nat) : System LocalSig UploadError where
  World := UploadWorld
  Label := UploadRequest
  Ret := fun _ => Unit
  body := UploadRequest.body maxBytes
  step := LocalOp.step
  start := fun _ _ u v => v = u
  env := fun _ _ => False

/-- **Nobody renames to a target that a form which must not overwrite has checked and has not
    stored yet**, and no such target, nor a temporary file, is taken for the other. The
    directory of a rename is synced, and a temporary file can be unlinked. -/
def Careful (t : Nat) (_ : UploadRequest) (o : LocalOp) (a : o.Ans) (u v : UploadWorld) : Prop :=
  match o with
  | .create _ => ∀ path, v.temporary t = some path → ∀ t', path ∉ u.awaiting t'
  | .finish target _ _ => (∃ e, a = Finished.failed e) ∨
    a = Finished.done ∧ (∀ t', t' ≠ t → target ∉ u.awaiting t') ∧
      target ∉ (u.awaiting t).erase target ∧ ∀ t', u.temporary t' ≠ some target
  | .cleanup => a = Except.ok ()
  | _ => True

/-! ## 4. What is a request's own -/

/-- What only the request itself changes. -/
structure Own where
  temporary : Option LocalPath
  awaiting : List LocalPath
  renames : List Renamed
  file : Option LocalFile
  deriving DecidableEq

def UploadWorld.own (w : UploadWorld) (t : Nat) : Own where
  temporary := w.temporary t
  awaiting := w.awaiting t
  renames := w.renames.filter fun r => r.upload = t
  file := (w.temporary t).bind w.files

structure UploadInv (w : UploadWorld) : Prop where
  there : ∀ t path, w.temporary t = some path → w.files path ≠ none
  apart : ∀ t t' path, w.temporary t = some path → w.temporary t' = some path → t = t'
  absent : ∀ t path, path ∈ w.awaiting t → w.files path = none
  clean : ∀ r ∈ w.renames, r.overwrite = false → r.existed = false

section steps

variable {t t' : Nat} {l : UploadRequest} {u v : UploadWorld} {path target : LocalPath}
variable {chunk : Bytes} {mode : Nat} {overwrite : Bool}

/-- What a step leaves alone of a request. -/
theorem own_eq (temporary : v.temporary t' = u.temporary t')
    (awaiting : v.awaiting t' = u.awaiting t')
    (renames : v.renames.filter (fun r => r.upload = t') = u.renames.filter fun r => r.upload = t')
    (files : ∀ path, u.temporary t' = some path → v.files path = u.files path) :
    v.own t' = u.own t' := by
  unfold UploadWorld.own
  rw [temporary, awaiting, renames]
  congr 1
  cases h : u.temporary t' with
  | none => rfl
  | some path => exact files path h

/-- The temporary file of another request is another one. -/
theorem UploadInv.elsewhere {path' : LocalPath} (h : UploadInv u)
    (hpath : u.temporary t = some path) (hpath' : u.temporary t' = some path') (ht : t' ≠ t) :
    path' ≠ path := by
  rintro rfl
  exact ht (h.apart t' t path' hpath' hpath)

/-- What is left of the temporary files without this request's. -/
theorem UploadInv.others {path' : LocalPath} (h : UploadInv u) (hpath : u.temporary t = some path)
    (left : Function.update u.temporary t none t' = some path') :
    u.temporary t' = some path' ∧ path' ≠ path := by
  by_cases ht : t' = t
  · rw [ht, Function.update_self] at left
    cases left
  · rw [Function.update_of_ne ht] at left
    exact ⟨left, h.elsewhere hpath left ht⟩

theorem UploadInv.create (h : UploadInv u) (free : u.files path = none)
    (careful : ∀ t', path ∉ u.awaiting t') :
    UploadInv (u.create t path) ∧ ∀ t', t' ≠ t → (u.create t path).own t' = u.own t' := by
  have others : ∀ s, u.temporary s ≠ some path := fun s hs => h.there s path hs free
  refine ⟨⟨?_, ?_, ?_, h.clean⟩, ?_⟩
  · intro s q hq
    unfold UploadWorld.create at hq ⊢
    dsimp only at hq ⊢
    by_cases hpath : q = path
    · rw [hpath, Function.update_self]
      simp
    · rw [Function.update_of_ne hpath]
      by_cases hs : s = t
      · rw [hs, Function.update_self] at hq
        exact absurd (Option.some.inj hq).symm hpath
      · rw [Function.update_of_ne hs] at hq
        exact h.there s q hq
  · intro s s' q hq hq'
    unfold UploadWorld.create at hq hq'
    dsimp only at hq hq'
    by_cases hs : s = t
    · by_cases hs' : s' = t
      · rw [hs, hs']
      · rw [hs, Function.update_self] at hq
        rw [Function.update_of_ne hs', ← hq] at hq'
        exact absurd hq' (others s')
    · rw [Function.update_of_ne hs] at hq
      by_cases hs' : s' = t
      · rw [hs', Function.update_self] at hq'
        rw [← hq'] at hq
        exact absurd hq (others s)
      · rw [Function.update_of_ne hs'] at hq'
        exact h.apart s s' q hq hq'
  · intro s q hq
    have hne : q ≠ path := by
      rintro rfl
      exact careful s hq
    show Function.update u.files path _ q = none
    rw [Function.update_of_ne hne]
    exact h.absent s q hq
  · intro t' ht
    refine own_eq (Function.update_of_ne ht _ _) rfl rfl fun q hq => ?_
    show Function.update u.files path _ q = _
    apply Function.update_of_ne
    rintro rfl
    exact others t' hq

theorem UploadInv.append (h : UploadInv u) :
    UploadInv (u.append t chunk) ∧ ∀ t', t' ≠ t → (u.append t chunk).own t' = u.own t' := by
  unfold UploadWorld.append
  split
  · exact ⟨h, fun _ _ => rfl⟩
  rename_i path hpath
  have mine : u.files path ≠ none := h.there t path hpath
  refine ⟨⟨?_, h.apart, ?_, h.clean⟩, ?_⟩
  · intro s q hq
    dsimp only
    by_cases hne : q = path
    · rw [hne, Function.update_self, Option.map_eq_none_iff.ne]
      exact mine
    · rw [Function.update_of_ne hne]
      exact h.there s q hq
  · intro s q hq
    have hne : q ≠ path := by
      rintro rfl
      exact mine (h.absent s q hq)
    dsimp only
    rw [Function.update_of_ne hne]
    exact h.absent s q hq
  · intro t' ht
    exact own_eq rfl rfl rfl fun q hq => Function.update_of_ne (h.elsewhere hpath hq ht) _ _

theorem UploadInv.unlink (h : UploadInv u) :
    UploadInv (u.unlink t) ∧ ∀ t', t' ≠ t → (u.unlink t).own t' = u.own t' := by
  unfold UploadWorld.unlink
  split
  · exact ⟨h, fun _ _ => rfl⟩
  rename_i path hpath
  refine ⟨⟨?_, ?_, ?_, h.clean⟩, ?_⟩
  · intro s q hq
    obtain ⟨hq, hne⟩ := h.others hpath hq
    dsimp only
    rw [Function.update_of_ne hne]
    exact h.there s q hq
  · intro s s' q hq hq'
    exact h.apart s s' q (h.others hpath hq).1 (h.others hpath hq').1
  · intro s q hq
    dsimp only
    by_cases hne : q = path
    · rw [hne, Function.update_self]
    · rw [Function.update_of_ne hne]
      exact h.absent s q hq
  · intro t' ht
    exact own_eq (Function.update_of_ne ht _ _) rfl rfl fun q hq =>
      Function.update_of_ne (h.elsewhere hpath hq ht) _ _

/-- **A rename keeps the rest apart**, and it is clean where it may overwrite or finds nothing. -/
theorem UploadInv.rename (h : UploadInv u) (elsewhere : ∀ t', t' ≠ t → target ∉ u.awaiting t')
    (once : target ∉ (u.awaiting t).erase target) (plain : ∀ t', u.temporary t' ≠ some target)
    (safe : overwrite = false → u.files target = none) :
    UploadInv (u.rename t overwrite target mode) ∧
      ∀ t', t' ≠ t → (u.rename t overwrite target mode).own t' = u.own t' := by
  unfold UploadWorld.rename
  split
  · exact ⟨h, fun _ _ => rfl⟩
  rename_i path hpath
  have nowhere : ∀ s q, u.temporary s = some q → q ≠ target := by
    rintro s q hq rfl
    exact plain s hq
  have awaiting : ∀ s q, q ∈ Function.update u.awaiting t ((u.awaiting t).erase target) s →
      q ∈ u.awaiting s ∧ q ≠ target := by
    intro s q hq
    by_cases hs : s = t
    · subst hs
      rw [Function.update_self] at hq
      refine ⟨List.mem_of_mem_erase hq, ?_⟩
      rintro rfl
      exact once hq
    · rw [Function.update_of_ne hs] at hq
      refine ⟨hq, ?_⟩
      rintro rfl
      exact elsewhere s hs hq
  refine ⟨⟨?_, ?_, ?_, ?_⟩, ?_⟩
  · intro s q hq
    obtain ⟨hq, hne⟩ := h.others hpath hq
    dsimp only
    rw [Function.update_of_ne (nowhere s q hq), Function.update_of_ne hne]
    exact h.there s q hq
  · intro s s' q hq hq'
    exact h.apart s s' q (h.others hpath hq).1 (h.others hpath hq').1
  · intro s q hq
    obtain ⟨hq, htarget⟩ := awaiting s q hq
    dsimp only
    rw [Function.update_of_ne htarget]
    by_cases hne : q = path
    · rw [hne, Function.update_self]
    · rw [Function.update_of_ne hne]
      exact h.absent s q hq
  · intro r hr off
    rcases List.mem_append.mp hr with hr | hr
    · exact h.clean r hr off
    · rw [List.mem_singleton.mp hr] at off ⊢
      dsimp only at off ⊢
      rw [safe off]
      rfl
  · intro t' ht
    refine own_eq (Function.update_of_ne ht _ _) (Function.update_of_ne ht _ _) ?_ fun q hq => ?_
    · dsimp only
      simp [List.filter_append, Ne.symm ht]
    · dsimp only
      rw [Function.update_of_ne (nowhere t' q hq),
        Function.update_of_ne (h.elsewhere hpath hq ht)]

theorem UploadInv.setAwaiting {targets : List LocalPath} (h : UploadInv u)
    (absent : ∀ path ∈ targets, u.files path = none) :
    UploadInv (u.setAwaiting t targets) ∧
      ∀ t', t' ≠ t → (u.setAwaiting t targets).own t' = u.own t' := by
  refine ⟨⟨h.there, h.apart, ?_, h.clean⟩, ?_⟩
  · intro s q hq
    unfold UploadWorld.setAwaiting at hq ⊢
    dsimp only at hq ⊢
    by_cases hs : s = t
    · rw [hs, Function.update_self] at hq
      exact absent q hq
    · rw [Function.update_of_ne hs] at hq
      exact h.absent s q hq
  · intro t' ht
    exact own_eq rfl (Function.update_of_ne ht _ _) rfl fun _ _ => rfl

theorem checkTargets_ok {targets : List LocalPath}
    (h : checkTargets u.files false targets = .ok ()) : ∀ path ∈ targets, u.files path = none := by
  induction targets with
  | nil => simp
  | cons target rest ih =>
    unfold checkTargets at h
    split at h
    · cases h
    · rename_i hne
      intro path hpath
      rcases List.mem_cons.mp hpath with rfl | hpath
      · simpa using hne
      · exact ih h path hpath

/-- **A careful step keeps the invariant and what is others'**, where a rename that does not look
    again finds nothing, or may overwrite. -/
theorem step_keeps {o : LocalOp} {a : o.Ans} (h : UploadInv u) (step : o.step t l a u v)
    (careful : Careful t l o a u v)
    (safe : ∀ target mode, o = .finish target mode true → l.overwrite = false →
      u.files target = none)
    (honest : ∀ target mode mayReplace, o = .finish target mode mayReplace →
      mayReplace = true ∨ mayReplace = l.overwrite) :
    UploadInv v ∧ ∀ t', t' ≠ t → v.own t' = u.own t' := by
  cases o with
  | check targets =>
    rcases step with ⟨-, hcheck, rfl⟩ | ⟨e, -, rfl⟩
    · split
      · rename_i hunguarded
        have off : l.overwrite = false := by
          cases l with
          | form overwrite uploads =>
            have off : overwrite = false := by simpa [UploadRequest.unguarded] using hunguarded
            exact off
          | stream overwrite target chunks => cases hunguarded
        rw [off] at hcheck
        exact h.setAwaiting (checkTargets_ok hcheck)
      · exact ⟨h, fun _ _ => rfl⟩
    · exact ⟨h, fun _ _ => rfl⟩
  | create target =>
    rcases step with ⟨id, -, free, rfl⟩ | ⟨e, -, rfl⟩
    · exact h.create free (careful _ (Function.update_self _ _ _))
    · exact ⟨h, fun _ _ => rfl⟩
  | receive =>
    obtain rfl : v = u := step
    exact ⟨h, fun _ _ => rfl⟩
  | write chunk =>
    rcases step with ⟨-, rfl⟩ | ⟨e, -, rfl⟩
    · exact h.append
    · exact ⟨h, fun _ _ => rfl⟩
  | finish target mode mayReplace =>
    rcases step with ⟨looked, rfl, ha⟩ | ⟨e, -, rfl⟩
    · rcases careful with ⟨e, rfl⟩ | ⟨-, elsewhere, once, plain⟩
      · rcases ha with ha | ⟨e', ha⟩ <;> cases ha
      · refine h.rename elsewhere once plain fun off => ?_
        rcases honest target mode mayReplace rfl with rfl | rfl
        · exact safe target mode rfl off
        · exact looked off
    · exact ⟨h, fun _ _ => rfl⟩
  | cleanup =>
    rcases step with ⟨-, rfl⟩ | ⟨e, -, rfl⟩
    · exact h.unlink
    · exact ⟨h, fun _ _ => rfl⟩
  | close =>
    obtain rfl : v = _ := step
    exact h.setAwaiting (by simp)

end steps

/-! ## 5. The programs -/

/-- What a step of a request writes down, and what it changes. -/
structure Recorded (t : Nat) (l : UploadRequest) (u v : UploadWorld) : Prop where
  renames : v.renames = u.renames ∨ ∃ r, v.renames = u.renames ++ [r] ∧ r.upload = t ∧
    r.overwrite = l.overwrite ∧ r.existed = (u.files r.target).isSome ∧
    (v.files r.target).map LocalFile.content = some r.content
  /-- Its temporary file, and the target of a rename. -/
  files : ∀ path, v.files path ≠ u.files path → u.temporary t = some path ∨
    v.temporary t = some path ∨ ∃ r, v.renames = u.renames ++ [r] ∧ r.target = path

/-- How a request that ends has ended: it stored the files up to one, or all of them, and it has
    no temporary file. -/
def Outcome (t : Nat) (l : UploadRequest) (r : Except UploadError Unit) (w : UploadWorld) : Prop :=
  ∃ stored rest, l.uploads = stored ++ rest ∧
    ((w.renames.filter fun r => r.upload = t).map fun r => (r.target, r.content)) = stored ∧
    w.temporary t = none ∧
    (r = .ok () → rest = []) ∧ ∀ e, r = .error e → rest ≠ [] ∨ l.uploads = []

section programs

variable {t : Nat} {l : UploadRequest} {u v w : UploadWorld} {maxBytes : Nat}

theorem Recorded.refl : Recorded t l u u := ⟨.inl rfl, fun _ hne => absurd rfl hne⟩

/-- The one file that an update changes. -/
theorem eq_of_changed {file : Option LocalFile} {path path' : LocalPath}
    (h : Function.update u.files path file path' ≠ u.files path') : path' = path := by
  by_contra hne
  exact h (Function.update_of_ne hne _ _)

theorem recorded {o : LocalOp} {a : o.Ans} (step : o.step t l a u v) : Recorded t l u v := by
  cases o with
  | check targets =>
    rcases step with ⟨-, -, rfl⟩ | ⟨e, -, rfl⟩
    · split <;> exact ⟨.inl rfl, fun _ hne => absurd rfl hne⟩
    · exact .refl
  | create target =>
    rcases step with ⟨id, -, -, rfl⟩ | ⟨e, -, rfl⟩
    · refine ⟨.inl rfl, fun path hne => .inr (.inl ?_)⟩
      rw [eq_of_changed hne]
      exact Function.update_self _ _ _
    · exact .refl
  | receive =>
    obtain rfl : v = u := step
    exact .refl
  | write chunk =>
    rcases step with ⟨-, rfl⟩ | ⟨e, -, rfl⟩
    · unfold UploadWorld.append
      split
      · exact .refl
      rename_i temporary htemporary
      refine ⟨.inl rfl, fun path hne => .inl ?_⟩
      rw [eq_of_changed hne, htemporary]
    · exact .refl
  | finish target mode mayReplace =>
    rcases step with ⟨-, rfl, -⟩ | ⟨e, -, rfl⟩
    · unfold UploadWorld.rename
      split
      · exact .refl
      rename_i temporary htemporary
      refine ⟨.inr ⟨_, rfl, rfl, rfl, rfl, ?_⟩, fun path hne => ?_⟩
      · dsimp only
        rw [Function.update_self]
        rfl
      · by_cases htarget : path = target
        · exact .inr (.inr ⟨_, rfl, htarget.symm⟩)
        · dsimp only at hne
          rw [Function.update_of_ne htarget] at hne
          rw [eq_of_changed hne]
          exact .inl htemporary
    · exact .refl
  | cleanup =>
    rcases step with ⟨-, rfl⟩ | ⟨e, -, rfl⟩
    · unfold UploadWorld.unlink
      split
      · exact .refl
      rename_i temporary htemporary
      refine ⟨.inl rfl, fun path hne => .inl ?_⟩
      rw [eq_of_changed hne, htemporary]
    · exact .refl
  | close =>
    obtain rfl : v = _ := step
    exact ⟨.inl rfl, fun _ hne => absurd rfl hne⟩

abbrev carefulSystem (maxBytes : Nat) : System LocalSig UploadError :=
  (uploadSystem maxBytes).restrict Careful

/-- Each request relies on what is its own. -/
def uploadOutline (maxBytes : Nat) : Outline (carefulSystem maxBytes) where
  inv := UploadInv
  rely := fun t _ u v => v.own t = u.own t
  ok := fun t l _ _ u v => Recorded t l u v
  post := Outcome
  rely_refl := fun _ _ _ => rfl
  rely_trans := fun _ _ _ _ _ h h' => h'.trans h
  start_keeps := by
    intro t l u v h hv
    obtain rfl : v = u := hv
    exact ⟨h, fun _ _ _ => rfl⟩
  env_keeps := fun _ _ _ h => h.elim

/-- The contract of a request. -/
abbrev uploadContract (maxBytes t : Nat) (l : UploadRequest) : Contract LocalSig UploadWorld :=
  (uploadOutline maxBytes).contract t l

/-- **An operation**, from a state with this of the request's own. -/
theorem perform_wp {o : LocalOp} {m : Own} {Q : Except UploadError o.Ans → UploadWorld → Prop}
    (hw : w.own t = m)
    (safe : ∀ u : UploadWorld, u.own t = m → UploadInv u → ∀ target mode,
      o = .finish target mode true → l.overwrite = false → u.files target = none)
    (honest : ∀ target mode mayReplace, o = .finish target mode mayReplace →
      mayReplace = true ∨ mayReplace = l.overwrite)
    (h : ∀ (u : UploadWorld) a v, u.own t = m → o.step t l a u v → Careful t l o a u v →
      Q (.ok a) v) :
    (perform o).wp (uploadContract maxBytes t l) Q w := by
  intro u hu hinv a v hstep
  obtain ⟨step, careful⟩ := hstep
  have own : u.own t = m := hu.trans hw
  have kept := step_keeps hinv step careful (safe u own hinv) honest
  exact ⟨⟨kept.1, fun t' _ ht => kept.2 t' ht, recorded step⟩, h u a v own step careful⟩

variable {A : List LocalPath} {R : List Renamed} {m : Own} {file : LocalFile}
variable {path target : LocalPath} {mayReplace : Bool}

theorem own_temporary (hu : u.own t = m) : u.temporary t = m.temporary := hu ▸ rfl

theorem own_awaiting (hu : u.own t = m) : u.awaiting t = m.awaiting := hu ▸ rfl

theorem own_renames (hu : u.own t = m) : (u.renames.filter fun r => r.upload = t) = m.renames :=
  hu ▸ rfl

theorem own_file (hu : u.own t = ⟨some path, A, R, some file⟩) : u.files path = some file := by
  have htemporary := own_temporary hu
  have hfile : (u.temporary t).bind u.files = some file := congrArg Own.file hu
  rw [htemporary] at hfile
  exact hfile

/-- An operation that renames nothing. -/
def LocalOp.Plain : LocalOp → Prop
  | .finish _ _ _ => False
  | _ => True

theorem perform_plain {o : LocalOp} {Q : Except UploadError o.Ans → UploadWorld → Prop}
    (plain : o.Plain) (hw : w.own t = m)
    (h : ∀ (u : UploadWorld) a v, u.own t = m → o.step t l a u v → Careful t l o a u v →
      Q (.ok a) v) :
    (perform o).wp (uploadContract maxBytes t l) Q w := by
  refine perform_wp hw ?_ ?_ h
  · rintro _ _ _ _ _ rfl
    exact plain.elim
  · rintro _ _ _ rfl
    exact plain.elim

theorem receive_wp {Q : Except UploadError Unit → UploadWorld → Prop} (hw : w.own t = m)
    (h : ∀ r (v : UploadWorld), v.own t = m → Q r v) :
    receive.wp (uploadContract maxBytes t l) Q w := by
  unfold receive
  rw [Prog.wp_bind]
  refine perform_plain trivial hw fun u a v hu step _ => ?_
  obtain rfl : v = u := step
  rw [onResult_ok, Prog.wp_ofExcept]
  exact h a v hu

theorem createTemporary_wp {Q : Except UploadError Nat → UploadWorld → Prop}
    (hw : w.own t = ⟨none, A, R, none⟩)
    (ok : ∀ mode path (v : UploadWorld), v.own t = ⟨some path, A, R, some ⟨[], 0o600⟩⟩ →
      Q (.ok mode) v)
    (error : ∀ e (v : UploadWorld), v.own t = ⟨none, A, R, none⟩ → Q (.error e) v) :
    (createTemporary target).wp (uploadContract maxBytes t l) Q w := by
  unfold createTemporary
  rw [Prog.wp_bind]
  refine perform_plain trivial hw fun u a v hu step _ => ?_
  rw [onResult_ok, Prog.wp_ofExcept]
  rcases step with ⟨id, rfl, -, rfl⟩ | ⟨e, rfl, rfl⟩
  · refine ok _ (temporaryOf target id) _ ?_
    unfold UploadWorld.own UploadWorld.create
    dsimp only
    rw [Function.update_self, Option.bind_some, Function.update_self, own_awaiting hu,
      own_renames hu]
  · exact error e v hu

theorem writeChunk_wp {chunk : Bytes} {Q : Except UploadError Unit → UploadWorld → Prop}
    (hw : w.own t = ⟨some path, A, R, some file⟩)
    (ok : ∀ (v : UploadWorld),
      v.own t = ⟨some path, A, R, some { file with content := file.content ++ chunk }⟩ →
      Q (.ok ()) v)
    (error : ∀ e (v : UploadWorld), v.own t = ⟨some path, A, R, some file⟩ → Q (.error e) v) :
    (writeChunk chunk).wp (uploadContract maxBytes t l) Q w := by
  unfold writeChunk
  rw [Prog.wp_bind]
  refine perform_plain trivial hw fun u a v hu step _ => ?_
  rw [onResult_ok, Prog.wp_ofExcept]
  rcases step with ⟨rfl, rfl⟩ | ⟨e, rfl, rfl⟩
  · refine ok _ ?_
    have htemporary : u.temporary t = some path := own_temporary hu
    unfold UploadWorld.append
    rw [htemporary]
    unfold UploadWorld.own
    dsimp only
    rw [htemporary, Option.bind_some, Function.update_self, own_file hu, own_awaiting hu,
      own_renames hu]
    rfl
  · exact error e v hu

theorem cleanup_wp {f : Option LocalFile} {Q : Except UploadError Unit → UploadWorld → Prop}
    (hw : w.own t = ⟨some path, A, R, f⟩)
    (ok : ∀ (v : UploadWorld), v.own t = ⟨none, A, R, none⟩ → Q (.ok ()) v) :
    cleanup.wp (uploadContract maxBytes t l) Q w := by
  unfold cleanup
  rw [Prog.wp_bind]
  refine perform_plain trivial hw fun u a v hu step careful => ?_
  obtain rfl : a = .ok () := careful
  rw [onResult_ok, Prog.wp_ofExcept]
  rcases step with ⟨-, rfl⟩ | ⟨e, he, -⟩
  · refine ok _ ?_
    have htemporary : u.temporary t = some path := own_temporary hu
    unfold UploadWorld.unlink
    rw [htemporary]
    unfold UploadWorld.own
    dsimp only
    rw [Function.update_self, own_awaiting hu, own_renames hu]
    rfl
  · cases he

/-- The rename, of a form's file that is still awaited, or of a stream's. -/
theorem finish_wp {mode : Nat} {Q : Except UploadError Finished → UploadWorld → Prop}
    (hw : w.own t = ⟨some path, A, R, some file⟩)
    (awaited : mayReplace = true → l.overwrite = false → target ∈ A)
    (honest : mayReplace = true ∨ mayReplace = l.overwrite)
    (done : ∀ r (v : UploadWorld), v.own t = ⟨none, A.erase target, R ++ [r], none⟩ →
      r.target = target → r.content = file.content → Q (.ok .done) v)
    (failed : ∀ e (v : UploadWorld), v.own t = ⟨some path, A, R, some file⟩ →
      Q (.ok (.failed e)) v) :
    (perform (.finish target mode mayReplace)).wp (uploadContract maxBytes t l) Q w := by
  refine perform_wp hw ?_ ?_ fun u a v hu step careful => ?_
  · intro u hu hinv target' mode' ho off
    cases ho
    exact hinv.absent t target (own_awaiting hu ▸ awaited rfl off)
  · intro target' mode' mayReplace' ho
    cases ho
    exact honest
  · rcases step with ⟨-, rfl, ha⟩ | ⟨e, rfl, rfl⟩
    · rcases careful with ⟨e, rfl⟩ | ⟨rfl, -⟩
      · rcases ha with ha | ⟨e', ha⟩ <;> cases ha
      · have htemporary : u.temporary t = some path := own_temporary hu
        refine done ⟨t, target, l.overwrite, (u.files target).isSome, file.content⟩ _ ?_ rfl rfl
        unfold UploadWorld.rename
        rw [htemporary]
        unfold UploadWorld.own
        dsimp only
        rw [Function.update_self, Function.update_self, List.filter_append, own_renames hu,
          own_awaiting hu, own_file hu]
        simp
    · exact failed e v hu

theorem storeChunks_wp {total : Nat} {chunks : List Bytes}
    {Q : Except UploadError Unit → UploadWorld → Prop}
    (hw : w.own t = ⟨some path, A, R, some file⟩)
    (ok : ∀ (f : LocalFile) (v : UploadWorld), f.content = file.content ++ chunks.flatten →
      v.own t = ⟨some path, A, R, some f⟩ → Q (.ok ()) v)
    (error : ∀ e f (v : UploadWorld), v.own t = ⟨some path, A, R, some f⟩ → Q (.error e) v) :
    (storeChunks maxBytes total chunks).wp (uploadContract maxBytes t l) Q w := by
  induction chunks generalizing total file w with
  | nil =>
    refine receive_wp hw fun r v hv => ?_
    cases r with
    | ok _ => exact ok file v (List.append_nil _).symm hv
    | error e => exact error e file v hv
  | cons chunk rest ih =>
    unfold storeChunks
    rw [Prog.wp_bind]
    refine receive_wp hw fun r v hv => ?_
    cases r with
    | error e => exact error e file v hv
    | ok _ =>
      rw [onResult_ok]
      split
      · rename_i hnil
        refine ih hv fun f v hf hv => ok f v ?_ hv
        rw [hf, hnil, List.flatten_cons, List.nil_append]
      · split
        · exact error _ file v hv
        · rw [Prog.wp_bind]
          refine writeChunk_wp hv (fun v hv => ?_) fun e v hv => error e file v hv
          rw [onResult_ok]
          refine ih hv fun f v hf hv => ok f v ?_ hv
          rw [hf, List.flatten_cons, List.append_assoc]

/-- **One file is stored**: it is renamed to its target with its own bytes, or its temporary file
    is gone. -/
theorem store_wp {chunks : List Bytes} {Q : Except UploadError Unit → UploadWorld → Prop}
    (hw : w.own t = ⟨none, A, R, none⟩)
    (awaited : mayReplace = true → l.overwrite = false → target ∈ A)
    (honest : mayReplace = true ∨ mayReplace = l.overwrite)
    (ok : ∀ r (v : UploadWorld), v.own t = ⟨none, A.erase target, R ++ [r], none⟩ →
      r.target = target → r.content = chunks.flatten → Q (.ok ()) v)
    (error : ∀ e (v : UploadWorld), v.own t = ⟨none, A, R, none⟩ → Q (.error e) v) :
    (store maxBytes target chunks mayReplace).wp (uploadContract maxBytes t l) Q w := by
  have cleans : ∀ {e f path} {v : UploadWorld}, v.own t = ⟨some path, A, R, f⟩ →
      (do cleanup; .raise e : LocalProg Unit).wp (uploadContract maxBytes t l) Q v := by
    intro e f path v hv
    rw [Prog.wp_bind]
    exact cleanup_wp hv fun v hv => error e v hv
  unfold store
  rw [Prog.wp_bind]
  refine createTemporary_wp hw (fun mode path v hv => ?_) fun e v hv => error e v hv
  rw [onResult_ok, Prog.wp_bind, Prog.wp_attempt]
  refine storeChunks_wp hv (fun f v hf hv => ?_) fun e f v hv => cleans hv
  rw [onResult_ok, Prog.wp_bind]
  refine finish_wp hv awaited honest (fun r v hv htarget hcontent => ?_) fun e v hv => cleans hv
  exact ok r v hv htarget (hcontent.trans hf)

/-- The targets and the bytes of some renames. -/
def placed (rs : List Renamed) : List (LocalPath × Bytes) := rs.map fun r => (r.target, r.content)

def FormFile.upload (upload : FormFile) : LocalPath × Bytes := (upload.target, upload.content)

/-- The loop over the files of a form. -/
theorem storeUploads_wp {uploads : List FormFile} {Q : Except UploadError Unit → UploadWorld → Prop}
    (hw : w.own t = ⟨none, A, R, none⟩)
    (awaited : l.overwrite = false → A = uploads.map FormFile.target)
    (h : ∀ r rs stored rest A' (v : UploadWorld), uploads = stored ++ rest →
      placed rs = stored.map FormFile.upload → v.own t = ⟨none, A', R ++ rs, none⟩ →
      (r = .ok () → rest = []) → (∀ e, r = .error e → rest ≠ []) → Q r v) :
    (storeUploads maxBytes uploads).wp (uploadContract maxBytes t l) Q w := by
  induction uploads generalizing R A w with
  | nil =>
    refine h (.ok ()) [] [] [] A w rfl rfl ?_ (fun _ => rfl) (by simp)
    rw [List.append_nil]
    exact hw
  | cons upload uploads ih =>
    have first : true = true → l.overwrite = false → upload.target ∈ A := by
      intro _ off
      rw [awaited off]
      exact List.mem_cons_self
    have whole : (readChunks (1024 * 1024) upload.content.length upload.content).flatten =
        upload.content := readChunks_flatten (by decide) (Nat.le_refl _)
    unfold storeUploads
    rw [Prog.wp_bind]
    refine store_wp hw first (.inl rfl) (fun r v hv htarget hcontent => ?_) fun e v hv => ?_
    · rw [onResult_ok]
      refine ih hv (fun off => ?_) fun r' rs stored rest A' v' split hrs hv' hok herror => ?_
      · rw [awaited off, List.map_cons, List.erase_cons_head]
      · refine h r' (r :: rs) (upload :: stored) rest A' v' (by rw [split]; rfl) ?_ ?_ hok herror
        · unfold placed at hrs ⊢
          rw [List.map_cons, List.map_cons, hrs, htarget, hcontent, whole]
          rfl
        · rw [hv', List.append_assoc]
          rfl
    · refine h (.error e) [] [] (upload :: uploads) A v rfl rfl ?_ (by simp) (by simp)
      rw [List.append_nil]
      exact hv

theorem own_setAwaiting {B : List LocalPath} (hu : u.own t = ⟨none, A, R, none⟩) :
    (u.setAwaiting t B).own t = ⟨none, B, R, none⟩ := by
  have htemporary : u.temporary t = none := own_temporary hu
  unfold UploadWorld.own UploadWorld.setAwaiting
  dsimp only
  rw [htemporary, Function.update_self, own_renames hu]
  rfl

theorem checkTargetsOp_wp {targets : List LocalPath}
    {Q : Except UploadError Unit → UploadWorld → Prop} (hw : w.own t = ⟨none, [], R, none⟩)
    (ok : ∀ A (v : UploadWorld), (l.unguarded = true → A = targets) →
      v.own t = ⟨none, A, R, none⟩ → Q (.ok ()) v)
    (error : ∀ e (v : UploadWorld), v.own t = ⟨none, [], R, none⟩ → Q (.error e) v) :
    (checkTargetsOp targets).wp (uploadContract maxBytes t l) Q w := by
  unfold checkTargetsOp
  rw [Prog.wp_bind]
  refine perform_plain trivial hw fun u a v hu step _ => ?_
  rw [onResult_ok, Prog.wp_ofExcept]
  rcases step with ⟨rfl, -, rfl⟩ | ⟨e, rfl, rfl⟩
  · split
    · exact ok targets _ (fun _ => rfl) (own_setAwaiting hu)
    · rename_i hguarded
      exact ok [] _ (fun h => absurd h hguarded) hu
  · exact error e v hu

theorem closeUploads_wp {uploads : List FormFile}
    {Q : Except UploadError Unit → UploadWorld → Prop} (hw : w.own t = ⟨none, A, R, none⟩)
    (h : ∀ A' (v : UploadWorld), v.own t = ⟨none, A', R, none⟩ → Q (.ok ()) v) :
    (closeUploads uploads).wp (uploadContract maxBytes t l) Q w := by
  induction uploads generalizing A w with
  | nil => exact h A w hw
  | cons upload rest ih =>
    unfold closeUploads
    rw [Prog.wp_bind]
    refine perform_plain trivial hw fun u a v hu step _ => ?_
    obtain rfl : v = _ := step
    rw [onResult_ok]
    exact ih (own_setAwaiting hu)

theorem outcome_of_own {r : Except UploadError Unit} {stored rest : List (LocalPath × Bytes)}
    (hw : w.own t = ⟨none, A, R, none⟩) (split : l.uploads = stored ++ rest)
    (hplaced : placed R = stored) (ok : r = .ok () → rest = [])
    (error : ∀ e, r = .error e → rest ≠ [] ∨ l.uploads = []) : Outcome t l r w := by
  refine ⟨stored, rest, split, ?_, own_temporary hw, ok, error⟩
  rw [own_renames hw]
  exact hplaced

/-- **A form**: of its files some first ones are stored, and where it succeeds all of them. -/
theorem uploadFiles_wp {overwrite : Bool} {uploads : List FormFile}
    (hw : w.own t = ⟨none, [], [], none⟩) (hl : l = .form overwrite uploads) :
    (uploadFiles maxBytes uploads).wp (uploadContract maxBytes t l) (Outcome t l) w := by
  have huploads : l.uploads = uploads.map FormFile.upload := by
    rw [hl]
    rfl
  have nothing : ∀ {e A} {v : UploadWorld}, uploads ≠ [] → v.own t = ⟨none, A, [], none⟩ →
      Outcome t l (.error e) v := by
    intro e A v hne hv
    refine outcome_of_own hv (List.nil_append _).symm rfl (by simp) fun _ _ => .inl ?_
    rw [huploads]
    simpa using hne
  unfold uploadFiles
  split
  · rename_i hnil
    refine outcome_of_own hw (List.nil_append _).symm rfl (by simp) fun _ _ => .inr ?_
    rw [huploads, hnil]
    rfl
  rename_i hne
  -- closing the files of the form changes nothing of its own
  have closes : ∀ {r A R'} {v : UploadWorld}, v.own t = ⟨none, A, R', none⟩ →
      (∀ A' (v' : UploadWorld), v'.own t = ⟨none, A', R', none⟩ → Outcome t l r v') →
      (do closeUploads uploads; Prog.ofExcept r : LocalProg Unit).wp
        (uploadContract maxBytes t l) (Outcome t l) v := by
    intro r A R' v hv h
    rw [Prog.wp_bind]
    refine closeUploads_wp hv fun A' v' hv' => ?_
    rw [onResult_ok, Prog.wp_ofExcept]
    exact h A' v' hv'
  unfold Prog.finally_
  rw [Prog.wp_bind, Prog.wp_attempt]
  unfold storeForm
  split
  · rw [Prog.wp_bind]
    refine checkTargetsOp_wp hw (fun A v hA hv => ?_) fun e v hv => ?_
    · rw [onResult_ok]
      have awaited : l.overwrite = false → l.unguarded = true := by
        rw [hl]
        intro off
        have off' : overwrite = false := off
        rw [off']
        rfl
      refine storeUploads_wp hv (fun off => hA (awaited off)) ?_
      intro r rs stored rest A' v' split hrs hv' hok herror
      have ends : ∀ A'' (v'' : UploadWorld), v''.own t = ⟨none, A'', [] ++ rs, none⟩ →
          Outcome t l r v'' := by
        intro A'' v'' hv''
        have all : l.uploads = stored.map FormFile.upload ++ rest.map FormFile.upload := by
          rw [huploads, split, List.map_append]
        refine outcome_of_own hv'' all hrs (fun h => ?_) fun e h => .inl ?_
        · rw [hok h]
          rfl
        · simpa using herror e h
      cases r with
      | ok a => exact closes hv' ends
      | error e => exact closes hv' ends
    · exact closes hv fun A' v' hv' => nothing hne hv'
  · rw [Prog.wp_raise, onResult_ok]
    exact closes hw fun A' v' hv' => nothing hne hv'

/-- A stream. -/
theorem uploadFileStream_wp {overwrite : Bool} {chunks : List Bytes}
    (hw : w.own t = ⟨none, [], [], none⟩) (hl : l = .stream overwrite target chunks) :
    (uploadFileStream maxBytes target chunks overwrite).wp (uploadContract maxBytes t l)
      (Outcome t l) w := by
  have huploads : l.uploads = [(target, chunks.flatten)] := by
    rw [hl]
    rfl
  have nothing : ∀ {e A} {v : UploadWorld}, v.own t = ⟨none, A, [], none⟩ →
      Outcome t l (.error e) v := by
    intro e A v hv
    refine outcome_of_own hv (List.nil_append _).symm rfl (by simp) fun _ _ => .inl ?_
    rw [huploads]
    simp
  unfold uploadFileStream storeRequestUpload
  rw [Prog.wp_bind]
  refine checkTargetsOp_wp hw (fun A v _ hv => ?_) fun e v hv => nothing hv
  rw [onResult_ok]
  have same : overwrite = l.overwrite := by
    rw [hl]
    rfl
  refine store_wp hv ?_ (.inr same) (fun r v hv htarget hcontent => ?_) fun e v hv => nothing hv
  · intro hreplace off
    cases hreplace.symm.trans (same.trans off)
  · refine outcome_of_own hv (List.append_nil _).symm ?_ (fun _ => rfl) (by simp)
    rw [huploads]
    unfold placed
    rw [List.nil_append, List.map_singleton, htarget, hcontent]

end programs

/-! ## 6. Every run -/

section runs

variable {maxBytes : Nat} {files : LocalPath → Option LocalFile}

theorem UploadInv.init : UploadInv (.init files) := by
  refine ⟨?_, ?_, ?_, ?_⟩
  · intro t path h
    cases h
  · intro t t' path h
    cases h
  · intro t path h
    exact absurd h List.not_mem_nil
  · intro r h
    exact absurd h List.not_mem_nil

theorem upload_proved : (uploadOutline maxBytes).Proved (.init files) := by
  intro t l u v _ rely started
  obtain rfl : v = u := started
  have own : v.own t = ⟨none, [], [], none⟩ := rely
  cases l with
  | form overwrite uploads => exact uploadFiles_wp own rfl
  | stream overwrite target chunks => exact uploadFileStream_wp own rfl

end runs

/-- **Uploads are safe where nobody renames to a target that a form still awaits**: in every
    interleaving no upload with overwrite off replaces a file, each step of a request changes its
    own temporary file and the targets it renames to, with the bytes it wrote down, and a request
    that ends has stored its files up to the one it failed at, or all of them, and left no
    temporary file. -/
theorem uploads_safe (maxBytes : Nat) (files : LocalPath → Option LocalFile) :
    (∀ es p, (carefulSystem maxBytes).Runs (.init files) es p →
      ∀ r ∈ p.world.renames, r.overwrite = false → r.existed = false) ∧
    (∀ es p t l o a p', (carefulSystem maxBytes).Runs (.init files) es p →
      Pool.Step (carefulSystem maxBytes) p (.act t l o a) p' → Recorded t l p.world p'.world) ∧
    ∀ es p t l o a p' prog r, (carefulSystem maxBytes).Runs (.init files) es p →
      Pool.Step (carefulSystem maxBytes) p (.act t l o a) p' →
      p'.threads[t]? = some ⟨l, prog⟩ → Thread.ended ⟨l, prog⟩ r → Outcome t l r p'.world := by
  refine ⟨?_, ?_, ?_⟩
  · intro es p run
    exact (Outline.inv_of_run upload_proved UploadInv.init run).clean
  · intro es p t l o a p' run step
    exact Outline.ok_of_run upload_proved UploadInv.init run step
  · intro es p t l o a p' prog r run step there ended
    exact Outline.post_of_run upload_proved UploadInv.init run step there ended

/-! ## 7. Two forms for one target -/

/-- Operations that do not fail; `id` is the name of the temporary file. -/
def LocalOp.succeed (id : Text) (t : Nat) (l : UploadRequest) :
    (o : LocalOp) → UploadWorld → Option (o.Ans × UploadWorld)
  | .check targets, u =>
    match checkTargets u.files l.overwrite targets with
    | .ok () => some (.ok (), if l.unguarded then u.setAwaiting t targets else u)
    | .error _ => none
  | .create target, u =>
    if u.files (temporaryOf target id) = none then
      some (.ok (existingMode u.files target), u.create t (temporaryOf target id))
    else none
  | .receive, u => some (.ok (), u)
  | .write chunk, u => some (.ok (), u.append t chunk)
  | .finish target mode mayReplace, u =>
    if mayReplace = true ∨ u.files target = none then
      some (.done, u.rename t l.overwrite target mode)
    else none
  | .cleanup, u => some (.ok (), u.unlink t)
  | .close, u => some ((), u.setAwaiting t [])

theorem LocalOp.succeed_sound {id : Text} {t : Nat} {l : UploadRequest} {o : LocalOp}
    {a : o.Ans} {u v : UploadWorld} (h : o.succeed id t l u = some (a, v)) : o.step t l a u v := by
  cases o with
  | check targets =>
    dsimp only [LocalOp.succeed] at h
    split at h
    · cases h
      exact .inl ⟨rfl, ‹_›, rfl⟩
    · cases h
  | create target =>
    dsimp only [LocalOp.succeed] at h
    split at h
    · cases h
      exact .inl ⟨id, rfl, ‹_›, rfl⟩
    · cases h
  | receive =>
    cases h
    rfl
  | write chunk =>
    cases h
    exact .inl ⟨rfl, rfl⟩
  | finish target mode mayReplace =>
    dsimp only [LocalOp.succeed] at h
    split at h
    · rename_i free
      cases h
      refine .inl ⟨fun off => free.resolve_left ?_, rfl, .inl rfl⟩
      rw [off]
      exact Bool.false_ne_true
    · cases h
  | cleanup =>
    cases h
    exact .inl ⟨rfl, rfl⟩
  | close =>
    cases h
    rfl

def uploadPlayer (maxBytes : Nat) : Player (uploadSystem maxBytes) Text where
  start := fun _ _ u => some u
  act := fun id t l o u => o.succeed id t l u
  start_sound := by
    intro t l u v h
    cases h
    rfl
  act_sound := LocalOp.succeed_sound

def notesPath : LocalPath := ⟨"work".toList, "notes.txt".toList⟩

def notesForm (content : Bytes) : UploadRequest :=
  .form false [⟨"notes.txt".toList, notesPath, content⟩]

/-- Both forms find the target missing; the first is done before the second renames. -/
def twoForms : List (Move (uploadSystem 16) Text) :=
  [.call (notesForm [1]), .call (notesForm [2]), .act 0 [], .act 1 []] ++
    List.replicate 5 (.act 0 "a".toList) ++ List.replicate 5 (.act 1 "b".toList)

theorem twoForms_replace :
    (((uploadPlayer 16).play (.init (.init fun _ => none)) twoForms).map fun p =>
      p.world.renames.any fun r => !r.overwrite && r.existed) = some true := by
  decide +kernel

/-- **A form with overwrite off replaces what an upload stored after its check.** -/
theorem upload_replaces : ¬ ∀ maxBytes files es p,
    (uploadSystem maxBytes).Runs (.init files) es p →
      ∀ r ∈ p.world.renames, r.overwrite = false → r.existed = false := by
  intro h
  obtain ⟨p, hp, replaced⟩ := Option.map_eq_some_iff.mp twoForms_replace
  obtain ⟨es, run⟩ := (uploadPlayer 16).play_sound hp
  obtain ⟨r, hr, bad⟩ := List.any_eq_true.mp replaced
  have clean := h 16 (fun _ => none) es p run r hr
  simp only [Bool.and_eq_true, Bool.not_eq_true'] at bad
  rw [clean bad.1] at bad
  cases bad.2

end Termroom.Files
