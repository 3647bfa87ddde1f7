import Mathlib
import Termroom.Conc.Prog

/-!
# ZIP archives that may be a Source

`validate_zip_archive` decides which archives a ZIP Run may be started from, and lists what is
in them: the names are strict relative paths, no two name one path, none lies below a file,
and every member inflates to what the directory of the archive says. `materialize_zip_archive`
makes the same checks again, on the list and on the archive.

An archive is what the `zipfile` module reads of it: its directory, and what inflating each
member comes to.
-/

set_option autoImplicit false

namespace Termroom.Archive

open Conc

abbrev Text := List Char

abbrev Bytes := List UInt8

instance Text.lawfulBEq : LawfulBEq Text := inferInstanceAs (LawfulBEq (List Char))

/-! ## 1. What the archive says -/

/-- `ArchiveSafetyError`. -/
structure ArchiveSafetyError where
  message : String
  code : String
  member : Option Text
  deriving DecidableEq, Repr

/-- `if p: raise ArchiveSafetyError(message, code=code, member=member)`. -/
def reject (p : Prop) [Decidable p] (message code : String) (member : Option Text) :
    Except ArchiveSafetyError Unit :=
  if p then .error ⟨message, code, member⟩ else .ok ()

theorem reject_pos {p : Prop} [Decidable p] {message code : String} {member : Option Text}
    (h : p) : reject p message code member = .error ⟨message, code, member⟩ := if_pos h

theorem reject_neg {p : Prop} [Decidable p] {message code : String} {member : Option Text}
    (h : ¬p) : reject p message code member = .ok () := if_neg h

theorem reject_bind_ok {p : Prop} [Decidable p] {message code : String} {member : Option Text}
    {α : Type} {f : Unit → Except ArchiveSafetyError α} {a : α} :
    (reject p message code member >>= f) = .ok a ↔ ¬p ∧ f () = .ok a := by
  by_cases h : p
  · rw [reject_pos h, error_bind]
    exact ⟨nofun, fun hp => absurd h hp.1⟩
  · rw [reject_neg h, ok_bind]
    exact (and_iff_right h).symm

/-- `ArchiveLimits`; `__post_init__` refuses a limit of zero. -/
structure ArchiveLimits where
  maxUploadBytes : Nat
  maxEntries : Nat
  maxSingleFileBytes : Nat
  maxTotalBytes : Nat
  maxPathBytes : Nat
  chunkSize : Nat
  positive : 0 < maxUploadBytes ∧ 0 < maxEntries ∧ 0 < maxSingleFileBytes ∧ 0 < maxTotalBytes ∧
    0 < maxPathBytes ∧ 0 < chunkSize

def defaultArchiveLimits : ArchiveLimits where
  maxUploadBytes := 2 * 1024 ^ 3
  maxEntries := 100000
  maxSingleFileBytes := 2 * 1024 ^ 3
  maxTotalBytes := 8 * 1024 ^ 3
  maxPathBytes := 4096
  chunkSize := 1024 * 1024
  positive := by decide

/-- `zipfile.ZipInfo`. Its sizes are unsigned, so no check for a negative one is modelled. -/
structure ZipInfo where
  origFilename : Text
  flagBits : Nat
  externalAttr : Nat
  extra : Bytes
  fileSize : Nat
  compressSize : Nat
  crc : Nat
  deriving DecidableEq, Repr

/-- What ends the inflation of a member before its end. -/
inductive ReadFailure where
  /-- A `BadZipFile` that speaks of the CRC. -/
  | crc
  | invalid
  deriving DecidableEq, Repr

/-- An entry of the directory, and what inflating it yields. -/
structure Member where
  info : ZipInfo
  data : Bytes
  failure : Option ReadFailure
  deriving DecidableEq, Repr

structure ZipArchive where
  size : Nat
  magic : Bytes
  /-- `none` where `ZipFile` raises. -/
  members : Option (List Member)
  deriving DecidableEq, Repr

inductive ZipEntryKind where
  | file | directory
  deriving DecidableEq, Repr

structure ZipEntry where
  relativePath : Text
  kind : ZipEntryKind
  size : Nat
  compressedSize : Nat
  crc32 : Nat
  executable : Bool
  archiveName : Text
  deriving DecidableEq, Repr

structure ZipManifest where
  entries : List ZipEntry
  totalBytes : Nat
  cwdRel : Text
  archiveSize : Nat
  deriving DecidableEq, Repr

/-! ## 2. Names -/

/-- `unicodedata.category(character) == "Cc"`. -/
def isControl (c : Char) : Bool := c.toNat < 0x20 || 0x7F ≤ c.toNat && c.toNat < 0xA0

def utf8Length (value : Text) : Nat := (value.map Char.utf8Size).sum

/-- `"/".join`. -/
def joinPath (parts : List Text) : Text := ['/'].intercalate parts

/-- `path.split("/")`. -/
def splitPath (path : Text) : List Text := path.splitOn '/'

/-- `filename.casefold().endswith(".zip")`. No character but the ASCII letters folds to the end
    of `.zip`. -/
def endsWithZip (filename : Text) : Bool := ".zip".toList.isSuffixOf (filename.map Char.toLower)

def validateZipFilename (filename : Text) : Except ArchiveSafetyError Unit := do
  reject (filename = [] ∨ filename.any isControl) "Invalid ZIP filename" "zip_filename" none
  reject (¬endsWithZip filename) "Only .zip archives are supported" "zip_extension" none

/-- `_WINDOWS_DRIVE.match`. -/
def windowsDrive : Text → Bool
  | c :: ':' :: _ => c.isAlpha
  | _ => false

/-- The loop over the parts of a name. -/
def memberParts (rawName : Text) : List Text → Except ArchiveSafetyError (List Text)
  | [] => .ok []
  | part :: rest =>
    if part.isEmpty || part = ['.'] then memberParts rawName rest
    else if part = ['.', '.'] then
      .error ⟨"ZIP entry path cannot traverse parent directories", "zip_path_traversal",
        some rawName⟩
    else (part :: ·) <$> memberParts rawName rest

def normalizeZipMemberPath (rawName : Text) : Except ArchiveSafetyError Text := do
  reject (rawName = []) "ZIP entry has an empty path" "zip_path" none
  reject (rawName.any isControl) "ZIP entry path contains a control character" "zip_path_control"
    rawName
  reject ('\\' ∈ rawName) "ZIP entry paths must use forward slashes" "zip_path_backslash" rawName
  reject (rawName.head? = some '/' ∨ windowsDrive rawName) "ZIP entry path must be relative"
    "zip_path_absolute" rawName
  let parts ← memberParts rawName (splitPath rawName)
  reject (parts = []) "ZIP entry has an empty path" "zip_path" rawName
  reject (".termroom".toList ∈ parts) "ZIP archives cannot provide Termroom metadata"
    "zip_path_metadata" rawName
  return joinPath parts

/-! ## 3. One entry -/

/-- `stat.S_IFMT`. -/
def fileType (unixMode : Nat) : Nat := unixMode &&& 0o170000

def regularType : Nat := 0o100000

def directoryType : Nat := 0o040000

/-- `_reject_link_extra_fields`, along `_iter_extra_fields`; each field takes four bytes or
    more, so as many steps as there are bytes will do. -/
def rejectLinkExtraFields (member : Text) : Nat → Bytes → Except ArchiveSafetyError Unit
  | _, [] => .ok ()
  | steps + 1, a :: b :: c :: d :: rest =>
    let headerId := a.toNat + 256 * b.toNat
    let length := c.toNat + 256 * d.toNat
    let payload := rest.take length
    if rest.length < length then
      .error ⟨"ZIP entry has malformed extra metadata", "zip_extra", some member⟩
    else if headerId = 0x756E && payload.length < 6 then
      .error ⟨"ZIP entry has malformed Unix metadata", "zip_extra", some member⟩
    else if headerId = 0x756E &&
        let unixMode := (payload.getD 4 0).toNat + 256 * (payload.getD 5 0).toNat
        !([0, regularType, directoryType].contains (fileType unixMode)) then
      .error ⟨"ZIP archive contains a link or special file", "zip_special_entry", some member⟩
    else if headerId = 0x000D && 12 < payload.length then
      .error ⟨"ZIP archive contains unsupported link metadata", "zip_special_entry", some member⟩
    else rejectLinkExtraFields member steps (rest.drop length)
  | _, _ => .error ⟨"ZIP entry has malformed extra metadata", "zip_extra", some member⟩

/-- `_entry_from_info`. -/
def entryFromInfo (info : ZipInfo) (limits : ArchiveLimits) :
    Except ArchiveSafetyError ZipEntry := do
  let rawName := info.origFilename
  reject (limits.maxPathBytes < utf8Length rawName) "ZIP entry path exceeds the configured limit"
    "zip_path_limit" rawName
  let path ← normalizeZipMemberPath rawName
  reject (limits.maxPathBytes < utf8Length path) "ZIP entry path exceeds the configured limit"
    "zip_path_limit" rawName
  reject (info.flagBits &&& 0x1 ≠ 0) "Encrypted ZIP archives are not supported" "zip_encrypted" path
  let unixMode := (info.externalAttr >>> 16) &&& 0xFFFF
  let slashDirectory := decide (rawName.getLast? = some '/')
  reject (fileType unixMode ∉ [0, regularType, directoryType])
    "ZIP archive contains a link or special file" "zip_special_entry" path
  reject (decide (fileType unixMode = directoryType) ≠ slashDirectory ∧ fileType unixMode ≠ 0)
    "ZIP entry path and file type disagree" "zip_type_mismatch" path
  rejectLinkExtraFields path info.extra.length info.extra
  let kind : ZipEntryKind := if slashDirectory then .directory else .file
  reject (kind = .directory ∧ info.fileSize ≠ 0) "ZIP directory entry contains file data"
    "zip_type_mismatch" path
  reject (kind = .file ∧ limits.maxSingleFileBytes < info.fileSize)
    "ZIP entry exceeds the single-file limit" "zip_single_file_limit" path
  return {
    relativePath := path
    kind
    size := if kind = .file then info.fileSize else 0
    compressedSize := info.compressSize
    crc32 := info.crc &&& 0xFFFFFFFF
    executable := kind = .file && unixMode &&& 0o111 ≠ 0
    archiveName := rawName }

/-! ## 4. The entries together -/

/-- `by_path.get`. -/
def byPath (entries : List ZipEntry) (path : Text) : Option ZipEntry :=
  entries.find? fun e => e.relativePath = path

/-- `"/".join(parts[:index])` for each `index` from 1 to the last but one. -/
def ancestorPaths (path : Text) : List Text :=
  let parts := splitPath path
  (List.range' 1 (parts.length - 1)).map fun index => joinPath (parts.take index)

/-- The first ancestor that is no directory. -/
def ancestorFile (entries : List ZipEntry) (path : Text) : Option Text :=
  (ancestorPaths path).find? fun ancestorPath =>
    (byPath entries ancestorPath).any fun ancestor => ancestor.kind ≠ .directory

/-- Whether one of the paths starts with `path + "/"`. -/
def nests (entries : List ZipEntry) (path : Text) : Bool :=
  entries.any fun candidate => (path ++ ['/']).isPrefixOf candidate.relativePath

/-- The checks that keep an entry apart from those before it, with the messages for a duplicate
    path, for one below a file and for one that is a directory. -/
def checkApart (seen : List ZipEntry) (entry : ZipEntry) (duplicate directory : String)
    (below : Text → String) : Except ArchiveSafetyError Unit := do
  let path := entry.relativePath
  reject ((byPath seen path).isSome) duplicate "zip_duplicate_path" path
  match ancestorFile seen path with
  | some ancestorPath => .error ⟨below ancestorPath, "zip_path_conflict", path⟩
  | none =>
    reject (entry.kind ≠ .directory ∧ nests seen path) directory "zip_path_conflict" path

/-- The loop of `_validate_structure`; `seen` are the entries of `by_path`. -/
def validateEntries (limits : ArchiveLimits) :
    List ZipEntry → Nat → List Member →
      Except ArchiveSafetyError (List (Member × ZipEntry) × Nat)
  | _, declaredTotal, [] => .ok ([], declaredTotal)
  | seen, declaredTotal, m :: rest => do
    let entry ← entryFromInfo m.info limits
    let path := String.ofList entry.relativePath
    checkApart seen entry s!"ZIP archive contains a duplicate path: {path}"
      s!"ZIP file path conflicts with a directory: {path}"
      fun ancestorPath => "ZIP path is nested below a file: " ++ String.ofList ancestorPath
    reject (limits.maxTotalBytes < declaredTotal + entry.size)
      "ZIP archive exceeds the total extracted-size limit" "zip_total_limit" entry.relativePath
    let (pairs, total) ← validateEntries limits (seen ++ [entry]) (declaredTotal + entry.size) rest
    return ((m, entry) :: pairs, total)

/-- `_validate_structure`. -/
def validateStructure (members : List Member) (limits : ArchiveLimits) :
    Except ArchiveSafetyError (List (Member × ZipEntry) × Nat) := do
  reject (limits.maxEntries < members.length) "ZIP archive has too many entries" "zip_entry_limit"
    none
  validateEntries limits [] 0 members

/-! ## 5. The contents -/

/-- `zlib.crc32(chunk, crc)`. -/
def crc32 (chunk : Bytes) (crc : Nat) : Nat :=
  let shift (value : Nat) : Nat :=
    if value &&& 1 = 1 then (value >>> 1) ^^^ 0xEDB88320 else value >>> 1
  let step (value : Nat) (byte : UInt8) : Nat := shift^[8] (value ^^^ byte.toNat)
  chunk.foldl step (crc ^^^ 0xFFFFFFFF) ^^^ 0xFFFFFFFF

/-- `member.read(chunk_size)` until it returns nothing; as many steps as there are bytes will
    do. -/
def readChunks (chunkSize : Nat) : Nat → Bytes → List Bytes
  | 0, _ => []
  | steps + 1, data =>
    if data = [] then []
    else data.take chunkSize :: readChunks chunkSize steps (data.drop chunkSize)

/-- `_zip_read_error`. -/
def zipReadError (failure : ReadFailure) (member : Text) : ArchiveSafetyError :=
  let name := String.ofList member
  match failure with
  | .crc => ⟨s!"ZIP entry failed CRC verification: {name}", "zip_crc", some member⟩
  | .invalid => ⟨s!"Cannot safely read ZIP entry: {name}", "zip_invalid", some member⟩

/-- What a generator of chunks yields, and what it raises in the end. -/
structure ChunkStream where
  chunks : List Bytes
  failure : Option ArchiveSafetyError
  deriving DecidableEq, Repr

def ChunkStream.cons (chunk : Bytes) (s : ChunkStream) : ChunkStream :=
  { s with chunks := chunk :: s.chunks }

/-- The loop of `_iter_info_chunks`. -/
def iterChunks (entry : ZipEntry) (failure : Option ReadFailure) (limits : ArchiveLimits)
    (totalBefore : Nat) : Nat → Nat → List Bytes → ChunkStream
  | actualSize, crc, [] =>
    let name := String.ofList entry.relativePath
    match failure with
    | some failure => ⟨[], some (zipReadError failure entry.relativePath)⟩
    | none =>
      if actualSize ≠ entry.size then
        ⟨[], some ⟨s!"ZIP entry size does not match its data: {name}", "zip_size_mismatch",
          some entry.relativePath⟩⟩
      else if crc &&& 0xFFFFFFFF ≠ entry.crc32 then
        ⟨[], some ⟨s!"ZIP entry failed CRC verification: {name}", "zip_crc",
          some entry.relativePath⟩⟩
      else ⟨[], none⟩
  | actualSize, crc, chunk :: rest =>
    let actualSize := actualSize + chunk.length
    if limits.maxSingleFileBytes < actualSize then
      ⟨[], some ⟨"ZIP entry exceeds the actual single-file limit", "zip_single_file_limit",
        some entry.relativePath⟩⟩
    else if limits.maxTotalBytes < totalBefore + actualSize then
      ⟨[], some ⟨"ZIP archive exceeds the actual total extracted-size limit", "zip_total_limit",
        some entry.relativePath⟩⟩
    else (iterChunks entry failure limits totalBefore actualSize (crc32 chunk crc) rest).cons chunk

/-- `_iter_info_chunks`. -/
def iterInfoChunks (m : Member) (entry : ZipEntry) (limits : ArchiveLimits) (totalBefore : Nat) :
    ChunkStream :=
  iterChunks entry m.failure limits totalBefore 0 0
    (readChunks limits.chunkSize m.data.length m.data)

/-- Every file is inflated. -/
def inflateAll (limits : ArchiveLimits) :
    Nat → List (Member × ZipEntry) → Except ArchiveSafetyError Nat
  | actualTotal, [] => .ok actualTotal
  | actualTotal, (m, entry) :: rest =>
    if entry.kind = .directory then inflateAll limits actualTotal rest
    else
      let s := iterInfoChunks m entry limits actualTotal
      match s.failure with
      | some e => .error e
      | none => inflateAll limits (actualTotal + s.chunks.flatten.length) rest

/-! ## 6. The archive -/

/-- The key that the entries are sorted by: depth, directories first, path. -/
def ZipEntry.Before (a b : ZipEntry) : Prop :=
  let depth (e : ZipEntry) : Nat := e.relativePath.count '/'
  let rank (e : ZipEntry) : Nat := if e.kind = .directory then 0 else 1
  depth a < depth b ∨ depth a = depth b ∧
    (rank a < rank b ∨ rank a = rank b ∧ a.relativePath ≤ b.relativePath)

instance : DecidableRel ZipEntry.Before := fun a b => by
  unfold ZipEntry.Before
  infer_instance

def sortEntries (pairs : List (Member × ZipEntry)) : List ZipEntry :=
  (pairs.map Prod.snd).insertionSort ZipEntry.Before

/-- `_cwd_rel`. -/
def cwdRel (entries : List ZipEntry) : Text :=
  let topLevels := entries.map fun e => e.relativePath.takeWhile (· ≠ '/')
  match topLevels with
  | [] => ['.']
  | top :: rest =>
    if rest.all (· = top) &&
        entries.any fun e => decide (e.relativePath = top ∧ e.kind = .directory) ||
          (top ++ ['/']).isPrefixOf e.relativePath then top
    else ['.']

/-- `_ZIP_MAGIC`. -/
def zipMagic : List Bytes :=
  [[0x50, 0x4B, 0x03, 0x04], [0x50, 0x4B, 0x05, 0x06], [0x50, 0x4B, 0x07, 0x08]]

/-- The magic of the archive, and its directory. -/
def openArchive (archive : ZipArchive) : Except ArchiveSafetyError (List Member) := do
  reject (archive.magic ∉ zipMagic) "File does not have ZIP magic" "zip_magic" none
  match archive.members with
  | none => .error (zipReadError .invalid "archive".toList)
  | some members => .ok members

/-- `validate_zip_archive`. -/
def validateZipArchive (archive : ZipArchive) (limits : ArchiveLimits)
    (originalFilename : Option Text) : Except ArchiveSafetyError ZipManifest := do
  originalFilename.forM validateZipFilename
  reject (limits.maxUploadBytes < archive.size) "ZIP upload exceeds the configured limit"
    "zip_upload_limit" none
  let members ← openArchive archive
  let (pairs, _) ← validateStructure members limits
  let actualTotal ← inflateAll limits 0 pairs
  let entries := sortEntries pairs
  return ⟨entries, actualTotal, cwdRel entries, archive.size⟩

end Termroom.Archive
