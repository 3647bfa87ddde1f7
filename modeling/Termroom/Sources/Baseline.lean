import Mathlib
import Termroom.Data.JsonSort
import Termroom.Sources.Snapshot
import Termroom.Sources.Stream

/-!
# The baseline of a collection

What a Run's results are compared with is the manifest that was copied for it. The Core keeps it
in a file of its own, as JSON: `_write_collection_manifest` writes it under the id of the Run, and
`collection_manifest` reads it and builds it once more.

A manifest that a copy returned has a digest for each of its files, and a target that encodes for
each of its links, so that what is read back is what was written
(`collectionManifest_written`).
-/

set_option autoImplicit false

namespace Termroom.Sources

open Conc Conc.Stateful Archive Data

/-! ## 1. The file -/

/-- `collection_root`: what is in each file. -/
abbrev CollectionRoot := String → Option Bytes

/-- `_collection_manifest_path`, for an id that is valid. -/
def collectionManifestPath (runId : String) : String := runId ++ ".json"

/-- `target.with_suffix(".tmp")`. -/
def temporaryManifestPath (runId : String) : String := runId ++ ".tmp"

/-- An entry, as `_write_manifest` hands it on. A target with a surrogate is shown: it does not
    encode. -/
def manifestEntryPayload (entry : WorkspaceEntry) : JsonObject :=
  [("path", .str (String.ofList entry.relativePath)),
    ("kind", .str (String.ofList entry.kind.name)), ("size", .int entry.size),
    ("mtime_ns", .int entry.mtimeNs), ("executable", .bool entry.executable)] ++
  (match entry.digest with
  | some digest => [("digest", .str (String.ofList digest))]
  | none => []) ++
  match entry.linkTarget with
  | some target => if target = [] then [] else [("link_target", .str (String.ofList target.shown))]
  | none => []

def collectionPayload (entries : List JsonObject) (excludedPrefixes : List Text) : JsonObject :=
  [("version", .int 2), ("entries", .arr (entries.map .obj)),
    ("excluded_prefixes", .arr (excludedPrefixes.map fun p => .str (String.ofList p)))]

/-- `_write_collection_manifest`. -/
def writeCollectionManifest (root : CollectionRoot) (runId : String) (entries : List JsonObject)
    (excludedPrefixes : List Text) : CollectionRoot :=
  let encoded := utf8 (Json.dumps (Json.sortKeys (.obj (collectionPayload entries
    excludedPrefixes))) ++ ['\n'])
  let written := Function.update root (temporaryManifestPath runId) (some encoded)
  -- the temporary file is moved to its place
  Function.update (Function.update written (collectionManifestPath runId)
    (written (temporaryManifestPath runId))) (temporaryManifestPath runId) none

/-- What `_write_manifest` keeps of a manifest on the Core: `none` where an entry does not
    encode. -/
def writeManifest (root : CollectionRoot) (runId : String) (manifest : WorkspaceManifest) :
    Option CollectionRoot :=
  if ∀ e ∈ manifest.entries, e.Encodes then
    some (writeCollectionManifest root runId (manifest.entries.map manifestEntryPayload)
      manifest.excludedPrefixes)
  else none

/-! ## 2. Reading it -/

/-- What `collection_manifest` raises. -/
inductive CollectionError where
  | remoteRun (message code : String)
  | type (message : String)
  deriving DecidableEq, Repr

def baselineError (what : String) : CollectionError :=
  .remoteRun ("Remote Run Source baseline is " ++ what) "collection_baseline_invalid"

/-- A file that is opened as text: its line ends are read as newlines. -/
def universalNewlines : Text → Text
  | [] => []
  | '\r' :: '\n' :: rest => '\n' :: universalNewlines rest
  | c :: rest => (if c = '\r' then '\n' else c) :: universalNewlines rest

/-- `path.read_text(encoding="utf-8")`. -/
def readText (raw : Bytes) : Option Text := (decodeUtf8 raw).map universalNewlines

/-- Which of the versions 1 and 2 a value equals; a list and a `dict` cannot be looked up. -/
def collectionVersion : Json → Except CollectionError (Option Nat)
  | .int 1 | .bool true | .float "1.0" => .ok (some 1)
  | .int 2 | .float "2.0" => .ok (some 2)
  | .arr _ => .error (.type "unhashable type: 'list'")
  | .obj _ => .error (.type "unhashable type: 'dict'")
  | _ => .ok none

variable (python : Conversions) (isalpha : Char → Bool)

/-- `int(value.get(name) or 0)`. -/
def intField (fields : JsonObject) (name : String) : Option Int :=
  let value := Json.get fields name
  if value.truthy then python.toInt value else some 0

/-- `str(value[name]) if value.get(name) is not None else None`. -/
def optionalField (fields : JsonObject) (name : String) : Option Text :=
  match Json.get fields name with
  | .null => none
  | value => some (python.toStr value)

def baselineEntry : Json → Option WorkspaceEntry
  | .obj fields => do
    let size ← intField python fields "size"
    let mtimeNs ← intField python fields "mtime_ns"
    return {
      relativePath := textField python fields "path"
      kind := kindOf (textField python fields "kind")
      size, mtimeNs
      executable := Json.get fields "executable" = .bool true
      linkTarget := (optionalField python fields "link_target").map .ofText
      digest := optionalField python fields "digest" }
  | _ => none

def stringItem : Json → Option Text
  | .str value => some value.toList
  | _ => none

/-- `excluded_values`: the first version had none. -/
def excludedValues (raw : JsonObject) (version : Nat) : Option (List Text) :=
  match if version = 2 then Json.get raw "excluded_prefixes" else .arr [] with
  | .arr values => values.mapM stringItem
  | _ => none

/-- The part of `collection_manifest` that answers every failure in one way. -/
def baselineManifest (raw : JsonObject) (version : Nat) (values : List Json) :
    Option WorkspaceManifest := do
  let excludedPrefixes ← excludedValues raw version
  let entries ← values.mapM (baselineEntry python)
  (buildWorkspaceManifest isalpha entries excludedPrefixes).toOption

/-- The checks on what the file holds. -/
def readCollection (raw : JsonObject) : Except CollectionError (Option WorkspaceManifest) := do
  match ← collectionVersion (Json.get raw "version") with
  | none => .error (baselineError "incompatible")
  | some version =>
    match Json.get raw "entries" with
    | .arr values =>
      match baselineManifest python isalpha raw version values with
      | some manifest =>
        if ∃ entry ∈ manifest.entries, entry.kind = .file ∧ entry.digest = none then .ok none
        else .ok (some manifest)
      | none => .error (baselineError "invalid")
    | _ => .error (baselineError "invalid")

/-- `json.loads(path.read_text(encoding="utf-8"))`. -/
def loadText (content : Bytes) : Option Json := do
  let text ← readText content
  Json.loads python.float text

/-- `collection_manifest`. -/
def collectionManifest (root : CollectionRoot) (runId : String) :
    Except CollectionError (Option WorkspaceManifest) :=
  match root (collectionManifestPath runId) with
  | none => .ok none
  | some content =>
    match loadText python content with
    | some (.obj raw) => readCollection python isalpha raw
    | some _ => .error (baselineError "incompatible")
    | none => .error (baselineError "unavailable")

/-! ## 3. The text -/

section baseline

variable {python} {isalpha} {entry : WorkspaceEntry} {manifest : WorkspaceManifest}
  {root : CollectionRoot} {runId other : String}

theorem universalNewlines_plain {text : Text} (h : ∀ c ∈ text, c ≠ '\r') :
    universalNewlines text = text := by
  induction text with
  | nil => rfl
  | cons c rest ih =>
    obtain ⟨hc, hrest⟩ := List.forall_mem_cons.mp h
    have step : universalNewlines (c :: rest) =
        (if c = '\r' then '\n' else c) :: universalNewlines rest := by
      rw [universalNewlines]
      intro more heq
      exact absurd heq hc
    rw [step, if_neg hc, ih hrest]

/-- The written text is read as it is. -/
theorem readText_line {value : Json} (h : Json.Readable python.float value) :
    readText (utf8 (Json.dumps value ++ ['\n'])) = some (Json.dumps value ++ ['\n']) := by
  rw [readText, decodeUtf8_utf8, Option.map_some, universalNewlines_plain]
  intro c hc hreturn
  subst hreturn
  rcases List.mem_append.mp hc with hc | hc
  · exact absurd (Json.dumps_plain python.float value h _ hc) (by decide)
  · exact absurd hc (by decide)

theorem loadText_sorted {value : Json} (h : Json.Readable python.float value) :
    loadText python (utf8 (Json.dumps (Json.sortKeys value) ++ ['\n'])) =
      some (Json.sortKeys value) := by
  rw [loadText, readText_line (Json.readable_sortKeys python.float value h), Option.bind_eq_bind,
    Option.bind_some]
  exact Json.loads_sorted python.float h

theorem payload_names : ((manifestEntryPayload entry).map Prod.fst).Nodup := by
  unfold manifestEntryPayload
  cases entry.digest with
  | none =>
    cases entry.linkTarget with
    | none => simp
    | some target => by_cases h : target = [] <;> simp [h]
  | some digest =>
    cases entry.linkTarget with
    | none => simp
    | some target => by_cases h : target = [] <;> simp [h]

theorem manifestEntryPayload_readable :
    Json.Readable python.float (.obj (manifestEntryPayload entry)) := by
  refine ⟨payload_names, (Json.readableFields_iff python.float).mpr fun field hfield => ?_⟩
  unfold manifestEntryPayload at hfield
  rcases List.mem_append.mp hfield with hfield | hfield
  · rcases List.mem_append.mp hfield with hfield | hfield
    · simp only [List.mem_cons, List.not_mem_nil, or_false] at hfield
      rcases hfield with rfl | rfl | rfl | rfl | rfl <;> trivial
    · split at hfield
      · obtain rfl := List.mem_singleton.mp hfield
        trivial
      · exact absurd hfield List.not_mem_nil
  · split at hfield
    · split at hfield
      · exact absurd hfield List.not_mem_nil
      · obtain rfl := List.mem_singleton.mp hfield
        trivial
    · exact absurd hfield List.not_mem_nil

theorem collectionPayload_names {entries : List JsonObject} {excludedPrefixes : List Text} :
    ((collectionPayload entries excludedPrefixes).map Prod.fst).Nodup := by
  have names : ["version", "entries", "excluded_prefixes"].Nodup := by decide
  exact names

theorem collectionPayload_readable {entries : List WorkspaceEntry} {excludedPrefixes : List Text} :
    Json.Readable python.float (.obj (collectionPayload (entries.map manifestEntryPayload)
      excludedPrefixes)) := by
  have hentries : Json.ReadableItems python.float ((entries.map manifestEntryPayload).map .obj) := by
    induction entries with
    | nil => trivial
    | cons entry entries ih => exact ⟨manifestEntryPayload_readable, ih⟩
  have hprefixes : Json.ReadableItems python.float
      (excludedPrefixes.map fun p => .str (String.ofList p)) := by
    induction excludedPrefixes with
    | nil => trivial
    | cons p ps ih => exact ⟨trivial, ih⟩
  exact ⟨collectionPayload_names, trivial, hentries, hprefixes, trivial⟩

/-! ## 4. The entries -/

/-- An entry of a manifest: its kind is one of the three, and the target of a link is not empty and
    encodes. -/
structure Storable (entry : WorkspaceEntry) : Prop where
  kind : entry.kind = .file ∨ entry.kind = .directory ∨ entry.kind = .symlink
  link : entry.linkTarget ≠ some []
  encodes : entry.Encodes

theorem Contained.nonempty {path : Text} {target : Data.RawText} (h : Contained isalpha path target) :
    target ≠ [] := by
  unfold Contained validateContainedSymlinkTarget at h
  obtain ⟨safe, -, h⟩ := bind_eq_ok.mp h
  obtain ⟨hcontained, -⟩ := refuse_bind_ok.mp h
  intro hempty
  exact hcontained (.inl hempty)

theorem Admissible.storable (h : Admissible isalpha entry) (encodes : entry.Encodes) :
    Storable entry where
  kind := h.kind
  encodes := encodes
  link := by
    intro hlink
    by_cases hkind : entry.kind = .symlink
    · obtain ⟨target, htarget, hcontained⟩ := h.link hkind
      rw [htarget] at hlink
      exact hcontained.nonempty (Option.some.inj hlink)
    · rw [h.unlinked hkind] at hlink
      exact absurd hlink (by simp)

theorem get_manifestEntryPayload :
    Json.get (manifestEntryPayload entry) "path" = .str (String.ofList entry.relativePath) ∧
    Json.get (manifestEntryPayload entry) "kind" = .str (String.ofList entry.kind.name) ∧
    Json.get (manifestEntryPayload entry) "size" = .int entry.size ∧
    Json.get (manifestEntryPayload entry) "mtime_ns" = .int entry.mtimeNs ∧
    Json.get (manifestEntryPayload entry) "executable" = .bool entry.executable :=
  ⟨rfl, rfl, rfl, rfl, rfl⟩

theorem get_digest : Json.get (manifestEntryPayload entry) "digest" =
    match entry.digest with
    | some digest => .str (String.ofList digest)
    | none => .null := by
  unfold manifestEntryPayload
  cases entry.digest with
  | some digest => rfl
  | none =>
    cases entry.linkTarget with
    | none => rfl
    | some target => by_cases h : target = [] <;> simp only [h, if_true, if_false] <;> rfl

theorem get_storedLink (h : Storable entry) :
    Json.get (manifestEntryPayload entry) "link_target" =
      match entry.linkTarget with
      | some target => .str (String.ofList target.shown)
      | none => .null := by
  have hlink := h.link
  unfold manifestEntryPayload
  cases htarget : entry.linkTarget with
  | none => cases entry.digest <;> rfl
  | some target =>
    have hne : target ≠ [] := by
      rintro rfl
      exact hlink htarget
    simp only [hne, if_false]
    cases entry.digest <;> rfl

theorem intField_int {fields : JsonObject} {name : String} {value : Int}
    (h : Json.get fields name = .int value) : intField python fields name = some value := by
  unfold intField
  rw [h]
  by_cases hzero : value = 0
  · simp [Json.truthy, hzero]
  · simp [Json.truthy, hzero, Conversions.toInt]

theorem optionalField_eq {fields : JsonObject} {name : String} {text : Option Text}
    (h : Json.get fields name =
      match text with
      | some text => .str (String.ofList text)
      | none => .null) : optionalField python fields name = text := by
  unfold optionalField
  rw [h]
  cases text with
  | none => rfl
  | some text => simp [Conversions.toStr]

theorem get_sortedPayload {name : String} {value : Json}
    (h : Json.get (manifestEntryPayload entry) name = value) :
    Json.get (Json.sortedFields (manifestEntryPayload entry)) name = Json.sortKeys value := by
  rw [Json.get_sortedFields payload_names, h]

/-- **An entry reads back from its fields**, in whatever order they stand. -/
theorem baselineEntry_payload (h : Storable entry) :
    baselineEntry python (Json.sortKeys (.obj (manifestEntryPayload entry))) = some entry := by
  obtain ⟨hpath, hkind, hsize, hmtime, hexecutable⟩ := @get_manifestEntryPayload entry
  have path := (get_sortedPayload hpath).trans Json.sortKeys_str
  have kind := (get_sortedPayload hkind).trans Json.sortKeys_str
  have size := (get_sortedPayload hsize).trans Json.sortKeys_int
  have mtime := (get_sortedPayload hmtime).trans Json.sortKeys_int
  have executable := (get_sortedPayload hexecutable).trans Json.sortKeys_bool
  have digest := get_sortedPayload (@get_digest entry)
  have link := get_sortedPayload (get_storedLink h)
  have digest : optionalField python (Json.sortedFields (manifestEntryPayload entry)) "digest" =
      entry.digest := by
    apply optionalField_eq
    rw [digest]
    cases entry.digest <;> simp
  have link : (optionalField python (Json.sortedFields (manifestEntryPayload entry))
      "link_target").map .ofText = entry.linkTarget := by
    have shown : optionalField python (Json.sortedFields (manifestEntryPayload entry))
        "link_target" = entry.linkTarget.map Data.RawText.shown := by
      apply optionalField_eq
      rw [link]
      cases entry.linkTarget <;> simp
    rw [shown]
    cases htarget : entry.linkTarget with
    | none => rfl
    | some target =>
      obtain ⟨text, htext⟩ := Option.ne_none_iff_exists'.mp (h.encodes target htarget)
      obtain rfl := Data.RawText.text?_eq_some.mp htext
      simp
  rw [Json.sortKeys_obj, baselineEntry, intField_int size, intField_int mtime, textField_str path,
    textField_str kind, digest, link, executable, kindOf_name h.kind]
  simp

/-! ## 5. The manifest -/

theorem mapM_some {α β : Type} {f : β → Option α} {g : α → β} {l : List α}
    (h : ∀ a ∈ l, f (g a) = some a) : (l.map g).mapM f = some l := by
  induction l with
  | nil => rfl
  | cons a l ih =>
    obtain ⟨ha, hl⟩ := List.forall_mem_cons.mp h
    rw [List.map_cons, List.mapM_cons, ha, ih hl]
    rfl

/-- A manifest whose files all have a digest, and whose links encode. -/
structure Digested (isalpha : Char → Bool) (manifest : WorkspaceManifest) : Prop where
  built : buildWorkspaceManifest isalpha manifest.entries manifest.excludedPrefixes = .ok manifest
  digests : ∀ e ∈ manifest.entries, e.kind = .file → e.digest ≠ none
  encodes : ∀ e ∈ manifest.entries, e.Encodes

theorem collectionPath_ne : collectionManifestPath runId ≠ temporaryManifestPath other := by
  unfold collectionManifestPath temporaryManifestPath
  intro h
  have := congrArg (fun name => name.toList.reverse.head?) h
  simp at this

/-- What the file holds behind a write. -/
theorem writeCollectionManifest_apply {entries : List JsonObject} {excludedPrefixes : List Text} :
    writeCollectionManifest root runId entries excludedPrefixes (collectionManifestPath runId) =
      some (utf8 (Json.dumps (Json.sortKeys (.obj (collectionPayload entries excludedPrefixes))) ++
        ['\n'])) := by
  unfold writeCollectionManifest
  rw [Function.update_of_ne collectionPath_ne, Function.update_self, Function.update_self]

theorem baselineManifest_written (h : Digested isalpha manifest) {raw : JsonObject}
    (prefixes : Json.get raw "excluded_prefixes" =
      .arr (manifest.excludedPrefixes.map fun p => .str (String.ofList p))) :
    baselineManifest python isalpha raw 2
      (manifest.entries.map fun e => Json.sortKeys (.obj (manifestEntryPayload e))) =
        some manifest := by
  have storable : ∀ e ∈ manifest.entries, Storable e := by
    intro e he
    exact ((build_ok_iff.mp h.built).1.admissible e he).storable (h.encodes e he)
  have excluded : excludedValues raw 2 = some manifest.excludedPrefixes := by
    unfold excludedValues
    rw [if_pos rfl, prefixes]
    apply mapM_some
    intro p _
    simp [stringItem]
  have entries := mapM_some (f := baselineEntry python) (fun e he =>
    baselineEntry_payload (storable e he))
  rw [baselineManifest, excluded, entries, Option.bind_eq_bind, Option.bind_some,
    Option.bind_eq_bind, Option.bind_some, h.built]
  rfl

/-- The fields of the file of a manifest. -/
def storedFields (manifest : WorkspaceManifest) : JsonObject :=
  Json.sortedFields (collectionPayload (manifest.entries.map manifestEntryPayload)
    manifest.excludedPrefixes)

theorem get_storedFields (name : String) : Json.get (storedFields manifest) name =
    Json.sortKeys (Json.get (collectionPayload (manifest.entries.map manifestEntryPayload)
      manifest.excludedPrefixes) name) :=
  Json.get_sortedFields collectionPayload_names

theorem get_storedVersion : Json.get (storedFields manifest) "version" = .int 2 := by
  rw [get_storedFields]
  exact Json.sortKeys_int

theorem get_storedEntries : Json.get (storedFields manifest) "entries" =
    .arr (manifest.entries.map fun e => Json.sortKeys (.obj (manifestEntryPayload e))) := by
  rw [get_storedFields]
  apply Json.sortKeys_arr.trans
  rw [Json.sortItems_eq, List.map_map, List.map_map]
  rfl

theorem get_storedPrefixes : Json.get (storedFields manifest) "excluded_prefixes" =
    .arr (manifest.excludedPrefixes.map fun p => .str (String.ofList p)) := by
  rw [get_storedFields]
  apply Json.sortKeys_arr.trans
  rw [Json.sortItems_eq, List.map_map]
  apply congrArg Json.arr
  apply List.map_congr_left
  intro p _
  exact Json.sortKeys_str

/-- **What is written is read back.** -/
theorem collectionManifest_written (h : Digested isalpha manifest) :
    ∃ written, writeManifest root runId manifest = some written ∧
      collectionManifest python isalpha written runId = .ok (some manifest) := by
  have readable :=
    @collectionPayload_readable python manifest.entries manifest.excludedPrefixes
  have digests : ¬∃ entry ∈ manifest.entries, entry.kind = .file ∧ entry.digest = none := by
    intro ⟨e, he, hkind, hdigest⟩
    exact h.digests e he hkind hdigest
  refine ⟨_, if_pos h.encodes, ?_⟩
  unfold collectionManifest
  rw [writeCollectionManifest_apply]
  dsimp only
  rw [loadText_sorted readable, Json.sortKeys_obj]
  show readCollection python isalpha (storedFields manifest) = _
  unfold readCollection
  rw [get_storedVersion, get_storedEntries]
  show (match baselineManifest python isalpha _ 2 _ with
    | some manifest => _
    | none => _) = _
  rw [baselineManifest_written h get_storedPrefixes]
  exact if_neg digests

end baseline

/-! ## 6. What a copy returns -/

section materialized

variable {ω : Type} {isalpha} {sha256 : Bytes → Vector UInt8 32} {source : SnapshotSource ω}
  {sink : SnapshotSink ω} {chunkSize : Int} {s t : ω} {entry : WorkspaceEntry}

/-- What the copy makes of an entry: a file has a digest, and a link encodes. -/
structure Final (entry : WorkspaceEntry) : Prop where
  digest : entry.kind = .file → entry.digest ≠ none
  encodes : entry.kind = .symlink → entry.Encodes

theorem attemptFile_final (hkind : entry.kind ≠ .symlink)
    {changed : Text → Option Int → Option Int → Stateful ω SnapshotError WorkspaceEntry}
    (hchanged : ∀ path size mtimeNs u, (changed path size mtimeNs).Ends u
      (fun final _ => Final final) fun _ _ => True) :
    (attemptFile sha256 source sink chunkSize entry changed).Ends s
      (fun final _ => Final final) fun _ _ => True := by
  unfold attemptFile
  rw [ends_bind]
  apply Ends.of_forall
  · intro iterator u
    dsimp only
    rw [ends_bind, ends_attempt]
    apply Ends.of_forall
    · intro taken v
      exact ⟨fun _ => by simp, fun hlink => absurd hlink hkind⟩
    · intro e v
      cases e with
      | changed path size mtimeNs => exact hchanged path size mtimeNs v
      | _ => trivial
  · intro _ _
    trivial

theorem copyFile_final (hkind : entry.kind ≠ .symlink) {left : Nat} :
    (copyFile sha256 source sink chunkSize entry left).Ends s
      (fun final _ => Final final) fun _ _ => True := by
  induction left generalizing entry s with
  | zero =>
    apply attemptFile_final hkind
    intro _ _ _ _
    trivial
  | succ left ih =>
    apply attemptFile_final hkind
    intro _ _ _ _
    exact ih (by rwa [retried_kind])

theorem copyEntry_final : (copyEntry sha256 source sink chunkSize entry).Ends s
    (fun final _ => Final final) fun _ _ => True := by
  unfold copyEntry
  split
  · rename_i hkind
    rw [ends_bind]
    apply Ends.of_forall
    · intro _ _
      exact ⟨fun hfile => absurd (hkind.symm.trans hfile) (by simp),
        fun hlink => absurd (hkind.symm.trans hlink) (by simp)⟩
    · intro _ _
      trivial
  · rename_i hkind
    split
    · trivial
    · rename_i target htarget
      rw [ends_bind]
      apply encodeTarget_ends
      rintro text rfl
      rw [ends_bind]
      apply Ends.of_forall
      · intro _ _
        refine ⟨fun hfile => absurd (hkind.symm.trans hfile) (by simp), fun _ target hmem => ?_⟩
        obtain rfl := Option.some.inj (htarget.symm.trans hmem)
        simp
      · intro _ _
        trivial
  · rename_i hlink
    exact copyFile_final hlink

theorem copyEntries_final {entries : List WorkspaceEntry} :
    (copyEntries sha256 source sink chunkSize entries).Ends s
      (fun finals _ => ∀ e ∈ finals, Final e) fun _ _ => True := by
  induction entries generalizing s with
  | nil =>
    intro e he
    exact absurd he List.not_mem_nil
  | cons entry entries ih =>
    unfold copyEntries
    rw [ends_bind]
    apply copyEntry_final.mono
    · intro final u hfinal
      rw [ends_bind]
      apply ih.mono
      · intro finals v hfinals
        exact List.forall_mem_cons.mpr ⟨hfinal, hfinals⟩
      · exact fun _ _ => id
    · exact fun _ _ => id

theorem digested_manifestOf {entries : List WorkspaceEntry} {excludedPrefixes : List Text}
    (h : Buildable isalpha entries excludedPrefixes) (finals : ∀ e ∈ entries, Final e) :
    Digested isalpha (manifestOf entries excludedPrefixes) where
  built := build_again (build_ok_iff.mpr ⟨h, rfl⟩)
  digests := by
    intro e he hkind
    obtain ⟨e, hmem, rfl⟩ := mem_manifestOf.mp he
    have hkind : e.kind = .file := hkind
    have hdigest := (finals e hmem).digest hkind
    simpa [WorkspaceEntry.canonical, hkind] using hdigest
  encodes := by
    intro e he
    obtain ⟨e, hmem, rfl⟩ := mem_manifestOf.mp he
    by_cases hkind : e.kind = .symlink
    · exact (finals e hmem).encodes hkind
    · intro target htarget
      exact absurd (((h.admissible e hmem).unlinked hkind).symm.trans htarget) (by simp)

/-- Whatever the Source and the sink do, each file of what the copy returns has a digest, and each
    link encodes. -/
theorem materialize_digested {manifest : WorkspaceManifest}
    (h : materializeWorkspaceSnapshot isalpha sha256 source sink chunkSize s =
      (.ok manifest, t)) : Digested isalpha manifest := by
  refine Ends.returned (Q := fun manifest _ => Digested isalpha manifest)
    (E := fun _ _ => True) ?_ h
  unfold materializeWorkspaceSnapshot
  rw [ends_bind, ends_when]
  refine ⟨fun _ => trivial, fun _ => ?_⟩
  rw [ends_bind]
  apply Ends.of_forall
  · intro scanned u
    rw [ends_bind]
    apply buildManifest_ends
    intro _
    rw [ends_bind, ends_when]
    refine ⟨fun _ => trivial, fun _ => ?_⟩
    rw [ends_bind]
    apply copyEntries_final.mono
    · intro finals v hfinals
      apply buildManifest_ends
      intro hbuildable
      exact digested_manifestOf hbuildable hfinals
    · exact fun _ _ => id
  · intro _ _
    trivial

end materialized

/-- **Manifests are canonical, and the baseline of a copy is read back as it was written.** -/
theorem manifests_canonical (isalpha : Char → Bool) :
    (∀ (entries : List WorkspaceEntry) (excludedPrefixes : List Text)
      (manifest : WorkspaceManifest),
      buildWorkspaceManifest isalpha entries excludedPrefixes = .ok manifest →
      (∀ others : List WorkspaceEntry, others.Perm entries →
        buildWorkspaceManifest isalpha others excludedPrefixes = .ok manifest) ∧
      buildWorkspaceManifest isalpha manifest.entries manifest.excludedPrefixes = .ok manifest ∧
      (manifest.entries.Pairwise fun earlier later =>
        ¬Below later.relativePath earlier.relativePath) ∧
      ∀ a ∈ manifest.entries, ∀ b ∈ manifest.entries, Unnested a b) ∧
    ∀ (python : Conversions) (ω : Type) (sha256 : Bytes → Vector UInt8 32)
      (source : SnapshotSource ω) (sink : SnapshotSink ω) (chunkSize : Int) (s t : ω)
      (manifest : WorkspaceManifest) (root : CollectionRoot) (runId : String),
      materializeWorkspaceSnapshot isalpha sha256 source sink chunkSize s = (.ok manifest, t) →
      ∃ written, writeManifest root runId manifest = some written ∧
        collectionManifest python isalpha written runId = .ok (some manifest) := by
  constructor
  · intro entries excludedPrefixes manifest h
    refine ⟨?_, build_again h, build_parentsFirst h, build_unnested h⟩
    intro others perm
    exact build_perm h perm
  · intro python ω sha256 source sink chunkSize s t manifest root runId h
    exact collectionManifest_written (materialize_digested h)

/-- A file listed before its directory, and the copy of a file that grows. -/
theorem manifests_canonical_growing :
    (∃ manifest, buildWorkspaceManifest Char.isAlpha
        [{ relativePath := "d".toList, kind := .directory },
          { relativePath := "d/f".toList, kind := .file }] [] = .ok manifest ∧
      buildWorkspaceManifest Char.isAlpha
        [{ relativePath := "d/f".toList, kind := .file },
          { relativePath := "d".toList, kind := .directory }] [] = .ok manifest) ∧
    ∃ manifest t, materializeWorkspaceSnapshot Char.isAlpha byteDigest
        growing.source growing.sink 1024 ⟨[], 0⟩ = (.ok manifest, t) ∧
      manifest.entries ≠ [] ∧
      ∃ written, writeManifest (fun _ => none) "run" manifest = some written ∧
        collectionManifest ⟨fun _ => "", fun _ => none, fun _ => []⟩ Char.isAlpha written "run" =
          .ok (some manifest) := by
  have listed : buildWorkspaceManifest Char.isAlpha
      [{ relativePath := "d".toList, kind := .directory },
        { relativePath := "d/f".toList, kind := .file }] [] =
      .ok ⟨[{ relativePath := "d".toList, kind := .directory },
        { relativePath := "d/f".toList, kind := .file }], 0, []⟩ := by decide +kernel
  have run : materializeWorkspaceSnapshot Char.isAlpha byteDigest growing.source
      growing.sink 1024 ⟨[], 0⟩ = (.ok ⟨[{
        relativePath := ['a'], kind := .file, size := 2, mtimeNs := 5,
        digest := some ("0304".toList ++ (List.replicate 30 "02".toList).flatten) }], 2, []⟩,
      ⟨[.attempt ['a'], .attempt ['a'], .file ['a'] [1, 2] false], 2⟩) := by decide +kernel
  obtain ⟨canonical, kept⟩ := manifests_canonical Char.isAlpha
  refine ⟨⟨_, listed, ?_⟩, _, _, run, by simp, kept _ _ _ _ _ _ _ _ _ _ _ run⟩
  exact (canonical _ _ _ listed).1 _ (List.Perm.swap _ _ [])

end Termroom.Sources
