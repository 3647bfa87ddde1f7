import Termroom.Archive.Zip
import Termroom.Data.Split

/-!
# What is known of an accepted archive

The names of its entries are strict (`normalize_strict`), no entry lies below a file
(`Apart`), and every file inflates to what its entry says (`Whole`). `accepted` reads all of
it off one successful `validate_zip_archive`.
-/

set_option autoImplicit false

namespace Termroom.Archive

open Conc Data

variable {raw path : Text} {limits : ArchiveLimits}

/-! ## 1. Strict names -/

/-- A part of a strict name. -/
structure Component (part : Text) : Prop where
  nonempty : part ≠ []
  notDot : part ≠ ['.']
  notDots : part ≠ ['.', '.']
  notMetadata : part ≠ ".termroom".toList
  plain : ∀ c ∈ part, c ≠ '\\' ∧ isControl c = false

def Strict (path : Text) : Prop := ∀ part ∈ splitPath path, Component part

theorem splitPath_ne_nil : splitPath path ≠ [] := List.splitOn_ne_nil _ _

theorem join_splitPath : joinPath (splitPath path) = path := List.intercalate_splitOn _

theorem splitPath_join {parts : List Text} (slash : ∀ part ∈ parts, '/' ∉ part)
    (nonempty : parts ≠ []) : splitPath (joinPath parts) = parts :=
  List.splitOn_intercalate _ slash nonempty

theorem notMem_part {part : Text} (h : part ∈ splitPath path) : '/' ∉ part :=
  Split.notMem_of_mem_splitOn h

theorem memberParts_ok {ps parts : List Text} (h : memberParts raw ps = .ok parts) :
    ∀ part ∈ parts, part ∈ ps ∧ part ≠ [] ∧ part ≠ ['.'] ∧ part ≠ ['.', '.'] := by
  induction ps generalizing parts with
  | nil =>
    cases h
    exact nofun
  | cons part ps ih =>
    unfold memberParts at h
    split at h
    · intro q hq
      exact (ih h q hq).imp_left (List.mem_cons_of_mem _)
    rename_i hskip
    split at h
    · exact nomatch h
    rename_i hdots
    cases hrest : memberParts raw ps with
    | error e =>
      rw [hrest] at h
      exact nomatch h
    | ok rest =>
      rw [hrest] at h
      obtain rfl := Except.ok.inj h
      intro q hq
      rcases List.mem_cons.mp hq with rfl | hq
      · simp only [Bool.or_eq_true, List.isEmpty_iff, decide_eq_true_eq, not_or] at hskip
        exact ⟨List.mem_cons_self, hskip.1, hskip.2, hdots⟩
      · exact (ih hrest q hq).imp_left (List.mem_cons_of_mem _)

theorem memberParts_components {ps : List Text} (h : ∀ part ∈ ps, Component part) :
    memberParts raw ps = .ok ps := by
  induction ps with
  | nil => rfl
  | cons part ps ih =>
    have here := h part List.mem_cons_self
    unfold memberParts
    rw [if_neg, if_neg here.notDots, ih fun q hq => h q (List.mem_cons_of_mem _ hq)]
    · rfl
    · simp [here.nonempty, here.notDot]

/-- **What is normalized is strict.** -/
theorem normalize_strict (h : normalizeZipMemberPath raw = .ok path) : Strict path := by
  unfold normalizeZipMemberPath at h
  obtain ⟨-, h⟩ := reject_bind_ok.mp h
  obtain ⟨hcontrol, h⟩ := reject_bind_ok.mp h
  obtain ⟨hbackslash, h⟩ := reject_bind_ok.mp h
  obtain ⟨-, h⟩ := reject_bind_ok.mp h
  obtain ⟨parts, hparts, h⟩ := bind_eq_ok.mp h
  obtain ⟨hne, h⟩ := reject_bind_ok.mp h
  obtain ⟨hmetadata, h⟩ := reject_bind_ok.mp h
  obtain rfl := Except.ok.inj h
  have known := memberParts_ok hparts
  intro part hpart
  rw [splitPath_join (fun p hp => notMem_part (known p hp).1) hne] at hpart
  obtain ⟨hmem, hnil, hdot, hdots⟩ := known part hpart
  refine ⟨hnil, hdot, hdots, fun hmeta => hmetadata (hmeta ▸ hpart), fun c hc => ?_⟩
  have hc := Split.mem_of_mem_splitOn hmem hc
  simp only [List.any_eq_true, not_exists, not_and, Bool.not_eq_true] at hcontrol
  exact ⟨fun hslash => hbackslash (hslash ▸ hc), hcontrol c hc⟩

theorem Strict.mem {c : Char} (h : Strict path) (hc : c ∈ path) :
    c = '/' ∨ c ≠ '\\' ∧ isControl c = false := by
  rw [← @join_splitPath path] at hc
  rcases Split.mem_intercalate hc with rfl | ⟨part, hpart, hc⟩
  · exact .inl rfl
  · exact .inr ((h part hpart).plain c hc)

theorem Strict.head {path : Text} (h : Strict path) : ∃ c rest, path = c :: rest ∧ c ≠ '/' := by
  cases path with
  | nil => exact absurd rfl (h [] List.mem_cons_self).nonempty
  | cons c rest =>
    refine ⟨c, rest, rfl, fun hc => ?_⟩
    subst hc
    have : [] ∈ splitPath ('/' :: rest) := by
      show [] ∈ List.splitOn '/' ('/' :: rest)
      rw [List.splitOn_cons_eq_if_modifyHead, if_pos (BEq.refl _)]
      exact List.mem_cons_self
    exact (h [] this).nonempty rfl

/-- **A strict name is normalized**, or it is taken for a name with a drive. -/
theorem Strict.normalize (h : Strict path) :
    normalizeZipMemberPath path = if windowsDrive path then
      .error ⟨"ZIP entry path must be relative", "zip_path_absolute", some path⟩
    else .ok path := by
  obtain ⟨c, rest, hpath, hslash⟩ := h.head
  have nonempty : path ≠ [] := hpath ▸ List.cons_ne_nil _ _
  have control : ¬path.any isControl = true := by
    rw [List.any_eq_true]
    rintro ⟨c, hc, hcontrol⟩
    rcases h.mem hc with rfl | ⟨-, hplain⟩
    · exact absurd hcontrol (by decide)
    · exact nomatch hplain.symm.trans hcontrol
  have backslash : '\\' ∉ path := by
    intro hmem
    rcases h.mem hmem with hc | ⟨hc, -⟩
    · exact absurd hc (by decide)
    · exact hc rfl
  unfold normalizeZipMemberPath
  rw [reject_neg nonempty, ok_bind, reject_neg control, ok_bind, reject_neg backslash, ok_bind]
  by_cases hdrive : windowsDrive path = true
  · rw [reject_pos (.inr hdrive), if_pos hdrive, error_bind]
  · have relative : ¬(path.head? = some '/' ∨ windowsDrive path = true) := by
      rintro (hhead | hd)
      · rw [hpath] at hhead
        exact hslash (Option.some.inj hhead)
      · exact hdrive hd
    rw [reject_neg relative, ok_bind, if_neg hdrive, memberParts_components h, ok_bind,
      reject_neg splitPath_ne_nil, ok_bind, reject_neg fun hmem => (h _ hmem).notMetadata rfl,
      ok_bind, join_splitPath]
    rfl

/-! ## 2. Entries apart -/

/-- `b` lies below `a`. -/
def Below (a b : Text) : Prop := (a ++ ['/']) <+: b

theorem below_iff {a b : Text} :
    Below a b ↔ ∃ ts, ts ≠ [] ∧ splitPath a ++ ts = splitPath b := Split.below_iff

theorem Below.trans {a b c : Text} (hab : Below a b) (hbc : Below b c) : Below a c := by
  obtain ⟨x, rfl⟩ := hab
  obtain ⟨y, rfl⟩ := hbc
  exact ⟨x ++ ['/'] ++ y, by simp⟩

theorem Below.irrefl {a : Text} : ¬Below a a := by
  rintro ⟨x, hx⟩
  have := congrArg List.length hx
  simp only [List.length_append, List.length_cons] at this
  omega

theorem mem_ancestorPaths {a : Text} : a ∈ ancestorPaths path ↔ Below a path := by
  unfold ancestorPaths
  rw [List.mem_map, below_iff]
  constructor
  · rintro ⟨index, hindex, rfl⟩
    rw [List.mem_range'_1] at hindex
    refine ⟨(splitPath path).drop index, ?_, ?_⟩
    · rw [ne_eq, List.drop_eq_nil_iff]
      omega
    · have slash : ∀ part ∈ (splitPath path).take index, '/' ∉ part :=
        fun part hpart => notMem_part (List.mem_of_mem_take hpart)
      rw [splitPath_join slash, List.take_append_drop]
      rw [ne_eq, List.take_eq_nil_iff]
      have := @splitPath_ne_nil path
      simp only [this, or_false]
      omega
  · rintro ⟨ts, hts, h⟩
    have length := congrArg List.length h
    have hts : 0 < ts.length := List.length_pos_iff.mpr hts
    have ha : 0 < (splitPath a).length := List.length_pos_iff.mpr splitPath_ne_nil
    rw [List.length_append] at length
    refine ⟨(splitPath a).length, List.mem_range'_1.mpr (by omega), ?_⟩
    rw [← h, List.take_left, join_splitPath]

/-- Two entries that can be staged beside each other. -/
structure Apart (a b : ZipEntry) : Prop where
  distinct : a.relativePath ≠ b.relativePath
  notBelow : a.kind ≠ .directory → ¬Below a.relativePath b.relativePath
  notAbove : b.kind ≠ .directory → ¬Below b.relativePath a.relativePath

instance : Std.Symm Apart where
  symm _ _ h := ⟨h.distinct.symm, h.notAbove, h.notBelow⟩

theorem byPath_mem {entries : List ZipEntry} {e : ZipEntry} (h : byPath entries path = some e) :
    e ∈ entries ∧ e.relativePath = path :=
  ⟨List.mem_of_find?_eq_some h, by simpa using List.find?_some h⟩

theorem byPath_eq_none {entries : List ZipEntry} :
    byPath entries path = none ↔ ∀ e ∈ entries, e.relativePath ≠ path := by
  simp [byPath]

theorem byPath_of_mem {entries : List ZipEntry} {e : ZipEntry} (apart : entries.Pairwise Apart)
    (h : e ∈ entries) : byPath entries e.relativePath = some e := by
  cases hfound : byPath entries e.relativePath with
  | none => exact absurd rfl (byPath_eq_none.mp hfound e h)
  | some f =>
    obtain ⟨hf, hpath⟩ := byPath_mem hfound
    by_contra hne
    have hne : f ≠ e := fun h => hne (congrArg some h)
    exact (apart.forall hf h hne).distinct hpath

theorem nests_iff {entries : List ZipEntry} :
    nests entries path = true ↔ ∃ e ∈ entries, Below path e.relativePath := by
  simp [nests, Below]

theorem ancestorFile_eq_none {entries : List ZipEntry} (apart : entries.Pairwise Apart) :
    ancestorFile entries path = none ↔
      ∀ e ∈ entries, e.kind ≠ .directory → ¬Below e.relativePath path := by
  unfold ancestorFile
  rw [List.find?_eq_none]
  constructor
  · intro h e he hkind hbelow
    refine h _ (mem_ancestorPaths.mpr hbelow) ?_
    rw [byPath_of_mem apart he, Option.any_some, decide_eq_true_eq]
    exact hkind
  · intro h a ha hany
    obtain ⟨e, hfound, hkind⟩ := (Option.any_eq_true _ _).mp hany
    obtain ⟨he, hpath⟩ := byPath_mem hfound
    refine h e he (of_decide_eq_true hkind) ?_
    rw [hpath]
    exact mem_ancestorPaths.mp ha

theorem checkApart_ok_iff {entries : List ZipEntry} {entry : ZipEntry}
    {duplicate directory : String} {below : Text → String} (apart : entries.Pairwise Apart) :
    checkApart entries entry duplicate directory below = .ok () ↔
      ∀ e ∈ entries, Apart e entry := by
  unfold checkApart
  rw [reject_bind_ok, Option.isSome_iff_ne_none, not_not, byPath_eq_none]
  constructor
  · rintro ⟨hdistinct, h⟩ e he
    split at h
    · exact nomatch h
    rename_i hbelow
    refine ⟨hdistinct e he, (ancestorFile_eq_none apart).mp hbelow e he, fun hkind habove => ?_⟩
    rw [reject_pos ⟨hkind, nests_iff.mpr ⟨e, he, habove⟩⟩] at h
    exact nomatch h
  · intro h
    refine ⟨fun e he => (h e he).distinct, ?_⟩
    rw [(ancestorFile_eq_none apart).mpr fun e he => (h e he).notBelow]
    refine reject_neg ?_
    rintro ⟨hkind, hnests⟩
    obtain ⟨e, he, habove⟩ := nests_iff.mp hnests
    exact (h e he).notAbove hkind habove

theorem pairwise_snoc {entries : List ZipEntry} {entry : ZipEntry}
    (apart : entries.Pairwise Apart) (h : ∀ e ∈ entries, Apart e entry) :
    (entries ++ [entry]).Pairwise Apart := by
  rw [List.pairwise_append]
  refine ⟨apart, List.pairwise_singleton _ _, fun e he f hf => ?_⟩
  rw [List.mem_singleton.mp hf]
  exact h e he

/-! ## 3. One entry, and all of them -/

/-- What an entry says of the directory's record. -/
structure OfInfo (info : ZipInfo) (limits : ArchiveLimits) (entry : ZipEntry) : Prop where
  normalized : normalizeZipMemberPath info.origFilename = .ok entry.relativePath
  archiveName : entry.archiveName = info.origFilename
  directory : entry.kind = .directory → entry.size = 0 ∧ entry.executable = false
  file : entry.kind = .file → entry.size ≤ limits.maxSingleFileBytes

theorem entryFromInfo_ok {info : ZipInfo} {entry : ZipEntry}
    (h : entryFromInfo info limits = .ok entry) : OfInfo info limits entry := by
  unfold entryFromInfo at h
  obtain ⟨-, h⟩ := reject_bind_ok.mp h
  obtain ⟨path, hpath, h⟩ := bind_eq_ok.mp h
  obtain ⟨-, h⟩ := reject_bind_ok.mp h
  obtain ⟨-, h⟩ := reject_bind_ok.mp h
  obtain ⟨-, h⟩ := reject_bind_ok.mp h
  obtain ⟨-, h⟩ := reject_bind_ok.mp h
  obtain ⟨-, -, h⟩ := bind_eq_ok.mp h
  obtain ⟨-, h⟩ := reject_bind_ok.mp h
  obtain ⟨hsize, h⟩ := reject_bind_ok.mp h
  obtain rfl := Except.ok.inj h
  refine ⟨hpath, rfl, fun hkind => ?_, fun hkind => ?_⟩
  · have hkind := hkind
    dsimp only at hkind ⊢
    rw [hkind]
    exact ⟨rfl, rfl⟩
  · dsimp only at hkind ⊢
    rw [if_pos hkind]
    exact Nat.le_of_not_lt fun hlt => hsize ⟨hkind, hlt⟩

theorem OfInfo.strict {info : ZipInfo} {entry : ZipEntry} (h : OfInfo info limits entry) :
    Strict entry.relativePath := normalize_strict h.normalized

theorem OfInfo.named {info : ZipInfo} {entry : ZipEntry} (h : OfInfo info limits entry) :
    entry.archiveName ≠ [] := by
  intro hnil
  have normalized := h.normalized
  rw [← h.archiveName, hnil] at normalized
  exact nomatch normalized

def totalSize (entries : List ZipEntry) : Nat := (entries.map ZipEntry.size).sum

theorem validateEntries_ok {seen : List ZipEntry} {declared total : Nat} {members : List Member}
    {pairs : List (Member × ZipEntry)} (apart : seen.Pairwise Apart)
    (h : validateEntries limits seen declared members = .ok (pairs, total)) :
    pairs.map Prod.fst = members ∧ (∀ p ∈ pairs, entryFromInfo p.1.info limits = .ok p.2) ∧
      (seen ++ pairs.map Prod.snd).Pairwise Apart ∧
      total = declared + totalSize (pairs.map Prod.snd) ∧
      (declared ≤ limits.maxTotalBytes → total ≤ limits.maxTotalBytes) := by
  induction members generalizing seen declared total pairs with
  | nil =>
    obtain ⟨rfl, rfl⟩ := Prod.mk.inj (Except.ok.inj h)
    exact ⟨rfl, nofun, by simpa using apart, rfl, id⟩
  | cons m rest ih =>
    obtain ⟨entry, hentry, h⟩ := bind_eq_ok.mp h
    obtain ⟨⟨⟩, hcheck, h⟩ := bind_eq_ok.mp h
    obtain ⟨hlimit, h⟩ := reject_bind_ok.mp h
    obtain ⟨⟨ps, t⟩, hrest, h⟩ := bind_eq_ok.mp h
    obtain ⟨rfl, rfl⟩ := Prod.mk.inj (Except.ok.inj h)
    have admitted := (checkApart_ok_iff apart).mp hcheck
    obtain ⟨hmap, hall, hapart, htotal, hle⟩ := ih (pairwise_snoc apart admitted) hrest
    refine ⟨?_, ?_, ?_, ?_, fun _ => hle (Nat.le_of_not_lt hlimit)⟩
    · rw [List.map_cons, hmap]
    · intro p hp
      rcases List.mem_cons.mp hp with rfl | hp
      · exact hentry
      · exact hall p hp
    · rw [List.append_assoc] at hapart
      exact hapart
    · rw [htotal, totalSize, totalSize, List.map_cons, List.map_cons, List.sum_cons, Nat.add_assoc]

/-! ## 4. Contents -/

theorem readChunks_flatten {chunkSize steps : Nat} {data : Bytes} (positive : 0 < chunkSize)
    (h : data.length ≤ steps) : (readChunks chunkSize steps data).flatten = data := by
  induction steps generalizing data with
  | zero =>
    rw [List.length_eq_zero_iff.mp (Nat.le_zero.mp h)]
    rfl
  | succ steps ih =>
    unfold readChunks
    split
    · rename_i hnil
      rw [hnil]
      rfl
    · have rest : (data.drop chunkSize).length ≤ steps := by
        rw [List.length_drop]
        omega
      rw [List.flatten_cons, ih rest, List.take_append_drop]

/-- The member inflates to what its entry says. -/
structure Whole (m : Member) (entry : ZipEntry) (limits : ArchiveLimits) : Prop where
  failure : m.failure = none
  size : m.data.length = entry.size
  crc : (readChunks limits.chunkSize m.data.length m.data).foldl (fun crc chunk => crc32 chunk crc)
    0 &&& 0xFFFFFFFF = entry.crc32

theorem iterChunks_ok {entry : ZipEntry} {failure : Option ReadFailure}
    {totalBefore actualSize crc : Nat} {chunks : List Bytes}
    (h : (iterChunks entry failure limits totalBefore actualSize crc chunks).failure = none) :
    (iterChunks entry failure limits totalBefore actualSize crc chunks).chunks = chunks ∧
      failure = none ∧ actualSize + chunks.flatten.length = entry.size ∧
      chunks.foldl (fun crc chunk => crc32 chunk crc) crc &&& 0xFFFFFFFF = entry.crc32 := by
  induction chunks generalizing actualSize crc with
  | nil =>
    unfold iterChunks at h ⊢
    cases failure with
    | some failure => exact nomatch h
    | none =>
      dsimp only at h ⊢
      split at h
      · exact nomatch h
      rename_i hsize
      split at h
      · exact nomatch h
      rename_i hcrc
      rw [if_neg hsize, if_neg hcrc]
      exact ⟨rfl, rfl, not_not.mp hsize, not_not.mp hcrc⟩
  | cons chunk rest ih =>
    unfold iterChunks at h ⊢
    dsimp only at h ⊢
    split at h
    · exact nomatch h
    rename_i hsingle
    split at h
    · exact nomatch h
    rename_i htotal
    rw [if_neg hsingle, if_neg htotal]
    obtain ⟨hchunks, hfailure, hsize, hcrc⟩ := ih h
    refine ⟨congrArg (chunk :: ·) hchunks, hfailure, ?_, hcrc⟩
    rw [List.flatten_cons, List.length_append, ← Nat.add_assoc]
    exact hsize

theorem iterChunks_whole {entry : ZipEntry} {totalBefore actualSize crc : Nat}
    {chunks : List Bytes} (single : entry.size ≤ limits.maxSingleFileBytes)
    (total : totalBefore + entry.size ≤ limits.maxTotalBytes)
    (size : actualSize + chunks.flatten.length = entry.size)
    (hcrc : chunks.foldl (fun crc chunk => crc32 chunk crc) crc &&& 0xFFFFFFFF = entry.crc32) :
    iterChunks entry none limits totalBefore actualSize crc chunks = ⟨chunks, none⟩ := by
  induction chunks generalizing actualSize crc with
  | nil =>
    have size : actualSize = entry.size := size
    have hcrc : crc &&& 0xFFFFFFFF = entry.crc32 := hcrc
    unfold iterChunks
    dsimp only
    rw [if_neg (not_not.mpr size), if_neg (not_not.mpr hcrc)]
  | cons chunk rest ih =>
    rw [List.flatten_cons, List.length_append, ← Nat.add_assoc] at size
    unfold iterChunks
    dsimp only
    rw [if_neg (by omega), if_neg (by omega), ih size hcrc]
    rfl

theorem Whole.iter {m : Member} {entry : ZipEntry} {totalBefore : Nat} (h : Whole m entry limits)
    (single : entry.size ≤ limits.maxSingleFileBytes)
    (total : totalBefore + entry.size ≤ limits.maxTotalBytes) :
    iterInfoChunks m entry limits totalBefore =
      ⟨readChunks limits.chunkSize m.data.length m.data, none⟩ := by
  unfold iterInfoChunks
  rw [h.failure]
  refine iterChunks_whole single total ?_ h.crc
  rw [readChunks_flatten limits.positive.2.2.2.2.2 (Nat.le_refl _), h.size, Nat.zero_add]

theorem inflateAll_ok {actual total : Nat} {pairs : List (Member × ZipEntry)}
    (directory : ∀ p ∈ pairs, p.2.kind = .directory → p.2.size = 0)
    (h : inflateAll limits actual pairs = .ok total) :
    (∀ p ∈ pairs, p.2.kind ≠ .directory → Whole p.1 p.2 limits) ∧
      total = actual + totalSize (pairs.map Prod.snd) := by
  induction pairs generalizing actual with
  | nil => exact ⟨nofun, (Except.ok.inj h).symm⟩
  | cons p rest ih =>
    obtain ⟨m, entry⟩ := p
    have hrest := fun p hp => directory p (List.mem_cons_of_mem _ hp)
    unfold inflateAll at h
    split at h
    · rename_i hkind
      obtain ⟨whole, htotal⟩ := ih hrest h
      refine ⟨fun p hp hk => ?_, ?_⟩
      · rcases List.mem_cons.mp hp with rfl | hp
        · exact absurd hkind hk
        · exact whole p hp hk
      · have := directory _ List.mem_cons_self hkind
        rw [htotal, totalSize, totalSize, List.map_cons, List.map_cons, List.sum_cons, this,
          Nat.zero_add]
    · dsimp only at h
      split at h
      · exact nomatch h
      rename_i hnone
      obtain ⟨hchunks, hfailure, hsize, hcrc⟩ := iterChunks_ok hnone
      have flat := readChunks_flatten limits.positive.2.2.2.2.2 (Nat.le_refl m.data.length)
      rw [flat, Nat.zero_add] at hsize
      obtain ⟨whole, htotal⟩ := ih hrest h
      refine ⟨fun p hp hk => ?_, ?_⟩
      · rcases List.mem_cons.mp hp with rfl | hp
        · exact ⟨hfailure, hsize, hcrc⟩
        · exact whole p hp hk
      · rw [htotal, show (iterInfoChunks m entry limits actual).chunks = _ from hchunks, flat, hsize,
          totalSize, totalSize, List.map_cons, List.map_cons, List.sum_cons, Nat.add_assoc]

/-! ## 5. The archive -/

theorem sortEntries_perm {pairs : List (Member × ZipEntry)} :
    (sortEntries pairs).Perm (pairs.map Prod.snd) := List.perm_insertionSort _ _

/-- What the acceptance of an archive establishes; `pairs` are its members with their entries. -/
structure Accepted (archive : ZipArchive) (limits : ArchiveLimits)
    (pairs : List (Member × ZipEntry)) (manifest : ZipManifest) : Prop where
  size : archive.size ≤ limits.maxUploadBytes
  archiveSize : manifest.archiveSize = archive.size
  reopens : ∃ total, openArchive archive = .ok (pairs.map Prod.fst) ∧
    validateStructure (pairs.map Prod.fst) limits = .ok (pairs, total)
  entries : manifest.entries = sortEntries pairs
  count : manifest.entries.length ≤ limits.maxEntries
  cwd : manifest.cwdRel = cwdRel manifest.entries
  total : manifest.totalBytes = totalSize manifest.entries
  totalLe : manifest.totalBytes ≤ limits.maxTotalBytes
  apart : (pairs.map Prod.snd).Pairwise Apart
  entry : ∀ p ∈ pairs, entryFromInfo p.1.info limits = .ok p.2
  whole : ∀ p ∈ pairs, p.2.kind ≠ .directory → Whole p.1 p.2 limits

theorem totalSize_perm {entries entries' : List ZipEntry} (h : entries.Perm entries') :
    totalSize entries = totalSize entries' := (h.map _).sum_nat

theorem accepted {archive : ZipArchive} {filename : Option Text} {manifest : ZipManifest}
    (h : validateZipArchive archive limits filename = .ok manifest) :
    ∃ pairs, Accepted archive limits pairs manifest := by
  obtain ⟨-, -, h⟩ := bind_eq_ok.mp h
  obtain ⟨hsize, h⟩ := reject_bind_ok.mp h
  obtain ⟨members, hopen, h⟩ := bind_eq_ok.mp h
  obtain ⟨⟨pairs, declared⟩, hstructure, h⟩ := bind_eq_ok.mp h
  obtain ⟨total, hinflate, h⟩ := bind_eq_ok.mp h
  obtain rfl := Except.ok.inj h
  obtain ⟨hcount, hentries⟩ := reject_bind_ok.mp hstructure
  obtain ⟨hmap, hall, hapart, hdeclared, hle⟩ := validateEntries_ok .nil hentries
  obtain ⟨whole, htotal⟩ := inflateAll_ok
    (fun p hp hk => ((entryFromInfo_ok (hall p hp)).directory hk).1) hinflate
  have sorted : totalSize (sortEntries pairs) = totalSize (pairs.map Prod.snd) :=
    totalSize_perm sortEntries_perm
  rw [Nat.zero_add] at hdeclared htotal
  subst hmap
  refine ⟨pairs, Nat.le_of_not_lt hsize, rfl, ⟨declared, hopen, hstructure⟩, rfl, ?_, rfl,
    htotal.trans sorted.symm, ?_, hapart, hall, whole⟩
  · show (sortEntries pairs).length ≤ _
    rw [sortEntries_perm.length_eq, List.length_map, ← @List.length_map _ _ pairs Prod.fst]
    exact Nat.le_of_not_lt hcount
  · show total ≤ _
    rw [htotal, ← hdeclared]
    exact hle (Nat.zero_le _)

end Termroom.Archive
