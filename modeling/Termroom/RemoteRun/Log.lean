import Mathlib
import Termroom.Data.Utf8

/-!
# Paging through the log of a Run

A client polls the log of a Run: the first poll asks for its tail, and every later one goes on
where the last one ended. The log only grows, but it may do so between any two reads of one poll,
and the tail may start inside a character.

A Node and the SSH backend read it each in their own way. In both the pages come to one slice of
the log (`paging_lossless`), and no poll fails as long as there is a log (`paging_answers`).
-/

set_option autoImplicit false

namespace Termroom.RemoteRun.Log

open Data

/-! ## 1. The log -/

/-- What is at the path of a log. -/
inductive LogFile where
  | missing
  /-- It is no regular file, or not the owner's alone. -/
  | invalid
  | regular (content : List UInt8)
  deriving DecidableEq, Repr

def LogFile.content : LogFile → List UInt8
  | .regular content => content
  | _ => []

structure LogPaths where
  prepareLog : LogFile
  output : LogFile
  deriving DecidableEq, Repr

def LogPaths.at (paths : LogPaths) (stream : String) : LogFile :=
  if stream = "prepare" then paths.prepareLog else paths.output

/-- A log is created, and it is appended to. -/
inductive Grows : LogFile → LogFile → Prop
  | stays (log : LogFile) : Grows log log
  | created (content : List UInt8) : Grows .missing (.regular content)
  | appended (content more : List UInt8) : Grows (.regular content) (.regular (content ++ more))

/-- What is returned of a log; `chunk_b64` carries the `chunk`. -/
structure LogChunk where
  stream : String
  chunk : List UInt8
  startOffset : Nat
  nextOffset : Nat
  size : Nat
  eof : Bool
  deriving DecidableEq, Repr

inductive LogError where
  /-- `NodeRemoteRunError`. -/
  | node (message code : String)
  | value (message : String)
  /-- `SSHBackendError`. -/
  | ssh (message : String)
  deriving DecidableEq, Repr

def remoteRunLogReadLimit : Int := 256 * 1024

def remoteRunInitialTail : Nat := 64 * 1024

/-- A read of at most so many bytes from a position on. -/
def readAt (content : List UInt8) (position count : Nat) : List UInt8 :=
  (content.drop position).take count

/-- The loop over the first bytes of the tail: `prefix[skipped] & 0xC0 == 0x80`. -/
def skippedBytes : List UInt8 → Nat
  | [] => 0
  | b :: rest => if b &&& 0xC0 = 0x80 then skippedBytes rest + 1 else 0

/-- The start of the tail, past the rest of a character that it may lie in. -/
def tailStart (content : List UInt8) (start : Nat) : Nat :=
  if start ≠ 0 then start + skippedBytes (readAt content start 4) else start

/-! ## 2. The two backends -/

/-- `_empty_log`. -/
def emptyLog (stream : String) (offset : Option Int) : Except LogError LogChunk :=
  if stream ≠ "prepare" ∧ stream ≠ "command" then
    .error (.node "Remote Run log stream is invalid" "log_invalid")
  else
    let start := (max 0 (offset.getD 0)).toNat
    .ok ⟨stream, [], start, start, start, true⟩

/-- `NodeRemoteRunRuntime._read_log`. The log may have grown from `stat` to `skip`, when the start
    of the tail is read, and to `later`, when the chunk is. -/
def readLog (stat skip later : LogPaths) (stream : String) (offset : Option Int) (limit : Int) :
    Except LogError LogChunk :=
  if stream ≠ "prepare" ∧ stream ≠ "command" then
    .error (.node "Remote Run log stream is invalid" "log_invalid")
  else if limit ≤ 0 then .error (.node "Remote Run log limit is invalid" "log_invalid")
  else
    let limit := min limit remoteRunLogReadLimit
    match stat.at stream with
    | .missing => emptyLog stream offset
    | .invalid => .error (.node "Remote Run log is invalid" "log_invalid")
    | .regular content =>
      let size := content.length
      let start : Int := offset.getD (size - remoteRunInitialTail : Nat)
      if start < 0 ∨ start > size then
        .error (.node "Remote Run log offset is invalid" "log_invalid")
      else
        let start :=
          if offset = none then tailStart (skip.at stream).content start.toNat else start.toNat
        let raw := readAt (later.at stream).content start (min limit (size - start : Int)).toNat
        let nextOffset := start + raw.length
        .ok ⟨stream, raw, start, nextOffset, size, nextOffset ≥ size⟩

/-- `SSHBackend._read_remote_run_log_connection`. -/
def readRemoteRunLogConnection (stat skip later : LogPaths) (stream : String)
    (offset : Option Int) (limit : Int) : Except LogError LogChunk :=
  if stream ≠ "prepare" ∧ stream ≠ "command" then
    .error (.value "Remote Run log stream must be prepare or command")
  else if limit ≤ 0 then .error (.value "Remote Run log limit must be positive")
  else
    let limit := min limit remoteRunLogReadLimit
    match stat.at stream with
    | .missing => .ok ⟨stream, [], 0, 0, 0, true⟩
    | .invalid => .error (.ssh "Remote Run log is not a regular file")
    | .regular content =>
      let size := content.length
      if ∃ k ∈ offset, k < 0 ∨ k > size then
        .error (.value "Remote Run log offset is outside the current log")
      else
        let start : Int := offset.getD (size - remoteRunInitialTail : Nat)
        let start :=
          if offset = none then tailStart (skip.at stream).content start.toNat else start.toNat
        let raw := readAt (later.at stream).content start
          (min limit (max 0 (size - start : Int))).toNat
        let nextOffset := start + raw.length
        .ok ⟨stream, raw, start, nextOffset, size, nextOffset ≥ size⟩

abbrev Read := (stat skip later : LogPaths) → (stream : String) → Option Int → (limit : Int) →
  Except LogError LogChunk

inductive Backend : Read → Prop
  | node : Backend readLog
  | ssh : Backend readRemoteRunLogConnection

/-! ## 3. Polling -/

/-- A poll that was answered: how long the log was for it, and the page. -/
structure Polled where
  observed : Nat
  page : LogChunk
  deriving DecidableEq, Repr

/-- The polls of a client, the first one without an offset and every other one with the offset
    that the last page named. The log grows between the polls and within them. -/
inductive Polls (read : Read) (stream : String) : LogPaths → Option Nat → List Polled → Prop
  | start (paths : LogPaths) : Polls read stream paths none []
  | grow {paths later : LogPaths} {offset : Option Nat} {polled : List Polled}
      (h : Polls read stream paths offset polled) (hgrows : Grows (paths.at stream) (later.at stream)) :
      Polls read stream later offset polled
  | poll {paths skip later : LogPaths} {offset : Option Nat} {polled : List Polled} {limit : Int}
      {page : LogChunk} (h : Polls read stream paths offset polled)
      (hskip : Grows (paths.at stream) (skip.at stream))
      (hlater : Grows (skip.at stream) (later.at stream)) (hlimit : 0 < limit)
      (hpage : read paths skip later stream (offset.map Int.ofNat) limit = .ok page) :
      Polls read stream later (some page.nextOffset)
        (polled ++ [⟨(paths.at stream).content.length, page⟩])

/-- All that the client has been sent. -/
def received (polled : List Polled) : List UInt8 := polled.flatMap fun p => p.page.chunk

/-- What the pages so far come to. -/
structure Lossless (log : LogFile) (offset : Option Nat) (polled : List Polled) : Prop where
  last : offset = polled.getLast?.map fun p => p.page.nextOffset
  slice : ∀ next, offset = some next → ∃ start,
    received polled <+: log.content.drop start ∧ start + (received polled).length = next ∧
      next ≤ log.content.length ∧ ∀ text, log.content <+: utf8 text → Utf8.Boundary text start
  observed : ∀ p ∈ polled, p.page.size = p.observed
  eof : ∀ p ∈ polled, p.page.eof = true → p.observed ≤ p.page.nextOffset

/-! ## 4. One page -/

variable {read : Read} {stream : String} {paths skip later : LogPaths} {content : List UInt8}
  {offset : Option Nat} {limit : Int} {page : LogChunk} {polled : List Polled}

theorem Grows.extends {log log' : LogFile} (h : Grows log log') :
    log.content <+: log'.content := by
  cases h with
  | stays => exact List.prefix_rfl
  | created content => exact List.nil_prefix
  | appended content more => exact List.prefix_append _ _

theorem Grows.regular {log : LogFile} (h : Grows (.regular content) log) :
    log = .regular log.content := by
  cases h <;> rfl

theorem continuation_iff (b : UInt8) : (b &&& 0xC0 = 0x80) ↔ Utf8.isContinuation b = true := by
  have all : ∀ n < 256, (UInt8.ofNat n &&& 0xC0 = 0x80) ↔
      Utf8.isContinuation (UInt8.ofNat n) = true := by decide +kernel
  have := all b.toNat b.toNat_lt
  rwa [UInt8.ofNat_toNat] at this

theorem skippedBytes_eq {raw : List UInt8} :
    skippedBytes raw = Utf8.leadingContinuations raw.length raw := by
  induction raw with
  | nil => rfl
  | cons b raw ih =>
    rw [skippedBytes, List.length_cons, Utf8.leadingContinuations, ih]
    simp only [continuation_iff]

theorem skippedBytes_le {raw : List UInt8} : skippedBytes raw ≤ raw.length := by
  rw [skippedBytes_eq]
  exact Utf8.leading_le

/-- Where a page starts, if the tail starts at `tail`. -/
def startOf (tail : Nat) (skip : List UInt8) : (offset : Option Nat) → Nat
  | some offset => offset
  | none => tailStart skip tail

/-- A page of the log from a position on. -/
def pageFrom (stream : String) (size start : Nat) (raw : List UInt8) : LogChunk :=
  ⟨stream, raw, start, start + raw.length, size, start + raw.length ≥ size⟩

/-- How much is read. -/
def pageLimit (limit : Int) (size start : Nat) : Nat :=
  (min (min limit remoteRunLogReadLimit) (size - start : Int)).toNat

theorem startOf_le {tail size : Nat} {skip : List UInt8} (htail : tail = 0 ∨ tail + 4 ≤ size)
    (hoffset : ∀ k, offset = some k → k ≤ size) : startOf tail skip offset ≤ size := by
  cases offset with
  | some k => exact hoffset k rfl
  | none =>
    rw [startOf, tailStart]
    split
    · have hskipped := @skippedBytes_le (readAt skip tail 4)
      have hfour : (readAt skip tail 4).length ≤ 4 := by
        rw [readAt, List.length_take]
        exact Nat.min_le_left _ _
      omega
    · omega

theorem tail_room (size : Nat) :
    size - remoteRunInitialTail = 0 ∨ size - remoteRunInitialTail + 4 ≤ size := by
  have : 4 ≤ remoteRunInitialTail := by decide
  omega

theorem start_eq {tail : Nat} {skip : List UInt8} :
    (if offset.map Int.ofNat = none then tailStart skip ((offset.map Int.ofNat).getD tail).toNat
      else ((offset.map Int.ofNat).getD tail).toNat) = startOf tail skip offset := by
  cases offset <;> rfl

theorem known_iff : ¬(stream ≠ "prepare" ∧ stream ≠ "command") ↔
    stream = "prepare" ∨ stream = "command" := by
  rw [not_and_or, not_not, not_not]

/-- **What both backends return** of a log: the page from its start on. -/
theorem Backend.answer (h : Backend read) (hstream : stream = "prepare" ∨ stream = "command")
    (hlimit : 0 < limit) (hstat : paths.at stream = .regular content)
    (hoffset : ∀ k, offset = some k → k ≤ content.length) : ∃ start,
      start = startOf (content.length - remoteRunInitialTail) (skip.at stream).content offset ∧
      read paths skip later stream (offset.map Int.ofNat) limit =
        .ok (pageFrom stream content.length start
          (readAt (later.at stream).content start (pageLimit limit content.length start))) := by
  have known := known_iff.mpr hstream
  have positive : ¬limit ≤ 0 := by omega
  have start := @start_eq offset (content.length - remoteRunInitialTail) (skip.at stream).content
  have hle := @startOf_le offset _ _ (skip.at stream).content (tail_room content.length) hoffset
  have htail : content.length - remoteRunInitialTail ≤ content.length := Nat.sub_le _ _
  refine ⟨_, rfl, ?_⟩
  generalize startOf (content.length - remoteRunInitialTail) (skip.at stream).content offset = s
    at start hle
  cases h with
  | node =>
    unfold readLog
    simp only [known, positive, hstat, if_false]
    generalize content.length - remoteRunInitialTail = tail at start htail
    have inside : ¬((offset.map Int.ofNat).getD tail < 0 ∨
        (offset.map Int.ofNat).getD tail > content.length) := by
      cases offset with
      | none => simp only [Option.map_none, Option.getD_none]; omega
      | some k =>
        have := hoffset k rfl
        simp only [Option.map_some, Option.getD_some, Int.ofNat_eq_natCast]
        omega
    simp only [inside, if_false, start]
    rfl
  | ssh =>
    unfold readRemoteRunLogConnection
    simp only [known, positive, hstat, if_false]
    generalize content.length - remoteRunInitialTail = tail at start htail
    have inside : ¬∃ k ∈ offset.map Int.ofNat, k < 0 ∨ k > content.length := by
      rintro ⟨k, hk, houtside⟩
      obtain ⟨k, hoffset', rfl⟩ := Option.map_eq_some_iff.mp hk
      have := hoffset k hoffset'
      simp only [Int.ofNat_eq_natCast] at houtside
      omega
    have nonneg : max 0 ((content.length : Int) - s) = content.length - s := by omega
    simp only [inside, if_false, start, nonneg]
    rfl

theorem Backend.answer_missing (h : Backend read)
    (hstream : stream = "prepare" ∨ stream = "command") (hlimit : 0 < limit)
    (hstat : paths.at stream = .missing) (hoffset : ∀ k, offset = some k → k = 0) :
    read paths skip later stream (offset.map Int.ofNat) limit =
      .ok (pageFrom stream 0 0 []) := by
  have known := known_iff.mpr hstream
  have positive : ¬limit ≤ 0 := by omega
  cases h with
  | node =>
    unfold readLog emptyLog
    simp only [known, positive, hstat, if_false]
    cases offset with
    | none => rfl
    | some k =>
      obtain rfl := hoffset k rfl
      rfl
  | ssh =>
    unfold readRemoteRunLogConnection
    simp only [known, positive, hstat, if_false]
    rfl

/-- What an answer says of the request. -/
theorem Backend.answered {offset : Option Int} (h : Backend read)
    (hpage : read paths skip later stream offset limit = .ok page) :
    (stream = "prepare" ∨ stream = "command") ∧ paths.at stream ≠ .invalid := by
  cases h with
  | node =>
    unfold readLog at hpage
    split at hpage
    · cases hpage
    rename_i hstream
    refine ⟨known_iff.mp hstream, fun hinvalid => ?_⟩
    split at hpage
    · cases hpage
    · rw [hinvalid] at hpage
      cases hpage
  | ssh =>
    unfold readRemoteRunLogConnection at hpage
    split at hpage
    · cases hpage
    rename_i hstream
    refine ⟨known_iff.mp hstream, fun hinvalid => ?_⟩
    split at hpage
    · cases hpage
    · rw [hinvalid] at hpage
      cases hpage

/-! ## 5. All pages -/

/-- The tail starts with a character. -/
theorem tailStart_boundary {text : List Char} {skip : List UInt8} {tail : Nat}
    (hpart : skip <+: utf8 text) (hroom : tail = 0 ∨ tail + 4 ≤ skip.length) :
    Utf8.Boundary text (tailStart skip tail) := by
  unfold tailStart
  split
  · rename_i htail
    have hlength : tail + 4 ≤ skip.length := hroom.resolve_left htail
    have hwhole := hpart.length_le
    -- the four bytes are those of the text
    have hbytes : readAt skip tail 4 = ((utf8 text).drop tail).take 4 := by
      obtain ⟨rest, hrest⟩ := hpart
      rw [← hrest, readAt, List.drop_append_of_le_length (by omega),
        List.take_append_of_le_length (by rw [List.length_drop]; omega)]
    have hfour : (((utf8 text).drop tail).take 4).length = 4 := by
      rw [List.length_take, List.length_drop]
      omega
    rw [hbytes, skippedBytes_eq, hfour, Utf8.leading_take_self]
    exact Utf8.boundary_leading (by omega) (by decide)
  · rename_i htail
    rw [not_not.mp htail]
    exact Utf8.boundary_zero

/-- A page is a part of the log that was observed. -/
theorem page_slice {later : List UInt8} {size start : Nat} (hstart : start ≤ size) :
    readAt later start (pageLimit limit size start) <+: later.drop start ∧
      start + (readAt later start (pageLimit limit size start)).length ≤ size := by
  refine ⟨List.take_prefix _ _, ?_⟩
  have hlimit : pageLimit limit size start ≤ size - start := by
    unfold pageLimit
    generalize remoteRunLogReadLimit = most
    omega
  rw [readAt, List.length_take]
  omega

theorem received_append {p : Polled} :
    received (polled ++ [p]) = received polled ++ p.page.chunk := by
  simp [received]

/-- The next page goes on behind the last one. -/
theorem slice_append {log sent raw : List UInt8} {start next : Nat}
    (hsent : sent <+: log.drop start) (hnext : start + sent.length = next)
    (hraw : raw <+: log.drop next) : sent ++ raw <+: log.drop start := by
  obtain ⟨rest, hrest⟩ := hsent
  obtain ⟨more, hmore⟩ := hraw
  have hdrop : log.drop next = rest := by
    rw [← hnext, ← List.drop_drop, ← hrest, List.drop_left]
  rw [← hrest, ← hdrop, ← hmore, ← List.append_assoc]
  exact List.prefix_append _ _

theorem Lossless.grow {log log' : LogFile} (h : Lossless log offset polled)
    (hgrows : Grows log log') : Lossless log' offset polled where
  last := h.last
  slice := by
    intro next hnext
    obtain ⟨start, hpart, hlength, hle, hstart⟩ := h.slice next hnext
    refine ⟨start, ?_, hlength, hle.trans hgrows.extends.length_le, ?_⟩
    · exact hpart.trans (hgrows.extends.drop start)
    · intro text htext
      exact hstart text (hgrows.extends.trans htext)
  observed := h.observed
  eof := h.eof

theorem Lossless.append {log : LogFile} {observed : Nat} (h : Lossless log offset polled)
    (hobserved : page.size = observed) (heof : page.eof = true → page.size ≤ page.nextOffset)
    (hslice : ∃ start, received polled ++ page.chunk <+: log.content.drop start ∧
      start + (received polled ++ page.chunk).length = page.nextOffset ∧
      page.nextOffset ≤ log.content.length ∧
      ∀ text, log.content <+: utf8 text → Utf8.Boundary text start) :
    Lossless log (some page.nextOffset) (polled ++ [⟨observed, page⟩]) where
  last := by simp
  slice := by
    intro next hnext
    obtain rfl := Option.some.inj hnext
    rw [received_append]
    exact hslice
  observed := by
    intro q hq
    rcases List.mem_append.mp hq with hq | hq
    · exact h.observed q hq
    · obtain rfl := List.mem_singleton.mp hq
      exact hobserved
  eof := by
    intro q hq hend
    rcases List.mem_append.mp hq with hq | hq
    · exact h.eof q hq hend
    · obtain rfl := List.mem_singleton.mp hq
      exact hobserved ▸ heof hend

/-- The next page is to start within the log. -/
theorem Lossless.within {log : LogFile} {k : Nat} (h : Lossless log offset polled)
    (hk : offset = some k) : k ≤ log.content.length := by
  obtain ⟨_, _, _, hle, _⟩ := h.slice k hk
  exact hle

/-- A poll of a log that is there. -/
theorem Lossless.poll_regular (hread : Backend read) (h : Lossless (paths.at stream) offset polled)
    (hstat : paths.at stream = .regular content)
    (hskip : Grows (paths.at stream) (skip.at stream))
    (hlater : Grows (skip.at stream) (later.at stream)) (hlimit : 0 < limit)
    (hpage : read paths skip later stream (offset.map Int.ofNat) limit = .ok page) :
    Lossless (later.at stream) (some page.nextOffset) (polled ++ [⟨content.length, page⟩]) := by
  have hoffset : ∀ k, offset = some k → k ≤ content.length := by
    rw [hstat] at h
    exact fun k hk => h.within hk
  obtain ⟨start, hstart, hanswer⟩ := @Backend.answer read stream paths skip later content offset
    limit hread (hread.answered hpage).1 hlimit hstat hoffset
  obtain rfl := Except.ok.inj (hpage.symm.trans hanswer)
  have hgrown := h.grow hskip |>.grow hlater
  rw [hstat] at hskip
  have hroom : content.length ≤ (skip.at stream).content.length := hskip.extends.length_le
  have hlength := hroom.trans hlater.extends.length_le
  have htail := tail_room content.length
  have hle : start ≤ content.length := by
    rw [hstart]
    exact startOf_le htail hoffset
  obtain ⟨hpart, hnext⟩ := @page_slice limit (later.at stream).content content.length start hle
  apply hgrown.append rfl of_decide_eq_true
  cases offset with
  | none =>
    -- the first page
    have hfirst : polled = [] := by simpa using h.last
    refine ⟨start, ?_, ?_, hnext.trans hlength, ?_⟩
    · rw [hfirst]
      exact hpart
    · rw [hfirst]
      rfl
    · intro text htext
      rw [hstart]
      apply tailStart_boundary (hlater.extends.trans htext)
      omega
  | some next =>
    obtain ⟨first, hsent, hlast, -, hboundary⟩ := hgrown.slice next rfl
    obtain rfl : start = next := hstart
    refine ⟨first, slice_append hsent hlast hpart, ?_, hnext.trans hlength, hboundary⟩
    rw [List.length_append, ← Nat.add_assoc, hlast]
    rfl

/-- A poll of a log that has not been created. -/
theorem Lossless.poll_missing (hread : Backend read) (h : Lossless (paths.at stream) offset polled)
    (hstat : paths.at stream = .missing) (hskip : Grows (paths.at stream) (skip.at stream))
    (hlater : Grows (skip.at stream) (later.at stream)) (hlimit : 0 < limit)
    (hpage : read paths skip later stream (offset.map Int.ofNat) limit = .ok page) :
    Lossless (later.at stream) (some page.nextOffset) (polled ++ [⟨0, page⟩]) := by
  have hoffset : ∀ k, offset = some k → k = 0 := by
    rw [hstat] at h
    exact fun k hk => Nat.le_zero.mp (h.within hk)
  have hanswer := @Backend.answer_missing read stream paths skip later offset limit hread
    (hread.answered hpage).1 hlimit hstat hoffset
  obtain rfl := Except.ok.inj (hpage.symm.trans hanswer)
  have hempty : received polled = [] := by
    cases offset with
    | none =>
      have hfirst : polled = [] := by simpa using h.last
      rw [hfirst]
      rfl
    | some k =>
      obtain ⟨start, _, hlength, _⟩ := h.slice k rfl
      have := hoffset k rfl
      exact List.eq_nil_of_length_eq_zero (by omega)
  apply (h.grow hskip |>.grow hlater).append rfl (fun _ => Nat.le_refl 0)
  rw [hempty]
  refine ⟨0, List.nil_prefix, rfl, Nat.zero_le _, ?_⟩
  intro text _
  exact Utf8.boundary_zero

theorem lossless_of_polls (hread : Backend read) (h : Polls read stream paths offset polled) :
    Lossless (paths.at stream) offset polled := by
  induction h with
  | start paths =>
    constructor
    · rfl
    · intro next hnext
      cases hnext
    · intro p hp
      exact absurd hp List.not_mem_nil
    · intro p hp
      exact absurd hp List.not_mem_nil
  | grow h hgrows ih => exact ih.grow hgrows
  | @poll paths skip later offset polled limit page h hskip hlater hlimit hpage ih =>
    cases hstat : paths.at stream with
    | missing => exact ih.poll_missing hread hstat hskip hlater hlimit hpage
    | invalid => exact absurd hstat (hread.answered hpage).2
    | regular content => exact ih.poll_regular hread hstat hskip hlater hlimit hpage

/-- **The pages of a log come to one slice of it**, on both backends. -/
theorem paging_lossless (hread : Backend read) (h : Polls read stream paths offset polled) :
    Lossless (paths.at stream) offset polled := lossless_of_polls hread h

/-- A log that is created between two polls, and grows under the third. -/
theorem paging_lossless_growing :
    Lossless (.regular [0xE2, 0x82, 0xAC]) (some 3)
      [⟨0, ⟨"command", [], 0, 0, 0, true⟩⟩, ⟨2, ⟨"command", [0xE2], 0, 1, 2, false⟩⟩,
        ⟨3, ⟨"command", [0x82, 0xAC], 1, 3, 3, true⟩⟩] := by
  let missing : LogPaths := ⟨.missing, .missing⟩
  let half : LogPaths := ⟨.missing, .regular [0xE2, 0x82]⟩
  let whole : LogPaths := ⟨.missing, .regular [0xE2, 0x82, 0xAC]⟩
  have first : Polls readLog "command" missing (some 0) _ :=
    @Polls.poll _ _ missing missing missing none [] 9 ⟨"command", [], 0, 0, 0, true⟩ (.start _)
      (.stays _) (.stays _) (by decide) (by decide +kernel)
  have second : Polls readLog "command" whole (some 1) _ :=
    @Polls.poll _ _ half half whole (some 0) _ 1 ⟨"command", [0xE2], 0, 1, 2, false⟩
      (first.grow (.created _)) (.stays _) (.appended [0xE2, 0x82] [0xAC]) (by decide)
      (by decide +kernel)
  have third : Polls readLog "command" whole (some 3) _ :=
    @Polls.poll _ _ whole whole whole (some 1) _ 9 ⟨"command", [0x82, 0xAC], 1, 3, 3, true⟩
      second (.stays _) (.stays _) (by decide) (by decide +kernel)
  exact paging_lossless .node third

/-- **Every poll is answered**, as long as the log is one. -/
theorem paging_answers (hread : Backend read) (h : Polls read stream paths offset polled)
    (hstream : stream = "prepare" ∨ stream = "command") (hlimit : 0 < limit)
    (hlog : paths.at stream ≠ .invalid) :
    ∃ page, read paths skip later stream (offset.map Int.ofNat) limit = .ok page := by
  have hlossless := lossless_of_polls hread h
  cases hstat : paths.at stream with
  | invalid => exact absurd hstat hlog
  | missing =>
    rw [hstat] at hlossless
    refine ⟨_, hread.answer_missing hstream hlimit hstat fun k hk => ?_⟩
    exact Nat.le_zero.mp (hlossless.within hk)
  | regular content =>
    rw [hstat] at hlossless
    have hoffset : ∀ k, offset = some k → k ≤ content.length := fun k hk => hlossless.within hk
    obtain ⟨start, -, hanswer⟩ := @Backend.answer read stream paths skip later content offset
      limit hread hstream hlimit hstat hoffset
    exact ⟨_, hanswer⟩

end Termroom.RemoteRun.Log
