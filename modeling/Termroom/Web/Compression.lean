import Mathlib
import Termroom.Data.Strip

/-!
# Responses compressed on their way

The responder stands between an application and its client. It holds the start message back until
it sees the first body message, and then either lets everything pass, or compresses the one body,
or compresses the stream as it comes. **What the client decodes is what the application sent**
(`compression_transparent`), as long as the application's last body message is the one that says
so.
-/

set_option autoImplicit false

namespace Termroom.Web.Compression

open Data

/-! ## 1. Headers -/

/-- A header's name, which ASGI has in lower case. -/
structure HeaderName where
  text : List Char
  lower : text.all (fun c => !c.isUpper) = true
  deriving DecidableEq

/-- A header, as latin-1 decodes it. -/
structure Header where
  name : HeaderName
  value : List Char
  deriving DecidableEq

def contentType : HeaderName := ⟨"content-type".toList, by decide⟩
def contentEncoding : HeaderName := ⟨"content-encoding".toList, by decide⟩
def contentRange : HeaderName := ⟨"content-range".toList, by decide⟩
def contentDisposition : HeaderName := ⟨"content-disposition".toList, by decide⟩
def contentLength : HeaderName := ⟨"content-length".toList, by decide⟩
def etag : HeaderName := ⟨"etag".toList, by decide⟩
def vary : HeaderName := ⟨"vary".toList, by decide⟩

/-- The values of all headers of a name. -/
def values (name : HeaderName) (headers : List Header) : List (List Char) :=
  (headers.filter fun header => header.name = name).map Header.value

/-- `name in headers`. -/
def has (name : HeaderName) (headers : List Header) : Bool :=
  headers.any fun header => header.name = name

/-- `headers[name] = value`: the first header of the name is replaced, and others go. -/
def setHeader (name : HeaderName) (value : List Char) : List Header → List Header
  | [] => [⟨name, value⟩]
  | header :: headers =>
    if header.name = name then ⟨name, value⟩ :: headers.filter fun header => header.name ≠ name
    else header :: setHeader name value headers

/-- `del headers[name]`. -/
def delHeader (name : HeaderName) (headers : List Header) : List Header :=
  headers.filter fun header => header.name ≠ name

/-- `headers.add_vary_header(value)`. -/
def addVaryHeader (value : List Char) (headers : List Header) : List Header :=
  match values vary headers with
  | [] => setHeader vary value headers
  | existing :: _ => setHeader vary (existing ++ ", ".toList ++ value) headers

/-! ## 2. What is compressed -/

/-- `str.casefold`, in latin-1. -/
def casefold (c : Char) : List Char :=
  let n := c.toNat
  if (65 ≤ n ∧ n ≤ 90) ∨ (0xc0 ≤ n ∧ n ≤ 0xde ∧ n ≠ 0xd7) then [Char.ofNat (n + 32)]
  else if n = 0xdf then ['s', 's']
  else if n = 0xb5 then ['μ']
  else [c]

def mediaType (contentType : List Char) : List Char :=
  (strip (contentType.takeWhile (· ≠ ';'))).flatMap casefold

def dynamicResponseIsCompressible (contentType : List Char) : Bool :=
  let mediaType := mediaType contentType
  if mediaType = "text/event-stream".toList then false
  else
    "text/".toList.isPrefixOf mediaType ||
      ["application/json", "application/javascript", "application/xml",
        "application/manifest+json", "image/svg+xml"].any (fun name => name.toList = mediaType) ||
      "+json".toList.isSuffixOf mediaType || "+xml".toList.isSuffixOf mediaType

def compressible (headers : List Header) : Bool :=
  dynamicResponseIsCompressible ((values contentType headers).headD []) &&
    !has contentEncoding headers && !has contentRange headers &&
    !has contentDisposition headers && !has etag headers

/-- What a compressed response varies with, and how it is encoded. -/
def acceptEncoding : List Char := "Accept-Encoding".toList
def gzip : List Char := "gzip".toList

/-- `zlib` and `gzip`: a compressor is a state, and compressing a chunk moves it on. -/
structure Gzip where
  State : Type
  compressobj : Int → State
  compress : State → List UInt8 → List UInt8 × State
  flush : State → List UInt8
  gzipCompress : Int → List UInt8 → List UInt8
  decompress : List UInt8 → Option (List UInt8)

variable {g : Gzip}

/-- What a compressor makes of some chunks and the flush after them. -/
def Gzip.stream (g : Gzip) : g.State → List (List UInt8) → List UInt8
  | state, [] => g.flush state
  | state, chunk :: chunks =>
    (g.compress state chunk).1 ++ g.stream (g.compress state chunk).2 chunks

/-- Decompression inverts both ways to compress. -/
structure Gzip.Inverts (g : Gzip) (compresslevel : Int) : Prop where
  stream : ∀ chunks, chunks ≠ [] →
    g.decompress (g.stream (g.compressobj compresslevel) chunks) = some chunks.flatten
  whole : ∀ body, g.decompress (g.gzipCompress compresslevel body) = some body

/-! ## 3. The responder -/

structure Start where
  status : Nat
  headers : Option (List Header)

/-- A body message, whose keys are optional. -/
structure Body where
  body : Option (List UInt8)
  moreBody : Option Bool

/-- `message.get("body", b"")`. -/
def Body.bytes (b : Body) : List UInt8 := b.body.getD []

/-- `message.get("more_body", False)`. -/
def Body.more (b : Body) : Bool := b.moreBody.getD false

/-- `message["body"] = bytes`. -/
def Body.put (b : Body) (bytes : List UInt8) : Body := { b with body := some bytes }

inductive Message where
  | start (start : Start)
  | body (body : Body)
  | pathsend (path : List Char)
  | other (type : List Char)

inductive Mode where
  | pending
  | passthrough
  | compress

/-- `KeyError`. -/
inductive SendError where
  | key (name : String)

structure Responder (g : Gzip) where
  initialMessage : Option Start
  mode : Mode
  compressor : Option g.State

structure Config where
  acceptsGzip : Bool
  minimumSize : Int
  compresslevel : Int

def Responder.init (g : Gzip) : Responder g := ⟨none, .pending, none⟩

/-- The start message and the first body message as they are. -/
def passBoth (r : Responder g) (start : Start) (headers : List Header) (b : Body) :
    Responder g × List Message :=
  ({ r with mode := .passthrough }, [.start { start with headers := some headers }, .body b])

/-- The first body message decides. Bodies from 64 KiB on are compressed in a thread, to the same
    bytes. -/
def sendFirst (config : Config) (r : Responder g) (start : Start) (b : Body) :
    Except SendError (Responder g × List Message) :=
  match start.headers with
  | none => .error (.key "headers")
  | some headers =>
    let headers' :=
      if compressible headers then addVaryHeader acceptEncoding headers else headers
    if !compressible headers || !config.acceptsGzip then .ok (passBoth r start headers' b)
    else if b.more then
      let encoded := delHeader contentLength (setHeader contentEncoding gzip headers')
      let (compressed, compressor) := g.compress (g.compressobj config.compresslevel) b.bytes
      .ok ({ r with mode := .compress, compressor := some compressor },
        [.start { start with headers := some encoded }, .body (b.put compressed)])
    else if (b.bytes.length : Int) < config.minimumSize then .ok (passBoth r start headers' b)
    else
      let compressed := g.gzipCompress config.compresslevel b.bytes
      if compressed.length ≥ b.bytes.length then .ok (passBoth r start headers' b)
      else
        let encoded := setHeader contentLength (Nat.toDigits 10 compressed.length)
          (setHeader contentEncoding gzip headers')
        .ok (passBoth r start encoded (b.put compressed))

/-- `_DynamicGZipResponder._send`, with what it passes on. -/
def send (config : Config) (r : Responder g) :
    Message → Except SendError (Responder g × List Message)
  | .start start => .ok ({ r with initialMessage := some start }, [])
  | message =>
    match r.mode with
    | .passthrough => .ok (r, [message])
    | .compress =>
      match message, r.compressor with
      | .body b, some compressor =>
        let (compressed, compressor') := g.compress compressor b.bytes
        if b.more then
          .ok ({ r with compressor := some compressor' },
            [.body (b.put compressed)])
        else
          .ok ({ r with mode := .passthrough, compressor := some compressor' },
            [.body (b.put (compressed ++ g.flush compressor'))])
      | message, _ => .ok (r, [message])
    | .pending =>
      match r.initialMessage, message with
      | some start, .pathsend path =>
        .ok ({ r with initialMessage := none, mode := .passthrough },
          [.start start, .pathsend path])
      | some start, .body b => sendFirst config { r with initialMessage := none } start b
      | _, message => .ok (r, [message])

def sendAll (config : Config) :
    Responder g → List Message → Except SendError (Responder g × List Message)
  | r, [] => .ok (r, [])
  | r, message :: messages => do
    let (r, sent) ← send config r message
    let (r, rest) ← sendAll config r messages
    return (r, sent ++ rest)

/-! ## 4. Headers that are set -/

variable {name name' : HeaderName} {value : List Char} {headers : List Header}

theorem values_filter_ne (h : name' ≠ name) :
    values name' (headers.filter fun header => header.name ≠ name) = values name' headers := by
  unfold values
  rw [List.filter_filter]
  congr 1
  apply List.filter_congr
  intro header _
  by_cases hname : header.name = name'
  · simp [hname, h]
  · simp [hname]

theorem values_setHeader_self : values name (setHeader name value headers) = [value] := by
  induction headers with
  | nil => simp [setHeader, values]
  | cons header headers ih =>
    unfold setHeader
    by_cases h : header.name = name
    · rw [if_pos h]
      simp [values, List.filter_filter]
    · rw [if_neg h]
      simpa [values, h] using ih

theorem values_setHeader_ne (h : name' ≠ name) :
    values name' (setHeader name value headers) = values name' headers := by
  induction headers with
  | nil => simp [setHeader, values, Ne.symm h]
  | cons header headers ih =>
    unfold setHeader
    by_cases hname : header.name = name
    · rw [if_pos hname]
      have hrest : values name' (headers.filter fun header => header.name ≠ name) =
          values name' headers := values_filter_ne h
      simpa [values, hname, Ne.symm h] using hrest
    · rw [if_neg hname]
      unfold values at ih ⊢
      rw [List.filter_cons, List.filter_cons]
      split
      · rw [List.map_cons, List.map_cons, ih]
      · exact ih

theorem values_delHeader_self : values name (delHeader name headers) = [] := by
  simp [values, delHeader, List.filter_filter]

theorem values_addVaryHeader (h : name ≠ vary) :
    values name (addVaryHeader value headers) = values name headers := by
  unfold addVaryHeader
  split
  · exact values_setHeader_ne h
  · exact values_setHeader_ne h

/-- No header is there where none is found. -/
theorem values_of_not_has (h : has name headers = false) : values name headers = [] := by
  unfold values
  rw [List.map_eq_nil_iff, List.filter_eq_nil_iff]
  intro header hmem
  exact List.any_eq_false.mp h header hmem

theorem encoding_of_compressible (h : compressible headers = true) :
    values contentEncoding headers = [] := by
  unfold compressible at h
  simp only [Bool.and_eq_true, Bool.not_eq_true'] at h
  exact values_of_not_has h.1.1.1.2

/-! ## 5. What the client sees -/

/-- The bytes of some body messages. -/
def content (bodies : List Body) : List UInt8 := bodies.flatMap Body.bytes

/-- What a body is by the codings that its headers name; of codings other than gzip nothing is
    known. -/
def Gzip.decoded (g : Gzip) (other : List (List Char) → List UInt8 → Option (List UInt8))
    (headers : List Header) (body : List UInt8) : Option (List UInt8) :=
  match values contentEncoding headers with
  | [] => some body
  | [coding] =>
    if coding = gzip then g.decompress body else other [coding] body
  | codings => other codings body

/-- The number that a Content-Length stands for. -/
def declaredLength (value : List Char) : Option Nat :=
  if value ≠ [] ∧ value.all Char.isDigit then some (Nat.ofDigitChars 10 value 0) else none

/-- Every Content-Length is the number of bytes. -/
def Counted (headers : List Header) (bodies : List Body) : Prop :=
  ∀ value ∈ values contentLength headers,
    declaredLength value = some (content bodies).length

/-- A body message that says it is the last one is. -/
def Ordered (bodies : List Body) : Prop := ∀ b ∈ bodies.dropLast, b.more = true

/-- The last body message says that it is, and only that one does. -/
def Finished (bodies : List Body) : Prop :=
  Ordered bodies ∧ ∃ b ∈ bodies.getLast?, b.more = false

/-! ## 6. The modes -/

variable {config : Config} {r : Responder g} {bodies : List Body} {b b' : Body} {start : Start}
  {other : List (List Char) → List UInt8 → Option (List UInt8)}

theorem sendAll_cons {message : Message} {messages sent : List Message} {r' : Responder g}
    (h : send config r message = .ok (r', sent)) : sendAll config r (message :: messages) =
      (sendAll config r' messages).map fun next => (next.1, sent ++ next.2) := by
  rw [sendAll, h]
  cases hrest : sendAll config r' messages with
  | ok result => simp [hrest, bind, Except.bind, Except.map, pure, Except.pure]
  | error e => simp [hrest, bind, Except.bind, Except.map]

theorem declaredLength_toDigits (n : Nat) : declaredLength (Nat.toDigits 10 n) = some n := by
  have hdigits : (Nat.toDigits 10 n).all Char.isDigit = true := by
    rw [List.all_eq_true]
    intro c hc
    exact Nat.isDigit_of_mem_toDigits (by decide) (by decide) hc
  rw [declaredLength, if_pos ⟨Nat.toDigits_ne_nil, hdigits⟩, Nat.ofDigitChars_ten_toDigits]

/-- Nothing follows the message that says it is the last one. -/
theorem Ordered.nil_of_last (h : Ordered (b :: bodies)) (last : b.more = false) :
    bodies = [] := by
  cases bodies with
  | nil => rfl
  | cons next bodies =>
    have hmore := h b (by simp)
    rw [last] at hmore
    cases hmore

theorem Finished.tail (h : Finished (b :: bodies)) (more : b.more = true) :
    Finished bodies := by
  obtain ⟨ordered, last, hlast, hmore⟩ := h
  cases bodies with
  | nil =>
    obtain rfl : b = last := by simpa using hlast
    rw [more] at hmore
    cases hmore
  | cons next bodies =>
    refine ⟨?_, last, ?_, hmore⟩
    · intro c hc
      exact ordered c (by simp [hc])
    · simpa using hlast

theorem passthrough_all (h : r.mode = .passthrough) :
    sendAll config r (bodies.map .body) = .ok (r, bodies.map .body) := by
  induction bodies with
  | nil => rfl
  | cons b bodies ih =>
    have hsend : send config r (.body b) = .ok (r, [.body b]) := by
      simp [send, h]
    rw [List.map_cons, sendAll_cons hsend, ih]
    rfl

/-- The rest of a stream: each message is compressed, and the last one ends the compressor. -/
theorem compress_all (config : Config) (bodies : List Body) {state : g.State}
    (hmode : r.mode = .compress) (hcompressor : r.compressor = some state) :
    ∃ r' bodies', sendAll config r (bodies.map .body) = .ok (r', bodies'.map .body) ∧
      bodies'.map Body.moreBody = bodies.map Body.moreBody ∧
      (Finished bodies → content bodies' = g.stream state (bodies.map Body.bytes)) := by
  induction bodies generalizing r state with
  | nil =>
    refine ⟨r, [], rfl, rfl, ?_⟩
    rintro ⟨-, last, hlast, -⟩
    cases hlast
  | cons b bodies ih =>
    by_cases more : b.more = true
    · have hsend : send config r (.body b) =
          .ok ({ r with compressor := some (g.compress state b.bytes).2 },
            [.body (b.put (g.compress state b.bytes).1)]) := by
        simp [send, hmode, hcompressor, more]
      obtain ⟨r', bodies', hall, hflags, hcontent⟩ :=
        ih (r := { r with compressor := some (g.compress state b.bytes).2 }) hmode rfl
      refine ⟨r', b.put (g.compress state b.bytes).1 :: bodies', ?_, ?_, ?_⟩
      · rw [List.map_cons, sendAll_cons hsend, hall]
        rfl
      · rw [List.map_cons, List.map_cons, hflags]
        rfl
      · intro finished
        have hrest := hcontent (finished.tail more)
        unfold content at hrest ⊢
        rw [List.flatMap_cons, hrest]
        rfl
    · -- from the last message on everything passes
      have last : b.more = false := by simpa using more
      have hsend : send config r (.body b) =
          .ok ({ r with mode := .passthrough, compressor := some (g.compress state b.bytes).2 },
            [.body (b.put
              ((g.compress state b.bytes).1 ++ g.flush (g.compress state b.bytes).2))]) := by
        simp [send, hmode, hcompressor, last]
      refine ⟨{ r with mode := .passthrough, compressor := some (g.compress state b.bytes).2 },
        b.put ((g.compress state b.bytes).1 ++ g.flush (g.compress state b.bytes).2) :: bodies,
        ?_, rfl, ?_⟩
      · rw [List.map_cons, sendAll_cons hsend, passthrough_all rfl]
        rfl
      · intro finished
        rw [finished.1.nil_of_last last]
        simp [content, Body.put, Body.bytes, Gzip.stream]

/-! ## 7. The whole response -/

/-- What a client gets of a response, beside what the application sent: as many body messages with
    the same flags, and, where the application ends its response in order, what decodes to the
    same and is as long as it says. -/
structure Delivered (g : Gzip) (other : List (List Char) → List UInt8 → Option (List UInt8))
    (headers : List Header) (bodies : List Body) (headers' : List Header)
    (bodies' : List Body) : Prop where
  flags : bodies'.map Body.moreBody = bodies.map Body.moreBody
  decoded : Finished bodies →
    g.decoded other headers' (content bodies') = g.decoded other headers (content bodies)
  counted : Ordered bodies → Counted headers bodies → Counted headers' bodies'

variable {status : Nat} {headers' : List Header} {rest : List Body}

/-- Where the first body message is passed on, all of them are. -/
theorem Delivered.passed
    (encoding : values contentEncoding headers' = values contentEncoding headers)
    (length : values contentLength headers' = values contentLength headers) :
    Delivered g other headers bodies headers' bodies where
  flags := rfl
  decoded := by
    intro _
    unfold Gzip.decoded
    rw [encoding]
  counted := by
    intro _ counted value hvalue
    rw [length] at hvalue
    exact counted value hvalue

/-- The start message is held back until the first body message has been seen. -/
theorem sendAll_start {messages sent : List Message} {r' : Responder g}
    (h : sendFirst config (.init g) start b = .ok (r', sent)) :
    sendAll config (.init g) (.start start :: .body b :: messages) =
      (sendAll config r' messages).map fun next => (next.1, sent ++ next.2) := by
  have hstart : send config (.init g) (.start start) =
      .ok ({ Responder.init g with initialMessage := some start }, []) := rfl
  have hfirst : send config { Responder.init g with initialMessage := some start } (.body b) =
      .ok (r', sent) := h
  rw [sendAll_cons hstart, sendAll_cons hfirst]
  cases sendAll config r' messages <;> rfl

theorem sendAll_passBoth (rest : List Body)
    (h : sendFirst config (.init g) ⟨status, some headers⟩ b =
      .ok (passBoth (.init g) ⟨status, some headers⟩ headers' b')) :
    ∃ r', sendAll config (.init g)
        (.start ⟨status, some headers⟩ :: (b :: rest).map .body) =
      .ok (r', .start ⟨status, some headers'⟩ :: (b' :: rest).map .body) := by
  refine ⟨{ Responder.init g with mode := .passthrough }, ?_⟩
  rw [List.map_cons, sendAll_start h, passthrough_all rfl]
  rfl

/-- The headers of a response that is compressed name gzip, and no other coding. -/
theorem decoded_gzip {body : List UInt8}
    (h : values contentEncoding headers = [gzip]) :
    g.decoded other headers body = g.decompress body := by
  unfold Gzip.decoded
  rw [h]
  exact if_pos rfl

theorem decoded_plain {body : List UInt8} (h : values contentEncoding headers = []) :
    g.decoded other headers body = some body := by
  unfold Gzip.decoded
  rw [h]

/-- A stream that is compressed as it comes. -/
theorem stream_delivered (inverts : g.Inverts config.compresslevel)
    (hcompressible : compressible headers = true) (haccepts : config.acceptsGzip = true)
    (more : b.more = true) :
    ∃ r' headers' bodies', sendAll config (.init g)
        (.start ⟨status, some headers⟩ :: (b :: rest).map .body) =
      .ok (r', .start ⟨status, some headers'⟩ :: bodies'.map .body) ∧
      Delivered g other headers (b :: rest) headers' bodies' := by
  generalize hstate : g.compressobj config.compresslevel = state
  generalize hencoded : delHeader contentLength
    (setHeader contentEncoding gzip (addVaryHeader acceptEncoding headers)) = encoded
  have hfirst : sendFirst config (.init g) ⟨status, some headers⟩ b =
      .ok (⟨none, .compress, some (g.compress state b.bytes).2⟩,
        [.start ⟨status, some encoded⟩, .body (b.put (g.compress state b.bytes).1)]) := by
    simp [sendFirst, hcompressible, haccepts, more, Responder.init, hencoded, hstate]
  obtain ⟨r', bodies', hall, hflags, hcontent⟩ := compress_all config rest
    (r := ⟨none, .compress, some (g.compress state b.bytes).2⟩) rfl rfl
  refine ⟨r', encoded, b.put (g.compress state b.bytes).1 :: bodies', ?_, ?_, ?_, ?_⟩
  · rw [List.map_cons, sendAll_start hfirst, hall]
    rfl
  · rw [List.map_cons, List.map_cons, hflags]
    rfl
  · intro finished
    have hgzip : values contentEncoding encoded = [gzip] := by
      rw [← hencoded, delHeader, values_filter_ne (by decide), values_setHeader_self]
    rw [decoded_gzip hgzip, decoded_plain (encoding_of_compressible hcompressible)]
    -- the chunks that were sent are the compressor's, in one piece
    have hrest := hcontent (finished.tail more)
    have hsent : content (b.put (g.compress state b.bytes).1 :: bodies') =
        g.stream state ((b :: rest).map Body.bytes) := by
      unfold content at hrest ⊢
      rw [List.flatMap_cons, hrest]
      rfl
    rw [hsent, ← hstate, inverts.stream _ (by simp), content, List.flatMap_def]
  · intro _ _ value hvalue
    rw [← hencoded, values_delHeader_self] at hvalue
    cases hvalue

/-- A body that is compressed as a whole. -/
theorem whole_delivered (inverts : g.Inverts config.compresslevel)
    (hcompressible : compressible headers = true) (haccepts : config.acceptsGzip = true)
    (last : b.more = false) (hlarge : ¬(b.bytes.length : Int) < config.minimumSize)
    (hshorter : (g.gzipCompress config.compresslevel b.bytes).length < b.bytes.length) :
    ∃ r' headers' bodies', sendAll config (.init g)
        (.start ⟨status, some headers⟩ :: (b :: rest).map .body) =
      .ok (r', .start ⟨status, some headers'⟩ :: bodies'.map .body) ∧
      Delivered g other headers (b :: rest) headers' bodies' := by
  have hwhole := inverts.whole b.bytes
  generalize hcompressed : g.gzipCompress config.compresslevel b.bytes = compressed
    at hshorter hwhole
  generalize hencoded : setHeader contentLength (Nat.toDigits 10 compressed.length)
    (setHeader contentEncoding gzip (addVaryHeader acceptEncoding headers)) = encoded
  have hfirst : sendFirst config (.init g) ⟨status, some headers⟩ b =
      .ok (passBoth (.init g) ⟨status, some headers⟩ encoded (b.put compressed)) := by
    simp [sendFirst, hcompressible, haccepts, last, hlarge, hcompressed,
      Nat.not_le_of_lt hshorter, hencoded]
  obtain ⟨r', hall⟩ := sendAll_passBoth rest hfirst
  refine ⟨r', encoded, b.put compressed :: rest, hall, rfl, ?_, ?_⟩
  · intro finished
    obtain rfl := finished.1.nil_of_last last
    have hgzip : values contentEncoding encoded = [gzip] := by
      rw [← hencoded, values_setHeader_ne (by decide), values_setHeader_self]
    rw [decoded_gzip hgzip, decoded_plain (encoding_of_compressible hcompressible)]
    simpa [content, Body.put, Body.bytes] using hwhole
  · intro ordered _ value hvalue
    obtain rfl := ordered.nil_of_last last
    rw [← hencoded, values_setHeader_self, List.mem_singleton] at hvalue
    rw [hvalue, declaredLength_toDigits]
    simp [content, Body.put, Body.bytes]

/-- **Every response with a body.** -/
theorem bodies_delivered (inverts : g.Inverts config.compresslevel) (hne : bodies ≠ []) :
    ∃ r' headers' bodies', sendAll config (.init g)
        (.start ⟨status, some headers⟩ :: bodies.map .body) =
      .ok (r', .start ⟨status, some headers'⟩ :: bodies'.map .body) ∧
      Delivered g other headers bodies headers' bodies' := by
  obtain ⟨b, rest, rfl⟩ := List.exists_cons_of_ne_nil hne
  by_cases hcompressible : compressible headers = true
  case neg =>
    have hfirst : sendFirst config (.init g) ⟨status, some headers⟩ b =
        .ok (passBoth (.init g) ⟨status, some headers⟩ headers b) := by
      simp [sendFirst, hcompressible]
    obtain ⟨r', hall⟩ := sendAll_passBoth rest hfirst
    exact ⟨r', headers, b :: rest, hall, .passed rfl rfl⟩
  have passes : sendFirst config (.init g) ⟨status, some headers⟩ b =
      .ok (passBoth (.init g) ⟨status, some headers⟩ (addVaryHeader acceptEncoding headers) b) →
      ∃ r' headers' bodies', sendAll config (.init g)
          (.start ⟨status, some headers⟩ :: (b :: rest).map .body) =
        .ok (r', .start ⟨status, some headers'⟩ :: bodies'.map .body) ∧
        Delivered g other headers (b :: rest) headers' bodies' := by
    intro hfirst
    obtain ⟨r', hall⟩ := sendAll_passBoth rest hfirst
    refine ⟨r', _, b :: rest, hall, .passed ?_ ?_⟩
    · exact values_addVaryHeader (by decide)
    · exact values_addVaryHeader (by decide)
  by_cases haccepts : config.acceptsGzip = true
  case neg =>
    apply passes
    simp [sendFirst, hcompressible, haccepts]
  by_cases more : b.more = true
  · exact stream_delivered inverts hcompressible haccepts more
  have last : b.more = false := by simpa using more
  by_cases hsmall : (b.bytes.length : Int) < config.minimumSize
  · apply passes
    simp [sendFirst, hcompressible, haccepts, last, hsmall]
  by_cases hlonger : b.bytes.length ≤ (g.gzipCompress config.compresslevel b.bytes).length
  · apply passes
    simp [sendFirst, hcompressible, haccepts, last, hsmall, hlonger]
  exact whole_delivered inverts hcompressible haccepts last hsmall (Nat.lt_of_not_le hlonger)

/-- **Compression is transparent**: the start message comes first and once, the body messages keep
    their number and their flags, and what they decode to and how long they are is as the
    application has it, where it ends its response in order. A file is left to the server. -/
theorem compression_transparent (g : Gzip)
    (other : List (List Char) → List UInt8 → Option (List UInt8)) (config : Config)
    (inverts : g.Inverts config.compresslevel) (status : Nat) (headers : List Header) :
    (∀ bodies, bodies ≠ [] → ∃ r' headers' bodies', sendAll config (.init g)
        (.start ⟨status, some headers⟩ :: bodies.map .body) =
      .ok (r', .start ⟨status, some headers'⟩ :: bodies'.map .body) ∧
      Delivered g other headers bodies headers' bodies') ∧
    ∀ path, ∃ r', sendAll config (.init g) [.start ⟨status, some headers⟩, .pathsend path] =
      .ok (r', [.start ⟨status, some headers⟩, .pathsend path]) := by
  constructor
  · intro bodies hne
    exact bodies_delivered inverts hne
  · intro path
    exact ⟨{ Responder.init g with mode := .passthrough }, rfl⟩

/-! ## 8. A response that goes on after its last message -/

/-- A hundred times the letter a, and what `gzip` makes of it after its own header. -/
def letters : List UInt8 := List.replicate 100 97
def gzipHeader : List UInt8 := [31, 139, 8, 0, 0, 0, 0, 0, 0, 3]
def lettersTail : List UInt8 := [75, 76, 164, 61, 0, 0, 100, 122, 112, 175, 100, 0, 0, 0]

def sampleTail (body : List UInt8) : List UInt8 :=
  if body = letters then lettersTail else 255 :: body

def sampleUntail (rest : List UInt8) : Option (List UInt8) :=
  if rest = lettersTail then some letters
  else
    match rest with
    | 255 :: body => some body
    | _ => none

/-- `gzip` on the letters; other bodies are marked and stored. -/
def sampleGzip : Gzip where
  State := Option (List UInt8)
  compressobj := fun _ => none
  compress := fun state chunk =>
    match state with
    | none => (gzipHeader, some chunk)
    | some body => ([], some (body ++ chunk))
  flush := fun state => sampleTail (state.getD [])
  gzipCompress := fun _ body => gzipHeader ++ sampleTail body
  decompress := fun bytes =>
    if bytes.take 10 = gzipHeader then sampleUntail (bytes.drop 10) else none

theorem sampleUntail_tail (body : List UInt8) : sampleUntail (sampleTail body) = some body := by
  unfold sampleTail
  by_cases h : body = letters
  · rw [if_pos h, h]
    rfl
  · rw [if_neg h, sampleUntail, if_neg]
    intro heq
    have head := (List.cons.inj heq).1
    exact absurd head (by decide)

theorem sampleGzip_stream (body : List UInt8) (chunks : List (List UInt8)) :
    sampleGzip.stream (some body) chunks = sampleTail (body ++ chunks.flatten) := by
  induction chunks generalizing body with
  | nil => simp [Gzip.stream, sampleGzip]
  | cons chunk chunks ih =>
    have hstep : sampleGzip.stream (some body) (chunk :: chunks) =
        sampleGzip.stream (some (body ++ chunk)) chunks := rfl
    rw [hstep, ih, List.flatten_cons, List.append_assoc]

theorem sampleGzip_inverts (compresslevel : Int) : sampleGzip.Inverts compresslevel where
  stream := by
    intro chunks hne
    obtain ⟨chunk, chunks, rfl⟩ := List.exists_cons_of_ne_nil hne
    have hstart : sampleGzip.stream (sampleGzip.compressobj compresslevel) (chunk :: chunks) =
        gzipHeader ++ sampleGzip.stream (some chunk) chunks := rfl
    rw [hstart, sampleGzip_stream]
    exact sampleUntail_tail _
  whole := sampleUntail_tail

def Message.bytes : Message → List UInt8
  | .body b => b.bytes
  | _ => []

/-- What the client makes of a response. -/
def received (g : Gzip) (other : List (List Char) → List UInt8 → Option (List UInt8)) :
    Except SendError (Responder g × List Message) → Option (List UInt8)
  | .ok (_, .start ⟨_, some headers⟩ :: messages) =>
    g.decoded other headers (messages.flatMap Message.bytes)
  | _ => none

def textHeaders : List Header := [⟨contentType, "text/html".toList⟩]

def anyLength : Config := ⟨true, 0, 6⟩

/-- The first message says that it is the last one, and another one follows. -/
def twoLast : List Body := [⟨some letters, some false⟩, ⟨some [98], some false⟩]

/-- **Not with every pattern of flags**: behind a compressed body the client finds bytes that are
    none of it. -/
theorem pattern_corrupts : ¬ ∀ (g : Gzip)
    (other : List (List Char) → List UInt8 → Option (List UInt8)) (config : Config)
    (status : Nat) (headers : List Header) (bodies : List Body),
    g.Inverts config.compresslevel → bodies ≠ [] →
    ∃ r' headers' bodies', sendAll config (.init g)
        (.start ⟨status, some headers⟩ :: bodies.map .body) =
      .ok (r', .start ⟨status, some headers'⟩ :: bodies'.map .body) ∧
      bodies'.map Body.moreBody = bodies.map Body.moreBody ∧
      g.decoded other headers' (content bodies') = g.decoded other headers (content bodies) ∧
      (Counted headers bodies → Counted headers' bodies') := by
  intro h
  obtain ⟨r', headers', bodies', hall, -, hdecoded, -⟩ := h sampleGzip (fun _ _ => none) anyLength
    200 textHeaders twoLast (sampleGzip_inverts 6) (by simp [twoLast])
  have hreceived : received sampleGzip (fun _ _ => none) (sendAll anyLength (.init sampleGzip)
      (.start ⟨200, some textHeaders⟩ :: twoLast.map .body)) = none := by
    decide +kernel
  have hbytes : (bodies'.map Message.body).flatMap Message.bytes = content bodies' :=
    List.flatMap_map _ _ bodies'
  rw [hall, received, hbytes, hdecoded] at hreceived
  cases hreceived

/-- The letters in two pieces, and an empty last message. -/
def lettersStream : List Body :=
  [⟨some (letters.take 60), some true⟩, ⟨some (letters.drop 60), some true⟩, ⟨none, none⟩]

theorem compression_transparent_letters :
    ∃ r' headers' bodies', sendAll anyLength (.init sampleGzip)
        (.start ⟨200, some textHeaders⟩ :: lettersStream.map .body) =
      .ok (r', .start ⟨200, some headers'⟩ :: bodies'.map .body) ∧
      Delivered sampleGzip (fun _ _ => none) textHeaders lettersStream headers' bodies' :=
  (compression_transparent sampleGzip (fun _ _ => none) anyLength (sampleGzip_inverts 6) 200
    textHeaders).1 lettersStream (by simp [lettersStream])

example : received sampleGzip (fun _ _ => none) (sendAll anyLength (.init sampleGzip)
    (.start ⟨200, some textHeaders⟩ :: lettersStream.map .body)) = some letters := by
  decide +kernel

end Termroom.Web.Compression
