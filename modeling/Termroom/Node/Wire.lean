import Mathlib
import Termroom.Conc.Prog
import Termroom.Data.Base64
import Termroom.Data.Double
import Termroom.Data.JsonText
import Termroom.Node.Connection
import Termroom.Node.Dispatch

/-!
# The messages of the Node connection as text

`Protocol` starts from messages whose fields have been looked at. Here is how they come about: the
`dict` that is sent, its text, and what the other side makes of the text.

Whatever the Core or the Node sends is, where it is sent at all, received as the message that was
meant (`wire_faithful`); the bytes of a stream pass in pieces that always fit, and a request passes
the checks of the Node with the time that the Core allows it, to the millisecond but for what is
rounded. The floats of a message are those of Python, whose `repr` is what is written.
-/

set_option autoImplicit false

namespace Termroom.Node.Wire

open Data Conc

/-! ## 1. Texts -/

def MAX_NODE_MESSAGE_BYTES : Nat := 1024 * 1024
def NODE_PROTOCOL_VERSION : Int := 3
def NODE_REQUEST_MAX_TIMEOUT_SECONDS : Nat := 5 * 60
def NODE_REQUEST_DEFAULT_BUDGET_MS : Int := 30000
def NODE_REQUEST_MAX_BUDGET_MS : Int := NODE_REQUEST_MAX_TIMEOUT_SECONDS * 1000

def typeRequired : NodeError := .protocol "Node message type is required" "message_invalid"

def tooLarge : NodeError := .protocol "Node message exceeds the size limit" "message_too_large"

def encodeMessage (message : JsonObject) : Except NodeError (List Char) :=
  match message.lookup "type" with
  | some (.str kind) =>
    if kind = "" then .error typeRequired
    else
      let raw := Json.dumps (.obj message)
      if MAX_NODE_MESSAGE_BYTES < (utf8 raw).length then .error tooLarge else .ok raw
  | _ => .error typeRequired

/-- What Python makes of values that are not what is expected. -/
structure Python where
  /-- `repr(float(text))`. -/
  float : List Char → String
  /-- `str(value)` of a value that is no `str`. -/
  str : Json → String
  /-- `int(value)` of a value that is no `int`, where it does not raise. -/
  int : Json → Option Int

section

variable (python : Python)

/-- `decode_message` of a text. -/
def decodeMessage (raw : List Char) : Except NodeError JsonObject :=
  if MAX_NODE_MESSAGE_BYTES < (utf8 raw).length then .error tooLarge
  else
    match Json.loads python.float raw with
    | none => .error (.protocol "Node message is invalid JSON" "message_invalid")
    | some (.obj message) =>
      match message.lookup "type" with
      | some (.str _) => .ok message
      | _ => .error typeRequired
    | some _ => .error typeRequired

/-! ## 2. Fields -/

/-- `str(value)`. -/
def strOf : Json → String
  | .str text => text
  | value => python.str value

/-- `str(value or "")`. -/
def textOf (value : Json) : String := if value.truthy then strOf python value else ""

/-- A digit of `[a-f0-9]`. -/
def hexDigit (c : Char) : Option Nat :=
  if c.isDigit then some (c.toNat - '0'.toNat)
  else if 'a' ≤ c ∧ c ≤ 'f' then some (c.toNat - 'a'.toNat + 10)
  else none

/-- `REQUEST_ID_PATTERN`, and the number it is. -/
def readId (text : List Char) : Option RequestId :=
  if text.length = 32 then
    (text.mapM hexDigit).map fun digits =>
      BitVec.ofNat 128 (digits.foldl (fun n d => 16 * n + d) 0)
  else none

/-- What `validate_request_id` makes of a field. -/
def idOf (value : Json) : Option RequestId := readId (textOf python value).toList

/-- A field that must be a `dict`, and is an empty one where it is missing. -/
def dictOf : Option Json → Option JsonObject
  | none => some []
  | some (.obj fields) => some fields
  | some _ => none

/-- The `data` of a piece of a stream. -/
def dataOf : Json → Option Bytes
  | .str text => Base64.b64decode true text.toList
  | _ => none

/-- `type(value) is int`. -/
def intOf : Json → Option Int
  | .int n => some n
  | _ => none

def boolOf : Json → Option Bool
  | .bool b => some b
  | _ => none

def modeOf : Json → ModeField
  | .null => .absent
  | .obj mode => .dict mode
  | _ => .other

/-- `message.get("kind") != "pane_mode"` looks at a `str` only. -/
def kindOf : Json → String
  | .str kind => kind
  | _ => ""

/-! ## 3. From the Node to the Core -/

inductive FromNode where
  | heartbeat
  | message (message : NodeMessage)

/-- What `dispatch` looks at. -/
def nodeMessageOf (message : JsonObject) : NodeMessage :=
  let kind := Json.get message "type"
  let streamId := idOf python (Json.get message "stream_id")
  let error := textOf python (Json.get message "error")
  let code := textOf python (Json.get message "code")
  if kind = .str "response" then
    .response (idOf python (Json.get message "id")) (Json.get message "ok" = .bool true)
      (dictOf (message.lookup "result")) error code
  else if kind = .str "stream.data" then .streamData streamId (dataOf (Json.get message "data"))
  else if kind = .str "stream.control" then
    .streamControl streamId (kindOf (Json.get message "kind"))
      (intOf (Json.get message "revision")) (boolOf (Json.get message "available"))
      (modeOf (Json.get message "mode"))
  else if kind = .str "stream.close" then .streamClose streamId (dictOf (message.lookup "result"))
  else if kind = .str "stream.error" then .streamError streamId error code
  else .other

/-- `_receive`, and the loop of `handle_socket`. -/
def coreReceives (raw : List Char) : Except NodeError FromNode := do
  let message ← decodeMessage python raw
  if Json.get message "type" = .str "heartbeat" then return .heartbeat
  return .message (nodeMessageOf python message)

/-- What the Node sends. -/
inductive NodeSend where
  | heartbeat
  | result (id : RequestId) (value : JsonObject)
  /-- `_send_error`. -/
  | failure (id : RequestId) (code error : String)
  /-- `_send_stream_data`, within its limit. -/
  | data (id : RequestId) (chunk : Bytes)
  /-- A mode of the pane, or that there is none to be known. -/
  | paneMode (id : RequestId) (revision : Int) (mode : Option JsonObject)
  | close (id : RequestId) (value : Option JsonObject)
  /-- The end of a stream, with the text that stands for an empty one. -/
  | streamError (id : RequestId) (code error instead : String)

def dataFields (id : RequestId) (chunk : Bytes) : JsonObject :=
  [("type", .str "stream.data"), ("stream_id", .str id.hex),
    ("data", .str (String.ofList (Base64.b64encode chunk)))]

/-- `str(error)[:500] or instead`. -/
def shown (error instead : String) : String :=
  let text := String.ofList (error.toList.take 500)
  if text = "" then instead else text

def NodeSend.fields : NodeSend → JsonObject
  | heartbeat => [("type", .str "heartbeat")]
  | result id value =>
    [("type", .str "response"), ("id", .str id.hex), ("ok", .bool true), ("result", .obj value)]
  | failure id code error =>
    [("type", .str "response"), ("id", .str id.hex), ("ok", .bool false), ("code", .str code),
      ("error", .str (shown error "Node operation failed"))]
  | data id chunk => dataFields id chunk
  | paneMode id revision none =>
    [("type", .str "stream.control"), ("stream_id", .str id.hex), ("kind", .str "pane_mode"),
      ("revision", .int revision), ("available", .bool false)]
  | paneMode id revision (some mode) =>
    [("type", .str "stream.control"), ("stream_id", .str id.hex), ("kind", .str "pane_mode"),
      ("revision", .int revision), ("available", .bool true), ("mode", .obj mode)]
  | close id none => [("type", .str "stream.close"), ("stream_id", .str id.hex)]
  | close id (some value) =>
    [("type", .str "stream.close"), ("stream_id", .str id.hex), ("result", .obj value)]
  | streamError id code error instead =>
    [("type", .str "stream.error"), ("stream_id", .str id.hex), ("code", .str code),
      ("error", .str (shown error instead))]

/-- What is meant by it. -/
def NodeSend.means : NodeSend → FromNode
  | heartbeat => .heartbeat
  | result id value => .message (.response (some id) true (some value) "" "")
  | failure id code error =>
    .message (.response (some id) false (some []) (shown error "Node operation failed") code)
  | data id chunk => .message (.streamData (some id) (some chunk))
  | paneMode id revision mode =>
    .message (.streamControl (some id) "pane_mode" (some revision) (some mode.isSome)
      (match mode with | none => .absent | some mode => .dict mode))
  | close id value => .message (.streamClose (some id) (some (value.getD [])))
  | streamError id code error instead =>
    .message (.streamError (some id) (shown error instead) code)

/-! ## 4. From the Core to the Node -/

inductive FromCore where
  | heartbeatAck
  | request (message : JsonObject)
  | stream (id : RequestId) (message : CoreMessage)

/-- What `_dispatch` looks at. -/
def coreMessageOf (message : JsonObject) : Option CoreMessage :=
  let kind := Json.get message "type"
  if kind = .str "stream.data" then some (.streamData (dataOf (Json.get message "data")))
  else if kind = .str "stream.control" then
    some (.streamControl (textOf python (Json.get message "kind"))
      (intOf (Json.get message "count")))
  else if kind = .str "stream.close" then some .streamClose
  else if kind = .str "stream.abort" then some .streamAbort
  else none

def nodeReceives (raw : List Char) : Except NodeError FromCore := do
  let message ← decodeMessage python raw
  if Json.get message "type" = .str "heartbeat.ack" then return .heartbeatAck
  if Json.get message "type" = .str "request" then return .request message
  match coreMessageOf python message with
  | none => .error (.protocol "Unexpected Core message" "message_unexpected")
  | some stream =>
    let id ← NodeConnection.validateRequestId (idOf python (Json.get message "stream_id"))
    return .stream id stream

end

/-- What the Core sends beside its requests. -/
inductive CoreSend where
  | heartbeatAck
  | data (id : RequestId) (chunk : Bytes)
  /-- `control("credit", count=count)`. -/
  | credit (id : RequestId) (count : Int)
  | close (id : RequestId)
  | abort (id : RequestId)

def CoreSend.fields : CoreSend → JsonObject
  | heartbeatAck => [("type", .str "heartbeat.ack")]
  | data id chunk => dataFields id chunk
  | credit id count =>
    [("type", .str "stream.control"), ("stream_id", .str id.hex), ("kind", .str "credit"),
      ("count", .int count)]
  | close id => [("type", .str "stream.close"), ("stream_id", .str id.hex)]
  | abort id => [("type", .str "stream.abort"), ("stream_id", .str id.hex)]

def CoreSend.means : CoreSend → FromCore
  | heartbeatAck => .heartbeatAck
  | data id chunk => .stream id (.streamData (some chunk))
  | credit id count => .stream id (.streamControl "credit" (some count))
  | close id => .stream id .streamClose
  | abort id => .stream id .streamAbort

/-- The pieces that `NodeStream.send` cuts some bytes into. -/
def pieces (data : Bytes) : List Bytes :=
  if data = [] then []
  else data.take MAX_NODE_STREAM_CHUNK_BYTES :: pieces (data.drop MAX_NODE_STREAM_CHUNK_BYTES)
termination_by data.length
decreasing_by
  rename_i h
  have := List.length_pos_iff.mpr h
  rw [List.length_drop]
  unfold MAX_NODE_STREAM_CHUNK_BYTES
  omega

/-! ## 5. Requests -/

def NODE_REQUEST_OPERATIONS : List String :=
  ["workspace.roots", "workspace.browse", "workspace.create_project", "workspace.validate",
    "workspace.ensure", "workspace.usage", "workspace.command.run", "terminal.create",
    "terminal.editor.open", "terminal.rename", "terminal.close", "terminal.activity",
    "terminal.scrollback", "terminal.attach", "terminal.resize", "files.list", "files.search",
    "files.recent", "files.stat", "files.read_text.open", "files.read_preview",
    "files.write_text.open", "files.create", "files.rename", "files.delete",
    "files.download.open", "files.upload.open", "file_run.inspect", "file_run.start",
    "file_run.observe", "file_run.interrupt", "file_run.kill",
    "remote_run_source.manifest.open", "remote_run_source.stat", "remote_run_source.file.open",
    "remote_run.preflight", "remote_run.create", "remote_run.snapshot.begin",
    "remote_run.snapshot.mkdir", "remote_run.snapshot.symlink", "remote_run.snapshot.file.open",
    "remote_run.snapshot.commit", "remote_run.metadata.write", "remote_run.metadata.open",
    "remote_run.start", "remote_run.git.start", "remote_run.observe", "remote_run.poll",
    "remote_run.interrupt", "remote_run.kill", "remote_run.exists", "remote_run.ensure_shell",
    "remote_run.delete"]

def validateRequestOperation (operation : String) : Except NodeError String :=
  if operation ∈ NODE_REQUEST_OPERATIONS then .ok operation
  else .error (.protocol "Node operation is unsupported" "operation_unsupported")

/-- `int(timeout * 1000)`. -/
def milliseconds (timeout : Double) : Int := ⌊(Double.ofRat (timeout.value * 1000)).value⌋

/-- `request_budget_ms` of a finite number. -/
def requestBudgetMs (timeout : Double) : Except NodeError Int :=
  let invalid := .protocol "Node request timeout is invalid" "budget_invalid"
  if timeout.value ≤ 0 ∨ (NODE_REQUEST_MAX_TIMEOUT_SECONDS : ℚ) < timeout.value then .error invalid
  else if milliseconds timeout ≤ 0 then .error invalid
  else .ok (milliseconds timeout)

/-- `value / 1000`. -/
def secondsOf (budgetMs : Int) : Double := .ofRat (budgetMs / 1000)

def validateRequestBudgetMs : Json → Except NodeError Double
  | .int n =>
    if 1 ≤ n ∧ n ≤ NODE_REQUEST_MAX_BUDGET_MS then .ok (secondsOf n)
    else .error (.protocol "Node request budget is invalid" "budget_invalid")
  | _ => .error (.protocol "Node request budget is invalid" "budget_invalid")

def requestFields (id : RequestId) (budgetMs : Int) (operation : String) (payload : JsonObject) :
    JsonObject :=
  [("type", .str "request"), ("id", .str id.hex), ("protocol_version", .int NODE_PROTOCOL_VERSION),
    ("budget_ms", .int budgetMs), ("operation", .str operation), ("payload", .obj payload)]

/-- `request`, up to what is sent. -/
def coreRequest (id : RequestId) (operation : String) (payload : JsonObject) (timeout : Double) :
    Except NodeError (List Char) := do
  let operation ← validateRequestOperation operation
  let budgetMs ← requestBudgetMs timeout
  encodeMessage (requestFields id budgetMs operation payload)

/-- What the Node takes a request for. -/
structure Admitted where
  operation : String
  payload : JsonObject
  budgetSeconds : Double

variable (python : Python)

/-- `validate_protocol_version`. -/
def validateProtocolVersion (value : Json) : Except NodeError Int :=
  let version := match value with
    | .bool _ => none
    | .int n => some n
    | value => python.int value
  match version with
  | none => .error (.protocol "Node protocol version is invalid" "version_invalid")
  | some n =>
    if n = NODE_PROTOCOL_VERSION then .ok n
    else .error (.protocol ("Node protocol version " ++ toString n ++
      " is incompatible; update Termroom") "version_incompatible")

/-- The `budget_ms` of a request that has its `protocol_version`. -/
def budgetOf (message : JsonObject) : Except NodeError Double :=
  let hasVersion := (message.lookup "protocol_version").isSome
  if hasVersion ≠ (message.lookup "budget_ms").isSome then
    .error (.agent "Node request envelope is invalid" "request_invalid")
  else if hasVersion then do
    let _ ← validateProtocolVersion python (Json.get message "protocol_version")
    validateRequestBudgetMs (Json.get message "budget_ms")
  else .ok (secondsOf NODE_REQUEST_DEFAULT_BUDGET_MS)

/-- `_handle_request`, up to where it waits for its turn. -/
def handleRequest (message : JsonObject) :
    Except NodeError (RequestId × Except NodeError Admitted) := do
  let id ← NodeConnection.validateRequestId (idOf python (Json.get message "id"))
  return (id, do
    let budgetSeconds ← budgetOf python message
    let operation ← validateRequestOperation (strOf python (Json.get message "operation"))
    match Json.get message "payload" with
    | .obj payload => .ok ⟨operation, payload, budgetSeconds⟩
    | _ => .error (.agent "Request payload is invalid" "request_invalid"))

/-! ## 6. Ids -/

section

variable {n j : Nat} {id : RequestId}

/-- The hexadecimal digits of a number, the first of `j`. -/
def hexDigits (j n : Nat) : List Nat := (List.range j).map fun i => n / 16 ^ (j - 1 - i) % 16

theorem hexDigits_succ : hexDigits (j + 1) n = n / 16 ^ j % 16 :: hexDigits j n := by
  unfold hexDigits
  rw [List.range_succ_eq_map, List.map_cons, List.map_map]
  congr 1
  refine List.map_congr_left fun i _ => ?_
  rw [Function.comp_apply]
  congr 3
  omega

theorem foldl_hexDigits (start : Nat) :
    (hexDigits j n).foldl (fun n d => 16 * n + d) start = 16 ^ j * start + n % 16 ^ j := by
  induction j generalizing start with
  | zero => simp [hexDigits, Nat.mod_one]
  | succ j ih =>
    rw [hexDigits_succ, List.foldl_cons, ih, Nat.mod_pow_succ, pow_succ]
    ring

theorem hexDigit_digitChar {d : Nat} (h : d < 16) : hexDigit (Nat.digitChar d) = some d := by
  interval_cases d <;> decide

theorem hex_toList : id.hex.toList = (hexDigits 32 id.toNat).map Nat.digitChar := by
  unfold RequestId.hex hexDigits
  rw [String.toList_ofList, List.map_map]
  rfl

/-- **An id is read back.** -/
theorem readId_hex : readId id.hex.toList = some id := by
  have hlength : id.hex.toList.length = 32 := by
    rw [hex_toList]
    simp [hexDigits]
  have hdigits : ∀ d ∈ hexDigits 32 id.toNat, d < 16 := by
    intro d hd
    obtain ⟨i, -, rfl⟩ := List.mem_map.mp hd
    exact Nat.mod_lt _ (by decide)
  have hread : ∀ digits : List Nat, (∀ d ∈ digits, d < 16) →
      (digits.map Nat.digitChar).mapM hexDigit = some digits := by
    intro digits h
    induction digits with
    | nil => rfl
    | cons d digits ih =>
      rw [List.map_cons, List.mapM_cons, hexDigit_digitChar (h d List.mem_cons_self),
        ih fun e he => h e (List.mem_cons_of_mem _ he)]
      rfl
  unfold readId
  rw [if_pos hlength, hex_toList, hread _ hdigits, Option.map_some, foldl_hexDigits]
  have hlt : id.toNat < 16 ^ 32 := id.isLt
  rw [Nat.mul_zero, Nat.zero_add, Nat.mod_eq_of_lt hlt, BitVec.ofNat_toNat, BitVec.setWidth_eq]

end

section

variable {python : Python} {id : RequestId} {message : JsonObject} {raw : List Char}

theorem textOf_str (text : String) : textOf python (.str text) = text := by
  by_cases h : text = ""
  · rw [h]
    rfl
  · unfold textOf Json.truthy
    rw [if_pos (by simpa using h)]
    rfl

@[simp] theorem idOf_hex : idOf python (.str id.hex) = some id := by
  unfold idOf
  rw [textOf_str, readId_hex]

@[simp] theorem dataOf_b64encode (chunk : Bytes) :
    dataOf (.str (String.ofList (Base64.b64encode chunk))) = some chunk := by
  unfold dataOf
  dsimp only
  rw [String.toList_ofList, Base64.b64decode_b64encode]

/-! ## 7. What is sent is received -/

theorem encode_cases (h : encodeMessage message = .ok raw) :
    (∃ kind, message.lookup "type" = some (.str kind)) ∧ raw = Json.dumps (.obj message) ∧
      (utf8 raw).length ≤ MAX_NODE_MESSAGE_BYTES := by
  unfold encodeMessage at h
  split at h
  · rename_i kind htype
    dsimp only at h
    split_ifs at h with hempty hsize
    obtain rfl := Except.ok.inj h
    exact ⟨⟨kind, htype⟩, rfl, Nat.not_lt.mp hsize⟩
  · cases h

/-- **A message is decoded as it was encoded.** -/
theorem decode_encode (readable : Json.Readable python.float (.obj message))
    (h : encodeMessage message = .ok raw) : decodeMessage python raw = .ok message := by
  obtain ⟨⟨kind, htype⟩, rfl, hsize⟩ := encode_cases h
  unfold decodeMessage
  rw [if_neg (Nat.not_lt.mpr hsize), Json.loads_dumps _ readable]
  dsimp only
  rw [htype]

/-- The objects in a message are those of Python: a `dict` has no field twice, and a float is
    shown by its `repr`. -/
def NodeSend.Readable (python : Python) : NodeSend → Prop
  | result _ value => Json.Readable python.float (.obj value)
  | paneMode _ _ (some mode) => Json.Readable python.float (.obj mode)
  | close _ (some value) => Json.Readable python.float (.obj value)
  | _ => True

theorem NodeSend.readable_fields {m : NodeSend} (h : m.Readable python) :
    Json.Readable python.float (.obj m.fields) := by
  cases m with
  | heartbeat | failure | data | streamError =>
    simp [NodeSend.fields, dataFields, Json.Readable, Json.ReadableFields]
  | result id value =>
    refine ⟨by simp [NodeSend.fields], trivial, trivial, trivial, h, trivial⟩
  | paneMode id revision mode =>
    cases mode with
    | none => simp [NodeSend.fields, Json.Readable, Json.ReadableFields]
    | some mode =>
      exact ⟨by simp [NodeSend.fields], trivial, trivial, trivial, trivial, trivial, h, trivial⟩
  | close id value =>
    cases value with
    | none => simp [NodeSend.fields, Json.Readable, Json.ReadableFields]
    | some value => exact ⟨by simp [NodeSend.fields], trivial, trivial, h, trivial⟩

/-- A message is looked at as it was encoded. -/
theorem coreReceives_encode (readable : Json.Readable python.float (.obj message))
    (h : encodeMessage message = .ok raw) :
    coreReceives python raw = .ok (if Json.get message "type" = .str "heartbeat" then .heartbeat
      else .message (nodeMessageOf python message)) := by
  unfold coreReceives
  rw [decode_encode readable h]
  simp only [bind, Except.bind, pure, Except.pure]
  split_ifs <;> rfl

/-- **What the Node sends, the Core receives.** -/
theorem coreReceives_sent {m : NodeSend} (readable : m.Readable python)
    (h : encodeMessage m.fields = .ok raw) : coreReceives python raw = .ok m.means := by
  rw [coreReceives_encode (NodeSend.readable_fields readable) h]
  congr 1
  cases m with
  | heartbeat => rfl
  | result id value =>
    simp [NodeSend.fields, Json.get, List.lookup, nodeMessageOf, NodeSend.means, textOf, dictOf,
      Json.truthy]
  | failure id code error =>
    simp [NodeSend.fields, Json.get, List.lookup, nodeMessageOf, NodeSend.means, textOf_str, dictOf]
  | data id chunk =>
    simp [NodeSend.fields, dataFields, Json.get, List.lookup, nodeMessageOf, NodeSend.means]
  | paneMode id revision mode =>
    cases mode <;>
      simp [NodeSend.fields, Json.get, List.lookup, nodeMessageOf, NodeSend.means, kindOf, intOf,
        boolOf, modeOf]
  | close id value =>
    cases value <;>
      simp [NodeSend.fields, Json.get, List.lookup, nodeMessageOf, NodeSend.means, dictOf]
  | streamError id code error instead =>
    simp [NodeSend.fields, Json.get, List.lookup, nodeMessageOf, NodeSend.means, textOf_str]

theorem nodeReceives_encode (readable : Json.Readable python.float (.obj message))
    (h : encodeMessage message = .ok raw) :
    nodeReceives python raw =
      if Json.get message "type" = .str "heartbeat.ack" then .ok .heartbeatAck
      else if Json.get message "type" = .str "request" then .ok (.request message)
      else match coreMessageOf python message with
        | none => .error (.protocol "Unexpected Core message" "message_unexpected")
        | some stream =>
          (NodeConnection.validateRequestId (idOf python (Json.get message "stream_id"))).map
            fun id => .stream id stream := by
  unfold nodeReceives
  rw [decode_encode readable h]
  rfl

/-- **What the Core sends to a stream, the Node receives.** -/
theorem nodeReceives_sent {m : CoreSend} (h : encodeMessage m.fields = .ok raw) :
    nodeReceives python raw = .ok m.means := by
  have readable : Json.Readable python.float (.obj m.fields) := by
    cases m <;> simp [CoreSend.fields, dataFields, Json.Readable, Json.ReadableFields]
  rw [nodeReceives_encode readable h]
  cases m with
  | heartbeatAck => rfl
  | data id chunk =>
    simp [CoreSend.fields, dataFields, Json.get, List.lookup, coreMessageOf, CoreSend.means,
      NodeConnection.validateRequestId, Except.map]
  | credit id count =>
    simp [CoreSend.fields, Json.get, List.lookup, coreMessageOf, CoreSend.means, textOf_str, intOf,
      NodeConnection.validateRequestId, Except.map]
  | close id | abort id =>
    simp [CoreSend.fields, Json.get, List.lookup, coreMessageOf, CoreSend.means,
      NodeConnection.validateRequestId, Except.map]

/-! ## 8. Requests -/

theorem validateRequestOperation_eq_ok {operation found : String} :
    validateRequestOperation operation = .ok found ↔
      operation ∈ NODE_REQUEST_OPERATIONS ∧ found = operation := by
  unfold validateRequestOperation
  split_ifs with h
  · simp [h, eq_comm]
  · simp [h]

theorem requestBudgetMs_eq_ok {timeout : Double} {budgetMs : Int} :
    requestBudgetMs timeout = .ok budgetMs ↔
      0 < timeout.value ∧ timeout.value ≤ NODE_REQUEST_MAX_TIMEOUT_SECONDS ∧
        1 ≤ milliseconds timeout ∧ budgetMs = milliseconds timeout := by
  unfold requestBudgetMs
  dsimp only
  split_ifs with hrange hpositive
  · simp only [false_iff]
    rintro ⟨hlow, hhigh, -⟩
    exact hrange.elim (fun h => absurd hlow (not_lt.mpr h)) fun h => absurd hhigh (not_le.mpr h)
  · simp only [false_iff]
    rintro ⟨-, -, hlow, -⟩
    omega
  · rw [not_or, not_le, not_lt] at hrange
    rw [Except.ok.injEq, eq_comm]
    constructor
    · intro h
      exact ⟨hrange.1, hrange.2, by omega, h⟩
    · exact fun h => h.2.2.2

/-- A whole number below 2⁵³ needs no rounding. -/
theorem round_int {n : Int} (h : |n| < 2 ^ 53) : Double.round n = n :=
  Double.round_of_representable ⟨n, 0, h, by simp⟩

theorem max_timeout : ((NODE_REQUEST_MAX_TIMEOUT_SECONDS : Nat) : ℚ) = 300 := by
  norm_num [NODE_REQUEST_MAX_TIMEOUT_SECONDS]

theorem milliseconds_le {timeout : Double}
    (high : timeout.value ≤ NODE_REQUEST_MAX_TIMEOUT_SECONDS) :
    milliseconds timeout ≤ NODE_REQUEST_MAX_BUDGET_MS := by
  have hmul : timeout.value * 1000 ≤ (300000 : Int) := by
    rw [max_timeout] at high
    push_cast
    linarith
  have hround := Double.round_mono hmul
  rw [round_int (by decide)] at hround
  exact Int.floor_le_iff.mpr (hround.trans_lt (lt_add_one _))

/-- What is allowed in milliseconds is what is allowed, but for less than a millisecond and for
    what is rounded. -/
theorem milliseconds_near {timeout : Double} (low : 0 < timeout.value)
    (high : timeout.value ≤ NODE_REQUEST_MAX_TIMEOUT_SECONDS) (one : 1 ≤ milliseconds timeout) :
    (secondsOf (milliseconds timeout)).value ≤ timeout.value + 1 / 10 ^ 13 ∧
      timeout.value < (secondsOf (milliseconds timeout)).value + 1 / 1000 + 1 / 10 ^ 13 := by
  have hle := milliseconds_le high
  have hfloor := Int.floor_le (Double.ofRat (timeout.value * 1000)).value
  have hlt := Int.lt_floor_add_one (Double.ofRat (timeout.value * 1000)).value
  have hproduct := Double.round_error (timeout.value * 1000)
  have hquotient := Double.round_error ((milliseconds timeout : ℚ) / 1000)
  rw [max_timeout] at high
  have hone : (1 : ℚ) ≤ milliseconds timeout := by exact_mod_cast one
  have hmax : (milliseconds timeout : ℚ) ≤ 300000 := by
    have h : milliseconds timeout ≤ 300000 := hle
    exact_mod_cast h
  rw [abs_of_pos (a := timeout.value * 1000) (by positivity)] at hproduct
  rw [abs_of_pos (a := (milliseconds timeout : ℚ) / 1000) (by positivity)] at hquotient
  obtain ⟨hproduct₁, hproduct₂⟩ := abs_le.mp hproduct
  obtain ⟨hquotient₁, hquotient₂⟩ := abs_le.mp hquotient
  change ((milliseconds timeout : Int) : ℚ) ≤ Double.round (timeout.value * 1000) at hfloor
  change Double.round (timeout.value * 1000) < ((milliseconds timeout : Int) : ℚ) + 1 at hlt
  unfold secondsOf Double.ofRat
  constructor
  · linarith
  · linarith

variable {operation : String} {payload : JsonObject} {timeout : Double}

/-- What a request is sent as, if it is sent. -/
theorem coreRequest_eq_ok : coreRequest id operation payload timeout = .ok raw ↔
    operation ∈ NODE_REQUEST_OPERATIONS ∧ requestBudgetMs timeout = .ok (milliseconds timeout) ∧
      encodeMessage (requestFields id (milliseconds timeout) operation payload) = .ok raw := by
  unfold coreRequest
  constructor
  · intro h
    obtain ⟨found, hoperation, h⟩ := bind_eq_ok.mp h
    obtain ⟨budgetMs, hbudget, h⟩ := bind_eq_ok.mp h
    obtain ⟨hmem, rfl⟩ := validateRequestOperation_eq_ok.mp hoperation
    obtain ⟨-, -, -, rfl⟩ := requestBudgetMs_eq_ok.mp hbudget
    exact ⟨hmem, hbudget, h⟩
  · rintro ⟨hmem, hbudget, h⟩
    exact bind_eq_ok.mpr ⟨_, validateRequestOperation_eq_ok.mpr ⟨hmem, rfl⟩,
      bind_eq_ok.mpr ⟨_, hbudget, h⟩⟩

/-- **A request passes the checks of the Node.** -/
theorem handleRequest_sent (readable : Json.Readable python.float (.obj payload))
    (h : coreRequest id operation payload timeout = .ok raw) :
    ∃ message, nodeReceives python raw = .ok (.request message) ∧
      handleRequest python message =
        .ok (id, .ok ⟨operation, payload, secondsOf (milliseconds timeout)⟩) := by
  obtain ⟨hmem, hbudget, hencode⟩ := coreRequest_eq_ok.mp h
  obtain ⟨-, hhigh, hone, -⟩ := requestBudgetMs_eq_ok.mp hbudget
  have hbudget : 1 ≤ milliseconds timeout ∧ milliseconds timeout ≤ NODE_REQUEST_MAX_BUDGET_MS :=
    ⟨hone, milliseconds_le hhigh⟩
  generalize milliseconds timeout = budgetMs at hencode hbudget
  have hfields : Json.Readable python.float (.obj (requestFields id budgetMs operation payload)) :=
    ⟨by simp [requestFields], trivial, trivial, trivial, trivial, trivial, readable, trivial⟩
  refine ⟨requestFields id budgetMs operation payload, ?_, ?_⟩
  · rw [nodeReceives_encode hfields hencode]
    simp [requestFields, Json.get]
  · have hid : idOf python (Json.get (requestFields id budgetMs operation payload) "id") =
        some id := by
      simp [requestFields, Json.get, List.lookup]
    have hrange : budgetOf python (requestFields id budgetMs operation payload) =
        .ok (secondsOf budgetMs) := by
      simp [budgetOf, requestFields, Json.get, List.lookup, validateProtocolVersion,
        validateRequestBudgetMs, bind, Except.bind, hbudget]
    have hoperation : validateRequestOperation operation = .ok operation :=
      validateRequestOperation_eq_ok.mpr ⟨hmem, rfl⟩
    have hstr : strOf python (Json.get (requestFields id budgetMs operation payload) "operation") =
        operation := by
      simp [requestFields, Json.get, List.lookup, strOf]
    have hpayload : Json.get (requestFields id budgetMs operation payload) "payload" =
        .obj payload := by
      simp [requestFields, Json.get, List.lookup]
    unfold handleRequest
    rw [hid, hrange, hstr, hoperation, hpayload]
    rfl

/-! ## 9. The pieces of a stream -/

theorem pieces_flatten (data : Bytes) : (pieces data).flatten = data := by
  induction data using pieces.induct with
  | case1 => simp [pieces]
  | case2 data h ih => rw [pieces, if_neg h, List.flatten_cons, ih, List.take_append_drop]

theorem mem_pieces {data piece : Bytes} (h : piece ∈ pieces data) :
    piece ≠ [] ∧ piece.length ≤ MAX_NODE_STREAM_CHUNK_BYTES := by
  induction data using pieces.induct with
  | case1 => simp [pieces] at h
  | case2 data hdata ih =>
    rw [pieces, if_neg hdata] at h
    rcases List.mem_cons.mp h with rfl | h
    · refine ⟨?_, List.length_take_le _ _⟩
      rw [Ne, List.take_eq_nil_iff]
      exact not_or.mpr ⟨by decide, hdata⟩
    · exact ih h

/-- A character that stands for itself in a string, in one byte. -/
def Literal (c : Char) : Prop := Json.escape c = [c] ∧ (String.utf8EncodeChar c).length = 1

theorem length_utf8_literal {text : List Char} (h : ∀ c ∈ text, Literal c) :
    (utf8 text).length = text.length := by
  unfold utf8
  induction text with
  | nil => rfl
  | cons c text ih =>
    rw [List.flatMap_cons, List.length_append, (h c List.mem_cons_self).2,
      ih fun d hd => h d (List.mem_cons_of_mem _ hd), List.length_cons, Nat.add_comm]

theorem flatMap_escape_literal {text : List Char} (h : ∀ c ∈ text, Literal c) :
    text.flatMap Json.escape = text := by
  induction text with
  | nil => rfl
  | cons c text ih =>
    rw [List.flatMap_cons, (h c List.mem_cons_self).1,
      ih fun d hd => h d (List.mem_cons_of_mem _ hd)]
    rfl

instance (c : Char) : Decidable (Literal c) := inferInstanceAs (Decidable (_ ∧ _))

theorem literal_b64encode {chunk : Bytes} : ∀ c ∈ Base64.b64encode chunk, Literal c := by
  have hall : ∀ c ∈ Base64.base64.characters, Literal c := by
    have : Base64.base64.characters.all (fun c => decide (Literal c)) = true := by decide
    exact fun c hc => of_decide_eq_true (List.all_eq_true.mp this c hc)
  intro c hc
  rcases Base64.mem_b64encode hc with hc | rfl
  · exact hall c hc
  · decide

theorem literal_hex : ∀ c ∈ id.hex.toList, Literal c := by
  rw [hex_toList]
  intro c hc
  obtain ⟨d, hd, rfl⟩ := List.mem_map.mp hc
  obtain ⟨i, -, rfl⟩ := List.mem_map.mp hd
  generalize hlt : id.toNat / 16 ^ (32 - 1 - i) % 16 = digit
  have : digit < 16 := hlt ▸ Nat.mod_lt _ (by decide)
  interval_cases digit <;> decide

theorem length_dumpsString {text : String} (h : ∀ c ∈ text.toList, Literal c) :
    (utf8 (Json.dumpsString text)).length = text.toList.length + 2 := by
  have hquote : (String.utf8EncodeChar '"').length = 1 := by decide
  have htext := length_utf8_literal h
  unfold Json.dumpsString
  rw [flatMap_escape_literal h]
  unfold utf8 at htext ⊢
  rw [List.flatMap_append, List.flatMap_cons, List.length_append, List.length_append, hquote,
    htext, List.flatMap_singleton, hquote]
  omega

theorem length_utf8_append (before after : List Char) :
    (utf8 (before ++ after)).length = (utf8 before).length + (utf8 after).length := by
  unfold utf8
  rw [List.flatMap_append, List.length_append]

theorem length_utf8_cons {c : Char} (h : (String.utf8EncodeChar c).length = 1)
    (text : List Char) : (utf8 (c :: text)).length = (utf8 text).length + 1 := by
  unfold utf8
  rw [List.flatMap_cons, List.length_append, h, Nat.add_comm]

/-- How many bytes a field takes at most, with what stands around it. -/
def fieldWeight (field : String × Json) : Nat :=
  (utf8 (Json.dumpsString field.1)).length + (utf8 (Json.dumps field.2)).length + 2

theorem fieldWeight_le {name : String} {value : Json} {a b : Nat}
    (hname : (utf8 (Json.dumpsString name)).length = a)
    (hvalue : (utf8 (Json.dumps value)).length ≤ b) : fieldWeight (name, value) ≤ a + b + 2 := by
  unfold fieldWeight
  dsimp only
  omega

theorem length_dumpsFields (fields : JsonObject) :
    (utf8 (Json.dumpsFields fields)).length ≤ (fields.map fieldWeight).sum := by
  have hcolon : (String.utf8EncodeChar ':').length = 1 := by decide
  have hcomma : (String.utf8EncodeChar ',').length = 1 := by decide
  induction fields with
  | nil => exact Nat.zero_le _
  | cons field fields ih =>
    obtain ⟨name, value⟩ := field
    rw [List.map_cons, List.sum_cons]
    unfold fieldWeight at ih ⊢
    cases fields with
    | nil =>
      rw [Json.dumpsFields, length_utf8_append, length_utf8_cons hcolon]
      dsimp only
      omega
    | cons next fields =>
      rw [Json.dumpsFields, length_utf8_append, length_utf8_append, length_utf8_cons hcolon,
        length_utf8_cons hcomma]
      · dsimp only
        omega
      · simp

/-- A message that is small enough is sent. -/
theorem encode_fits {fields : JsonObject} {kind : String}
    (htype : fields.lookup "type" = some (.str kind)) (hkind : kind ≠ "")
    (h : (fields.map fieldWeight).sum + 2 ≤ MAX_NODE_MESSAGE_BYTES) :
    ∃ raw, encodeMessage fields = .ok raw := by
  have hopen : (String.utf8EncodeChar '\x7b').length = 1 := by decide
  have hclose : (String.utf8EncodeChar '\x7d').length = 1 := by decide
  have hfields := length_dumpsFields fields
  have hsize : (utf8 (Json.dumps (.obj fields))).length ≤ MAX_NODE_MESSAGE_BYTES := by
    rw [Json.dumps, length_utf8_append, length_utf8_cons hopen, length_utf8_cons hclose]
    have hnil : (utf8 []).length = 0 := rfl
    omega
  unfold encodeMessage
  rw [htype]
  dsimp only
  rw [if_neg hkind, if_neg (Nat.not_lt.mpr hsize)]
  exact ⟨_, rfl⟩

theorem length_dumps_hex : (utf8 (Json.dumps (.str id.hex))).length = 34 := by
  rw [Json.dumps, length_dumpsString literal_hex, hex_toList]
  simp [hexDigits]

/-- **A piece of a stream can always be sent.** -/
theorem encode_data {chunk : Bytes} (h : chunk.length ≤ MAX_NODE_STREAM_CHUNK_BYTES) :
    ∃ raw, encodeMessage (dataFields id chunk) = .ok raw := by
  have hdata : (utf8 (Json.dumps (.str (String.ofList (Base64.b64encode chunk))))).length ≤
      87387 := by
    rw [Json.dumps, length_dumpsString (by simpa using literal_b64encode), String.toList_ofList]
    have := @Base64.length_b64encode chunk
    unfold MAX_NODE_STREAM_CHUNK_BYTES at h
    omega
  have htype : fieldWeight ("type", .str "stream.data") ≤ 6 + 13 + 2 :=
    fieldWeight_le (by decide) (by decide)
  have hstream : fieldWeight ("stream_id", .str id.hex) ≤ 11 + 34 + 2 :=
    fieldWeight_le (by decide) length_dumps_hex.le
  have hpiece : fieldWeight ("data", .str (String.ofList (Base64.b64encode chunk))) ≤
      6 + 87387 + 2 :=
    fieldWeight_le (by decide) hdata
  refine @encode_fits _ "stream.data" (by simp [dataFields]) (by decide) ?_
  unfold dataFields MAX_NODE_MESSAGE_BYTES
  simp only [List.map_cons, List.map_nil, List.sum_cons, List.sum_nil]
  omega

/-! ## 10. The wire is faithful -/

/-- What the code of the Node sees to before it sends. -/
def NodeSend.Allowed : NodeSend → Prop
  | data _ chunk => chunk.length ≤ MAX_NODE_STREAM_CHUNK_BYTES
  | paneMode _ revision _ => 1 ≤ revision
  | _ => True

theorem NodeSend.wellFormed {m : NodeSend} {message : NodeMessage} (allowed : m.Allowed)
    (h : m.means = .message message) : message.WellFormed := by
  cases m with
  | heartbeat => cases h
  | result | failure | close =>
    obtain rfl := FromNode.message.inj h
    exact ⟨rfl, rfl⟩
  | data id chunk =>
    obtain rfl := FromNode.message.inj h
    exact ⟨rfl, chunk, rfl, allowed⟩
  | paneMode id revision mode =>
    obtain rfl := FromNode.message.inj h
    have hrevision : 1 ≤ revision := allowed
    cases mode <;>
      simp [NodeMessage.WellFormed, NodeConnection.paneModeControl, hrevision]
  | streamError =>
    obtain rfl := FromNode.message.inj h
    rfl

/-- A time that the Node has read is above nought, and at most five minutes. -/
theorem secondsOf_range {n : Int} (low : 1 ≤ n) (high : n ≤ NODE_REQUEST_MAX_BUDGET_MS) :
    0 < (secondsOf n).value ∧ (secondsOf n).value ≤ NODE_REQUEST_MAX_TIMEOUT_SECONDS := by
  have low : (1 : ℚ) ≤ n := by exact_mod_cast low
  have high : (n : ℚ) ≤ 300000 := by
    have h : n ≤ 300000 := high
    exact_mod_cast h
  constructor
  · -- a power of two is below it, and is not rounded
    have hpow : Double.round (2 ^ (-10 : ℤ)) ≤ Double.round (n / 1000) := by
      apply Double.round_mono
      norm_num
      linarith
    rw [Double.round_of_representable (Double.pow_representable _)] at hpow
    exact lt_of_lt_of_le (by positivity) hpow
  · have hround : Double.round (n / 1000) ≤ Double.round (300 : Int) := by
      apply Double.round_mono
      push_cast
      linarith
    rw [round_int (by decide), Int.cast_ofNat] at hround
    rw [max_timeout]
    exact hround

theorem budgetOf_range {message : JsonObject} {budget : Double}
    (h : budgetOf python message = .ok budget) :
    0 < budget.value ∧ budget.value ≤ NODE_REQUEST_MAX_TIMEOUT_SECONDS := by
  unfold budgetOf at h
  dsimp only at h
  split_ifs at h with hsame hversion
  · obtain ⟨version, -, h⟩ := bind_eq_ok.mp h
    unfold validateRequestBudgetMs at h
    split at h
    · split_ifs at h with hn
      obtain rfl := Except.ok.inj h
      exact secondsOf_range hn.1 hn.2
    · cases h
  · obtain rfl := Except.ok.inj h
    exact secondsOf_range (by decide) (by decide)

/-- What is admitted, whatever came. -/
theorem handleRequest_admits {message : JsonObject} {admitted : Admitted}
    (h : handleRequest python message = .ok (id, .ok admitted)) :
    admitted.operation ∈ NODE_REQUEST_OPERATIONS ∧ 0 < admitted.budgetSeconds.value ∧
      admitted.budgetSeconds.value ≤ NODE_REQUEST_MAX_TIMEOUT_SECONDS := by
  unfold handleRequest at h
  obtain ⟨found, -, h⟩ := bind_eq_ok.mp h
  obtain ⟨-, h⟩ := Prod.mk.inj (Except.ok.inj h)
  obtain ⟨budgetSeconds, hbudget, h⟩ := bind_eq_ok.mp h
  obtain ⟨operation, hoperation, h⟩ := bind_eq_ok.mp h
  obtain ⟨hmem, rfl⟩ := validateRequestOperation_eq_ok.mp hoperation
  split at h
  · obtain rfl := Except.ok.inj h
    exact ⟨hmem, budgetOf_range hbudget⟩
  · cases h

/-- **The wire is faithful.** Whatever the Node sends, or the Core to a stream, the other side
    receives as it was meant, and well formed; the bytes of a stream pass in pieces that can always
    be sent, and which the other side takes for what they are; a request that is sent passes the
    checks of the Node, with the time that the Core allows it to the millisecond and what is
    rounded; and whatever is sent to it, the Node admits only its operations, for at most five
    minutes. -/
theorem wire_faithful (python : Python) :
    (∀ (m : NodeSend) raw, m.Readable python → encodeMessage m.fields = .ok raw →
      coreReceives python raw = .ok m.means) ∧
    (∀ (m : NodeSend) message, m.Allowed → m.means = .message message → message.WellFormed) ∧
    (∀ (m : CoreSend) raw, encodeMessage m.fields = .ok raw →
      nodeReceives python raw = .ok m.means) ∧
    (∀ id data, (pieces data).flatten = data ∧ ∀ piece ∈ pieces data, piece ≠ [] ∧
      piece.length ≤ MAX_NODE_STREAM_CHUNK_BYTES ∧
      ∃ raw, encodeMessage (dataFields id piece) = .ok raw ∧
        nodeReceives python raw = .ok (.stream id (.streamData (some piece))) ∧
        coreReceives python raw = .ok (.message (.streamData (some id) (some piece)))) ∧
    (∀ id operation payload timeout raw, Json.Readable python.float (.obj payload) →
      coreRequest id operation payload timeout = .ok raw →
      ∃ message budgetSeconds, nodeReceives python raw = .ok (.request message) ∧
        handleRequest python message = .ok (id, .ok ⟨operation, payload, budgetSeconds⟩) ∧
        budgetSeconds.value ≤ timeout.value + 1 / 10 ^ 13 ∧
        timeout.value < budgetSeconds.value + 1 / 1000 + 1 / 10 ^ 13) ∧
    ∀ message id admitted, handleRequest python message = .ok (id, .ok admitted) →
      admitted.operation ∈ NODE_REQUEST_OPERATIONS ∧ 0 < admitted.budgetSeconds.value ∧
        admitted.budgetSeconds.value ≤ NODE_REQUEST_MAX_TIMEOUT_SECONDS := by
  refine ⟨fun _ _ => coreReceives_sent, fun _ _ => NodeSend.wellFormed,
    fun _ _ => nodeReceives_sent, ?_, ?_, fun _ _ _ => handleRequest_admits⟩
  · intro id data
    refine ⟨pieces_flatten data, fun piece hpiece => ?_⟩
    obtain ⟨hne, hlength⟩ := mem_pieces hpiece
    obtain ⟨raw, hraw⟩ := @encode_data id piece hlength
    exact ⟨hne, hlength, raw, hraw, @nodeReceives_sent python raw (.data id piece) hraw,
      @coreReceives_sent python raw (.data id piece) trivial hraw⟩
  · intro id operation payload timeout raw readable h
    obtain ⟨message, hreceived, hhandled⟩ := @handleRequest_sent python _ _ _ _ _ readable h
    obtain ⟨-, hbudget, -⟩ := coreRequest_eq_ok.mp h
    obtain ⟨hlow, hhigh, hone, -⟩ := requestBudgetMs_eq_ok.mp hbudget
    exact ⟨message, _, hreceived, hhandled, milliseconds_near hlow hhigh hone⟩

/-- The answer to `workspace.usage` has a float. -/
example : (NodeSend.result 1 [("cpu_percent", .float "-12.5e-07")]).Readable
    ⟨fun text => String.ofList text, fun _ => "", fun _ => none⟩ := by
  refine ⟨List.nodup_singleton _, .inr (.inr (.inr ⟨?_, rfl⟩)), trivial⟩
  refine ⟨['-'], ['1', '2'], ['.', '5'], ['e', '-', '0', '7'], ?_, rfl⟩
  exact ⟨.inr rfl, .inr ⟨⟨by decide, List.all_eq_true.mp rfl⟩, by decide⟩,
    .inr ⟨['5'], ⟨by decide, List.all_eq_true.mp rfl⟩, rfl⟩,
    .inr ⟨['-'], ['0', '7'], .inr (.inl rfl), ⟨by decide, List.all_eq_true.mp rfl⟩, rfl⟩,
    .inl (by decide)⟩

end

end Termroom.Node.Wire
