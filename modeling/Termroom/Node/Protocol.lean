import Mathlib
import Termroom.Data.Json

/-!
# The Node protocol's identifiers, errors and messages

What the Core (`node_core.py`) and the Node agent (`node_agent.py`) share. A message is
modelled after its fields have been looked at: a field that the receiver checks before use
is an `Option`, and `none` says the check fails. So `streamId := none` is a `stream_id` that
`validate_request_id` refuses, and `data := none` a `data` field that is no string or no
valid base64.
-/

set_option autoImplicit false

namespace Termroom.Node

open Data

abbrev Bytes := List UInt8

/-- A request or stream id: 32 lower-case hexadecimal digits (`uuid4().hex`), that is, 128
    bits. -/
abbrev RequestId := BitVec 128

/-- The id as it is written in a message. -/
def RequestId.hex (id : RequestId) : String :=
  String.ofList ((List.range 32).map fun i => Nat.digitChar (id.toNat / 16 ^ (31 - i) % 16))

def NODE_STREAM_QUEUE_DEPTH : Nat := 32
def NODE_CLOSED_STREAM_TOMBSTONES : Nat := 256
def NODE_CLOSED_REQUEST_TOMBSTONES : Nat := 256
def MAX_NODE_STREAM_CHUNK_BYTES : Nat := 64 * 1024
def NODE_REMOTE_RUN_SOURCE_STREAM_WINDOW : Nat := 8

/-- The exceptions of the Node layer, each with its message and code. `protocol` is the one
    that takes the connection down; the others concern one request or stream. -/
inductive NodeError where
  | protocol (message code : String)
  | core (message code : String)
  | unavailable (message : String)
  | request (message code : String)
  | agent (message code : String)
  | value (message : String)
  deriving Repr, DecidableEq

/-- `NodeProtocolError`, whatever its text. -/
def NodeError.isProtocol : NodeError → Bool
  | .protocol _ _ => true
  | _ => false

/-- A text field of an error message: `str(value or default)[:limit]`. -/
def errorField (value default : String) (limit : Nat) : String :=
  String.ofList ((if value = "" then default else value).toList.take limit)

def NodeError.ofStream (error code : String) : NodeError :=
  .request (errorField error "Node stream failed" 500) (errorField code "stream_failed" 80)

def NodeError.ofResponse (error code : String) : NodeError :=
  .request (errorField error "Node request failed" 500) (errorField code "request_failed" 80)

/-- The `mode` field of a pane-mode control. -/
inductive ModeField where
  | absent
  | dict (mode : JsonObject)
  | other
  deriving DecidableEq

/-- A message from the Node to the Core. -/
inductive NodeMessage where
  | response (id : Option RequestId) (ok : Bool) (result : Option JsonObject)
      (error code : String)
  | streamData (streamId : Option RequestId) (data : Option Bytes)
  | streamControl (streamId : Option RequestId) (kind : String) (revision : Option Int)
      (available : Option Bool) (mode : ModeField)
  | streamClose (streamId : Option RequestId) (result : Option JsonObject)
  | streamError (streamId : Option RequestId) (error code : String)
  | other

/-- A stream message from the Core to the Node. `count` is the one other field of a control
    that the Node reads. -/
inductive CoreMessage where
  | streamData (data : Option Bytes)
  | streamControl (kind : String) (count : Option Int)
  | streamClose
  | streamAbort
  deriving DecidableEq

end Termroom.Node
