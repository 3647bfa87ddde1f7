import Mathlib
import Termroom.Node.Wire
import Termroom.Store.Commands

/-!
# Who is at the other end

A Node proves who it is when it connects: the Core sends a nonce, and the Node signs it together
with its id. The texts pass through a network that may keep, repeat and make up what it likes; only
a signature cannot be made up.

A Node that answers with its key is accepted, with what both sides are capable of
(`authenticate_answer`). Whoever else is at the network: where the Core has accepted a connection,
the holder of the key that is registered for this Node has answered this very challenge, and no
challenge is accepted twice (`node_handshake`). The code that pairs a Node at first is read however
it is typed (`pairing_code_read`).
-/

set_option autoImplicit false

namespace Termroom.Node.Handshake

open Data Conc Wire

/-! ## 1. Keys and signatures as text -/

/-- `base64.urlsafe_b64encode` of some bytes, without the padding. -/
def urlsafe (c : Char) : Char := if c = '+' then '-' else if c = '/' then '_' else c

def ofUrlsafe (c : Char) : Char := if c = '-' then '+' else if c = '_' then '/' else c

def urlsafeText (bytes : Bytes) : String :=
  String.ofList (Base64.stripPad ((Base64.b64encode bytes).map urlsafe))

/-- The padding is put back, and what is of no alphabet is skipped. -/
def readUrlsafe (text : String) : Option Bytes :=
  Base64.b64decode false ((Base64.pad 4 text.toList).map ofUrlsafe)

/-- What is used of the library for keys, and what it promises. -/
structure Signatures (Key : Type) where
  publicKey : Key → Bytes
  sign : Key → Bytes → Bytes
  verify : Bytes → Bytes → Bytes → Bool
  size : ∀ key, (publicKey key).length = 32
  signatureSize : ∀ key payload, (sign key payload).length = 64
  correct : ∀ key payload, verify (publicKey key) (sign key payload) payload = true

def publicKeyText (raw : Bytes) : String := urlsafeText raw

/-- `parse_public_key`, to the bytes of the key. -/
def parsePublicKey (value : String) : Option Bytes :=
  (readUrlsafe value).filter fun raw => raw.length = 32

/-- What is signed. -/
def payloadOf (id : RequestId) (nonce : String) : Bytes :=
  utf8 ("termroom-node-auth-v1\x00".toList ++ id.hex.toList ++ '\x00' :: nonce.toList)

def authPayload (id : RequestId) (nonce : String) : Except NodeError Bytes :=
  if nonce = "" ∨ 256 < nonce.toList.length then
    .error (.protocol "Node challenge is invalid" "challenge_invalid")
  else .ok (payloadOf id nonce)

/-! ## 2. The three messages -/

def NODE_REQUIRED_CAPABILITIES : List String := ["workspace", "terminal", "files"]

def NODE_OPTIONAL_CAPABILITIES : List String :=
  ["file_run", "recent", "remote_run", "remote_run_source", "workspace_command_v2",
    "workspace_usage", "terminal_editor"]

def NODE_CAPABILITIES : List String := NODE_REQUIRED_CAPABILITIES ++ NODE_OPTIONAL_CAPABILITIES

/-- `sorted(set(values))`. -/
def sortedSet (values : List String) : List String := values.dedup.mergeSort fun a b => a ≤ b

def strings (values : List String) : Json := .arr (values.map .str)

/-- The items of a list of `str`. -/
def stringsOf : Json → Option (List String)
  | .arr items => items.mapM fun | .str text => some text | _ => none
  | _ => none

def normalizeCapabilities (value : Json) : Except NodeError (List String) :=
  match stringsOf value with
  | none => .error (.protocol "Node capabilities are invalid" "capabilities_invalid")
  | some values =>
    if ∀ capability ∈ values, capability ∈ NODE_CAPABILITIES then .ok (sortedSet values)
    else .error (.protocol "Node reported unsupported capabilities" "capabilities_invalid")

/-- `secrets.token_urlsafe(32)`. -/
def tokenUrlsafe (bytes : Bytes) : String := urlsafeText bytes

def challengeFields (nonce : String) : JsonObject :=
  [("type", .str "auth.challenge"), ("nonce", .str nonce),
    ("capabilities", strings (sortedSet NODE_CAPABILITIES))]

def responseFields (id : RequestId) (signature : String) (capabilities : List String) :
    JsonObject :=
  [("type", .str "auth.response"), ("node_id", .str id.hex), ("signature", .str signature),
    ("protocol_version", .int NODE_PROTOCOL_VERSION),
    ("capabilities", strings (sortedSet capabilities))]

/-- The exception that a check raises. -/
def require (condition : Prop) [Decidable condition] (otherwise : NodeError) :
    Except NodeError Unit :=
  if condition then .ok () else .error otherwise

section

variable {Key : Type} (scheme : Signatures Key) (python : Python)

def signChallenge (key : Key) (id : RequestId) (nonce : String) : Except NodeError String := do
  let payload ← authPayload id nonce
  return urlsafeText (scheme.sign key payload)

/-- `verify_challenge`; whatever is raised is a refusal. -/
def verifyChallenge (publicKey : String) (id : RequestId) (nonce signature : String) : Bool :=
  match readUrlsafe signature, parsePublicKey publicKey, authPayload id nonce with
  | some raw, some key, .ok payload => scheme.verify key raw payload
  | _, _, _ => false

/-- What the Node offers, of what it was offered. -/
def capabilitiesFor : Option Json → Except NodeError (List String)
  | none | some .null => .ok NODE_REQUIRED_CAPABILITIES
  | some offered =>
    match stringsOf offered with
    | none => .error (.protocol "Core capabilities are invalid" "capabilities_invalid")
    | some offered => .ok (NODE_CAPABILITIES.filter fun capability => capability ∈ offered)

/-- The nonce of a challenge. -/
def nonceOf (challenge : JsonObject) : String := textOf python (Json.get challenge "nonce")

/-- `NodeAgent._authenticate`, up to what it sends. -/
def answerChallenge (key : Key) (id : RequestId) (raw : List Char) :
    Except NodeError (String × List Char) := do
  let challenge ← decodeMessage python raw
  require (Json.get challenge "type" = .str "auth.challenge")
    (.protocol "Core did not send a challenge" "auth_invalid")
  let nonce := nonceOf python challenge
  let capabilities ← capabilitiesFor (challenge.lookup "capabilities")
  let signature ← signChallenge scheme key id nonce
  let response ← encodeMessage (responseFields id signature capabilities)
  return (nonce, response)

/-- The signature in a response. -/
def signatureOf (message : JsonObject) : String := textOf python (Json.get message "signature")

/-- `NodeCore._authenticate`, from where it has sent its nonce. -/
def authenticate (publicKey : String) (id : RequestId) (nonce : String) (raw : List Char) :
    Except NodeError (Int × List String) := do
  let message ← decodeMessage python raw
  require (Json.get message "type" = .str "auth.response" ∧
      Json.get message "node_id" = .str id.hex)
    (.protocol "Node authentication response is invalid" "auth_invalid")
  let version ← validateProtocolVersion python (Json.get message "protocol_version")
  let capabilities ← normalizeCapabilities (Json.get message "capabilities")
  require (∀ capability ∈ NODE_REQUIRED_CAPABILITIES, capability ∈ capabilities)
    (.protocol "Node does not provide the required capabilities" "capabilities_missing")
  require (verifyChallenge scheme publicKey id nonce (signatureOf python message) = true)
    (.protocol "Node signature is invalid" "auth_invalid")
  return (version, capabilities)

/-- The end of `NodeAgent._authenticate`. -/
def checkApproved (id : RequestId) (raw : List Char) : Except NodeError Unit := do
  let approved ← decodeMessage python raw
  require (Json.get approved "type" = .str "auth.ok" ∧ Json.get approved "node_id" = .str id.hex)
    (.protocol "Core rejected Node authentication" "auth_rejected")

end

/-! ## 3. The network -/

/-- What has happened: the challenges the Core has sent and waits for, those it has sent at all,
    those that the holder of a key has answered, and those that were accepted. -/
structure AuthWorld (Key : Type) where
  waiting : List (RequestId × String)
  issued : List String
  answered : List (Key × RequestId × String)
  accepted : List (RequestId × String)

def AuthWorld.start {Key : Type} : AuthWorld Key := ⟨[], [], [], []⟩

section

variable {Key : Type} (scheme : Signatures Key) (python : Python) (registered : RequestId → String)

/-- If the signature in a text is valid for what is to be signed under a key, a holder of the key
    has signed just that, in an answer. -/
def Unforged (w : AuthWorld Key) (publicKey : String) (id : RequestId) (nonce : String)
    (raw : List Char) : Prop :=
  ∀ message signature publicRaw payload, decodeMessage python raw = .ok message →
    readUrlsafe (signatureOf python message) = some signature →
    parsePublicKey publicKey = some publicRaw → authPayload id nonce = .ok payload →
    scheme.verify publicRaw signature payload = true →
    ∃ key id' nonce', scheme.publicKey key = publicRaw ∧ (key, id', nonce') ∈ w.answered ∧
      authPayload id' nonce' = .ok payload

inductive AuthStep (w : AuthWorld Key) : AuthWorld Key → Prop
  /-- A socket is opened for a Node; no token comes twice. -/
  | challenge (id : RequestId) (token : Bytes) (fresh : tokenUrlsafe token ∉ w.issued) :
    AuthStep w
      { w with
        waiting := w.waiting ++ [(id, tokenUrlsafe token)]
        issued := w.issued ++ [tokenUrlsafe token] }
  /-- The holder of a key answers, whoever has sent the challenge. -/
  | answer (key : Key) (id : RequestId) (raw response : List Char) (nonce : String)
    (answers : answerChallenge scheme python key id raw = .ok (nonce, response)) :
    AuthStep w { w with answered := w.answered ++ [(key, id, nonce)] }
  /-- Any text comes in for a challenge. -/
  | accept (id : RequestId) (nonce : String) (raw : List Char) (version : Int)
    (capabilities : List String) (waits : (id, nonce) ∈ w.waiting)
    (unforged : Unforged scheme python w (registered id) id nonce raw)
    (passes : authenticate scheme python (registered id) id nonce raw =
      .ok (version, capabilities)) :
    AuthStep w
      { w with
        waiting := w.waiting.erase (id, nonce)
        accepted := w.accepted ++ [(id, nonce)] }
  | refuse (id : RequestId) (nonce : String) :
    AuthStep w { w with waiting := w.waiting.erase (id, nonce) }

inductive AuthRun : AuthWorld Key → Prop
  | start : AuthRun .start
  | step {w v : AuthWorld Key} : AuthRun w → AuthStep scheme python registered w v → AuthRun v

end

/-! ## 4. What is read back -/

section

variable {bytes : Bytes} {id id' : RequestId} {nonce nonce' : String}

theorem base64_plain : Base64.base64.characters.all (fun c =>
    decide (ofUrlsafe (urlsafe c) = c) && decide (urlsafe c ≠ '=') &&
      decide (Literal (urlsafe c))) = true := by
  decide

theorem urlsafe_spec {c : Char} (h : c ∈ Base64.base64.write bytes) :
    ofUrlsafe (urlsafe c) = c ∧ urlsafe c ≠ '=' ∧ Literal (urlsafe c) := by
  obtain ⟨d, hd, rfl⟩ := List.mem_map.mp h
  have := List.all_eq_true.mp base64_plain _ (Base64.Alphabet.char_mem (Base64.digits_lt hd))
  rw [Bool.and_eq_true, Bool.and_eq_true, decide_eq_true_eq, decide_eq_true_eq,
    decide_eq_true_eq] at this
  exact ⟨this.1.1, this.1.2, this.2⟩

theorem toList_urlsafeText :
    (urlsafeText bytes).toList = (Base64.base64.write bytes).map urlsafe := by
  unfold urlsafeText Base64.b64encode
  rw [String.toList_ofList, Base64.map_pad (by decide), Base64.stripPad_pad]
  intro c hc
  obtain ⟨d, hd, rfl⟩ := List.mem_map.mp hc
  exact (urlsafe_spec hd).2.1

theorem readUrlsafe_urlsafeText : readUrlsafe (urlsafeText bytes) = some bytes := by
  have hback : ((Base64.base64.write bytes).map urlsafe).map ofUrlsafe =
      Base64.base64.write bytes := by
    rw [List.map_map]
    exact (List.map_congr_left fun c hc => (urlsafe_spec hc).1).trans (List.map_id _)
  unfold readUrlsafe
  rw [toList_urlsafeText, Base64.map_pad (by decide), hback]
  exact Base64.b64decode_b64encode

theorem length_urlsafeText :
    (urlsafeText bytes).toList.length = Base64.digitCount 6 bytes := by
  rw [toList_urlsafeText, List.length_map]
  unfold Base64.Alphabet.write
  rw [List.length_map, Base64.length_digits]

theorem literal_urlsafeText : ∀ c ∈ (urlsafeText bytes).toList, Literal c := by
  rw [toList_urlsafeText]
  intro c hc
  obtain ⟨d, hd, rfl⟩ := List.mem_map.mp hc
  exact (urlsafe_spec hd).2.2

theorem length_hex : id.hex.toList.length = 32 := by
  rw [hex_toList]
  simp [hexDigits]

/-- What is signed says for whom and for what. -/
theorem payloadOf_injective (h : payloadOf id nonce = payloadOf id' nonce') :
    id = id' ∧ nonce = nonce' := by
  have htext := congrArg Data.decodeUtf8 h
  unfold payloadOf at htext
  rw [decodeUtf8_utf8, decodeUtf8_utf8, Option.some.injEq, List.append_assoc, List.append_assoc,
    List.append_cancel_left_eq] at htext
  obtain ⟨hid, hnonce⟩ := List.append_inj htext (length_hex.trans length_hex.symm)
  have hread := congrArg readId hid
  rw [readId_hex, readId_hex, Option.some.injEq] at hread
  exact ⟨hread, String.toList_inj.mp (List.cons.inj hnonce).2⟩

theorem authPayload_eq_ok {payload : Bytes} (h : authPayload id nonce = .ok payload) :
    payload = payloadOf id nonce := by
  unfold authPayload at h
  split_ifs at h
  exact (Except.ok.inj h).symm

end

/-! ## 5. Capabilities -/

section

variable {values sorted : List String}

theorem sortedSet_perm : (sortedSet values).Perm values.dedup := List.mergeSort_perm _ _

theorem sortedSet_pairwise : (sortedSet values).Pairwise (· ≤ ·) := by
  have h := @List.pairwise_mergeSort String (fun a b => decide (a ≤ b))
    (by simpa using fun a b c => @le_trans String _ a b c) (by simpa using le_total) values.dedup
  exact h.imp fun hab => of_decide_eq_true hab

/-- There is one way to sort. -/
theorem sortedSet_eq (hsorted : sorted.Pairwise (· ≤ ·)) (h : sorted.Perm values.dedup) :
    sortedSet values = sorted :=
  (sortedSet_perm.trans h.symm).eq_of_pairwise (fun _ _ _ _ => le_antisymm) sortedSet_pairwise
    hsorted

/-- All there is, in order. -/
def sortedCapabilities : List String :=
  ["file_run", "files", "recent", "remote_run", "remote_run_source", "terminal",
    "terminal_editor", "workspace", "workspace_command_v2", "workspace_usage"]

theorem sortedSet_capabilities : sortedSet NODE_CAPABILITIES = sortedCapabilities :=
  sortedSet_eq (by decide) (by decide)

theorem sortedSet_sortedCapabilities : sortedSet sortedCapabilities = sortedCapabilities :=
  sortedSet_eq (by decide) (by decide)

theorem stringsOf_strings : stringsOf (strings values) = some values := by
  unfold strings stringsOf
  dsimp only
  induction values with
  | nil => rfl
  | cons value values ih =>
    rw [List.map_cons, List.mapM_cons, ih]
    rfl

theorem normalizeCapabilities_sorted :
    normalizeCapabilities (strings sortedCapabilities) = .ok sortedCapabilities := by
  unfold normalizeCapabilities
  rw [stringsOf_strings]
  dsimp only
  rw [if_pos (by decide), sortedSet_sortedCapabilities]

/-- Whatever is offered of the Node is in order, and known. -/
theorem normalizeCapabilities_eq_ok {value : Json} (h : normalizeCapabilities value = .ok sorted) :
    sorted.Pairwise (· ≤ ·) ∧ sorted.Nodup ∧
      ∀ capability ∈ sorted, capability ∈ NODE_CAPABILITIES := by
  unfold normalizeCapabilities at h
  split at h
  · cases h
  · rename_i values _
    split_ifs at h with hknown
    obtain rfl := Except.ok.inj h
    refine ⟨sortedSet_pairwise, sortedSet_perm.nodup_iff.mpr (List.nodup_dedup _), ?_⟩
    intro capability hcapability
    exact hknown capability (List.mem_dedup.mp (sortedSet_perm.mem_iff.mp hcapability))

end

/-! ## 6. A Node that answers is accepted -/

section

variable {Key : Type} {scheme : Signatures Key} {python : Python} {key : Key} {id : RequestId}
  {token : Bytes} {raw : List Char}

theorem length_sorted : (utf8 (Json.dumps (strings sortedCapabilities))).length = 144 := by
  decide +kernel

theorem length_dumps_urlsafe {bytes : Bytes} :
    (utf8 (Json.dumps (.str (urlsafeText bytes)))).length = Base64.digitCount 6 bytes + 2 := by
  rw [Json.dumps, length_dumpsString literal_urlsafeText, length_urlsafeText]

theorem weight_capabilities : fieldWeight ("capabilities", strings (sortedSet NODE_CAPABILITIES)) ≤
    14 + 144 + 2 := by
  rw [sortedSet_capabilities]
  exact fieldWeight_le (by decide) length_sorted.le

/-- None of the messages is larger than it may be. -/
theorem encode_challenge (h : token.length = 32) :
    ∃ raw, encodeMessage (challengeFields (tokenUrlsafe token)) = .ok raw := by
  have htype : fieldWeight ("type", .str "auth.challenge") ≤ 6 + 16 + 2 :=
    fieldWeight_le (by decide) (by decide)
  have hnonce : fieldWeight ("nonce", .str (tokenUrlsafe token)) ≤ 7 + 45 + 2 := by
    refine fieldWeight_le (by decide) (length_dumps_urlsafe.le.trans ?_)
    unfold Base64.digitCount
    rw [h]
  have hcapabilities := weight_capabilities
  refine @encode_fits _ "auth.challenge" (by simp [challengeFields]) (by decide) ?_
  unfold challengeFields MAX_NODE_MESSAGE_BYTES
  simp only [List.map_cons, List.map_nil, List.sum_cons, List.sum_nil]
  omega

theorem encode_response {signature : Bytes} (h : signature.length = 64) :
    ∃ raw, encodeMessage (responseFields id (urlsafeText signature) NODE_CAPABILITIES) =
      .ok raw := by
  have htype : fieldWeight ("type", .str "auth.response") ≤ 6 + 15 + 2 :=
    fieldWeight_le (by decide) (by decide)
  have hid : fieldWeight ("node_id", .str id.hex) ≤ 9 + 34 + 2 :=
    fieldWeight_le (by decide) length_dumps_hex.le
  have hsignature : fieldWeight ("signature", .str (urlsafeText signature)) ≤ 11 + 88 + 2 := by
    refine fieldWeight_le (by decide) (length_dumps_urlsafe.le.trans ?_)
    unfold Base64.digitCount
    rw [h]
  have hversion : fieldWeight ("protocol_version", .int NODE_PROTOCOL_VERSION) ≤ 18 + 1 + 2 :=
    fieldWeight_le (by decide) (by decide)
  have hcapabilities := weight_capabilities
  refine @encode_fits _ "auth.response" (by simp [responseFields]) (by decide) ?_
  unfold responseFields MAX_NODE_MESSAGE_BYTES
  simp only [List.map_cons, List.map_nil, List.sum_cons, List.sum_nil]
  omega

/-- The last message of the handshake. -/
def approvedFields (id : RequestId) : JsonObject :=
  [("type", .str "auth.ok"), ("node_id", .str id.hex)]

theorem encode_approved : ∃ raw, encodeMessage (approvedFields id) = .ok raw := by
  have htype : fieldWeight ("type", .str "auth.ok") ≤ 6 + 9 + 2 :=
    fieldWeight_le (by decide) (by decide)
  have hid : fieldWeight ("node_id", .str id.hex) ≤ 9 + 34 + 2 :=
    fieldWeight_le (by decide) length_dumps_hex.le
  refine @encode_fits _ "auth.ok" (by simp [approvedFields]) (by decide) ?_
  unfold approvedFields MAX_NODE_MESSAGE_BYTES
  simp only [List.map_cons, List.map_nil, List.sum_cons, List.sum_nil]
  omega

/-- The Node takes the approval for what it is. -/
theorem checkApproved_approved (h : encodeMessage (approvedFields id) = .ok raw) :
    checkApproved python id raw = .ok () := by
  have readable : Json.Readable python.float (.obj (approvedFields id)) :=
    ⟨by simp [approvedFields], trivial, trivial, trivial⟩
  unfold checkApproved
  rw [decode_encode readable h, ok_bind]
  exact if_pos (by simp [Json.get, approvedFields, List.lookup])

theorem readable_strings (values : List String) :
    Json.Readable python.float (strings values) := by
  unfold strings
  induction values with
  | nil => trivial
  | cons value values ih => exact ⟨trivial, ih⟩

theorem require_ok {condition : Prop} [Decidable condition] {otherwise : NodeError}
    (h : condition) : require condition otherwise = .ok () := if_pos h

theorem of_require {condition : Prop} [Decidable condition] {otherwise : NodeError} {u : Unit}
    (h : require condition otherwise = .ok u) : condition := by
  unfold require at h
  split_ifs at h with hcondition
  exact hcondition

theorem authPayload_token (h : token.length = 32) :
    authPayload id (tokenUrlsafe token) = .ok (payloadOf id (tokenUrlsafe token)) := by
  have hlength : (tokenUrlsafe token).toList.length = 43 := by
    unfold tokenUrlsafe
    rw [length_urlsafeText]
    unfold Base64.digitCount
    rw [h]
  unfold authPayload
  refine if_neg (not_or.mpr ⟨fun hempty => ?_, by omega⟩)
  rw [hempty] at hlength
  cases hlength

/-- The Node answers the challenge of the Core. -/
theorem answerChallenge_challenge (h : token.length = 32)
    (hraw : encodeMessage (challengeFields (tokenUrlsafe token)) = .ok raw) :
    ∃ response, answerChallenge scheme python key id raw = .ok (tokenUrlsafe token, response) ∧
      encodeMessage (responseFields id
        (urlsafeText (scheme.sign key (payloadOf id (tokenUrlsafe token)))) NODE_CAPABILITIES) =
          .ok response := by
  have readable : Json.Readable python.float (.obj (challengeFields (tokenUrlsafe token))) :=
    ⟨by simp [challengeFields], trivial, trivial, readable_strings _, trivial⟩
  obtain ⟨response, hresponse⟩ := @encode_response id _
    (scheme.signatureSize key (payloadOf id (tokenUrlsafe token)))
  have hnonce : nonceOf python (challengeFields (tokenUrlsafe token)) = tokenUrlsafe token := by
    unfold nonceOf
    have hget : Json.get (challengeFields (tokenUrlsafe token)) "nonce" =
        .str (tokenUrlsafe token) := by
      simp [Json.get, challengeFields, List.lookup]
    rw [hget, textOf_str]
  have hcapabilities : capabilitiesFor ((challengeFields (tokenUrlsafe token)).lookup
      "capabilities") = .ok NODE_CAPABILITIES := by
    have hlookup : (challengeFields (tokenUrlsafe token)).lookup "capabilities" =
        some (strings sortedCapabilities) := by
      simp [challengeFields, List.lookup, sortedSet_capabilities]
    have hall : NODE_CAPABILITIES.filter (fun capability =>
        decide (capability ∈ sortedCapabilities)) = NODE_CAPABILITIES := by decide
    have hoffered := @stringsOf_strings sortedCapabilities
    rw [hlookup]
    unfold strings at hoffered ⊢
    unfold capabilitiesFor
    dsimp only
    rw [hoffered]
    exact congrArg Except.ok hall
  have hsign : signChallenge scheme key id (tokenUrlsafe token) =
      .ok (urlsafeText (scheme.sign key (payloadOf id (tokenUrlsafe token)))) := by
    unfold signChallenge
    rw [authPayload_token h]
    rfl
  refine ⟨response, ?_, hresponse⟩
  have htype : Json.get (challengeFields (tokenUrlsafe token)) "type" =
      .str "auth.challenge" := by
    simp [Json.get, challengeFields]
  unfold answerChallenge
  rw [decode_encode readable hraw, ok_bind, require_ok htype, ok_bind, hnonce, hcapabilities,
    ok_bind, hsign, ok_bind, hresponse]
  rfl

theorem verifyChallenge_sign (h : token.length = 32) :
    verifyChallenge scheme (publicKeyText (scheme.publicKey key)) id (tokenUrlsafe token)
      (urlsafeText (scheme.sign key (payloadOf id (tokenUrlsafe token)))) = true := by
  unfold verifyChallenge parsePublicKey publicKeyText
  rw [readUrlsafe_urlsafeText, readUrlsafe_urlsafeText, authPayload_token h, Option.filter_some,
    if_pos (decide_eq_true (scheme.size key))]
  exact scheme.correct _ _

/-- **Who answers with the key is accepted.** -/
theorem authenticate_answer (h : token.length = 32)
    (hraw : encodeMessage (responseFields id
      (urlsafeText (scheme.sign key (payloadOf id (tokenUrlsafe token)))) NODE_CAPABILITIES) =
        .ok raw) :
    authenticate scheme python (publicKeyText (scheme.publicKey key)) id (tokenUrlsafe token) raw =
      .ok (NODE_PROTOCOL_VERSION, sortedCapabilities) := by
  generalize hsignature : urlsafeText (scheme.sign key (payloadOf id (tokenUrlsafe token))) =
    signature at hraw
  have readable : Json.Readable python.float (.obj (responseFields id signature NODE_CAPABILITIES)) :=
    ⟨by simp [responseFields], trivial, trivial, trivial, trivial, readable_strings _, trivial⟩
  have hget : signatureOf python (responseFields id signature NODE_CAPABILITIES) = signature := by
    unfold signatureOf
    have hget : Json.get (responseFields id signature NODE_CAPABILITIES) "signature" =
        .str signature := by
      simp [Json.get, responseFields, List.lookup]
    rw [hget, textOf_str]
  have hversion : validateProtocolVersion python
      (Json.get (responseFields id signature NODE_CAPABILITIES) "protocol_version") =
        .ok NODE_PROTOCOL_VERSION := by
    simp [Json.get, responseFields, List.lookup, validateProtocolVersion]
  have hcapabilities : normalizeCapabilities
      (Json.get (responseFields id signature NODE_CAPABILITIES) "capabilities") =
        .ok sortedCapabilities := by
    have hget : Json.get (responseFields id signature NODE_CAPABILITIES) "capabilities" =
        strings sortedCapabilities := by
      simp [Json.get, responseFields, List.lookup, sortedSet_capabilities]
    rw [hget, normalizeCapabilities_sorted]
  have htype : Json.get (responseFields id signature NODE_CAPABILITIES) "type" =
      .str "auth.response" ∧
      Json.get (responseFields id signature NODE_CAPABILITIES) "node_id" = .str id.hex := by
    simp [Json.get, responseFields, List.lookup]
  have hverify := @verifyChallenge_sign Key scheme key id token h
  rw [hsignature, ← hget] at hverify
  unfold authenticate
  rw [decode_encode readable hraw, ok_bind, require_ok htype, ok_bind, hversion, ok_bind,
    hcapabilities, ok_bind, require_ok (by decide), ok_bind, require_ok hverify]
  rfl

/-! ## 7. Who is accepted has answered -/

theorem validateProtocolVersion_eq_ok {value : Json} {version : Int}
    (h : validateProtocolVersion python value = .ok version) :
    version = NODE_PROTOCOL_VERSION := by
  unfold validateProtocolVersion at h
  dsimp only at h
  split at h
  · cases h
  · split_ifs at h with hversion
    exact (Except.ok.inj h).symm.trans hversion

/-- What is accepted of a Node is in order. -/
theorem authenticate_formed {publicKey nonce : String} {version : Int} {capabilities : List String}
    (h : authenticate scheme python publicKey id nonce raw = .ok (version, capabilities)) :
    version = NODE_PROTOCOL_VERSION ∧ capabilities.Pairwise (· ≤ ·) ∧ capabilities.Nodup ∧
      (∀ capability ∈ NODE_REQUIRED_CAPABILITIES, capability ∈ capabilities) ∧
      ∀ capability ∈ capabilities, capability ∈ NODE_CAPABILITIES := by
  unfold authenticate at h
  obtain ⟨message, -, h⟩ := bind_eq_ok.mp h
  obtain ⟨_, -, h⟩ := bind_eq_ok.mp h
  obtain ⟨found, hversion, h⟩ := bind_eq_ok.mp h
  obtain ⟨values, hcapabilities, h⟩ := bind_eq_ok.mp h
  obtain ⟨_, hrequired, h⟩ := bind_eq_ok.mp h
  obtain ⟨_, -, h⟩ := bind_eq_ok.mp h
  obtain ⟨rfl, rfl⟩ := Prod.mk.inj (Except.ok.inj h)
  obtain ⟨hsorted, hdistinct, hknown⟩ := normalizeCapabilities_eq_ok hcapabilities
  exact ⟨validateProtocolVersion_eq_ok hversion, hsorted, hdistinct, of_require hrequired, hknown⟩

/-- What an accepted text has to show. -/
theorem authenticate_eq_ok {publicKey nonce : String} {version : Int} {capabilities : List String}
    (h : authenticate scheme python publicKey id nonce raw = .ok (version, capabilities)) :
    ∃ message signature publicRaw payload, decodeMessage python raw = .ok message ∧
      readUrlsafe (signatureOf python message) = some signature ∧
      parsePublicKey publicKey = some publicRaw ∧ authPayload id nonce = .ok payload ∧
      scheme.verify publicRaw signature payload = true := by
  unfold authenticate at h
  obtain ⟨message, hmessage, h⟩ := bind_eq_ok.mp h
  obtain ⟨_, -, h⟩ := bind_eq_ok.mp h
  obtain ⟨_, -, h⟩ := bind_eq_ok.mp h
  obtain ⟨_, -, h⟩ := bind_eq_ok.mp h
  obtain ⟨_, -, h⟩ := bind_eq_ok.mp h
  obtain ⟨_, hverify, -⟩ := bind_eq_ok.mp h
  have hverify := of_require hverify
  unfold verifyChallenge at hverify
  split at hverify
  · rename_i signature publicRaw payload hsignature hkey hpayload
    exact ⟨message, signature, publicRaw, payload, hmessage, hsignature, hkey, hpayload, hverify⟩
  · cases hverify

variable {registered : RequestId → String} {w v : AuthWorld Key}

/-- What the steps keep. -/
structure AuthOk (scheme : Signatures Key) (registered : RequestId → String) (w : AuthWorld Key) :
    Prop where
  distinct : ((w.waiting ++ w.accepted).map Prod.snd).Nodup
  known : ∀ p ∈ w.waiting ++ w.accepted, p.2 ∈ w.issued
  holds : ∀ p ∈ w.accepted, ∃ key, parsePublicKey (registered p.1) = some (scheme.publicKey key) ∧
    (key, p.1, p.2) ∈ w.answered

/-- A challenge that is no longer waited for. -/
theorem AuthOk.drop (ok : AuthOk scheme registered w) (p : RequestId × String) :
    ((w.waiting.erase p ++ w.accepted).map Prod.snd).Nodup ∧
      ∀ q ∈ w.waiting.erase p ++ w.accepted, q.2 ∈ w.issued := by
  have hsub : (w.waiting.erase p ++ w.accepted).Sublist (w.waiting ++ w.accepted) :=
    (List.erase_sublist).append (List.Sublist.refl _)
  exact ⟨ok.distinct.sublist (hsub.map _), fun q hq => ok.known q (hsub.subset hq)⟩

/-- **What is accepted was answered.** -/
theorem answered_of_accept {nonce : String} {version : Int} {capabilities : List String}
    (unforged : Unforged scheme python w (registered id) id nonce raw)
    (passes : authenticate scheme python (registered id) id nonce raw =
      .ok (version, capabilities)) :
    ∃ key, parsePublicKey (registered id) = some (scheme.publicKey key) ∧
      (key, id, nonce) ∈ w.answered := by
  obtain ⟨message, signature, publicRaw, payload, hmessage, hsignature, hkey, hpayload, hverify⟩ :=
    authenticate_eq_ok passes
  obtain ⟨key, id', nonce', rfl, hanswered, hpayload'⟩ :=
    unforged message signature publicRaw payload hmessage hsignature hkey hpayload hverify
  have heq := (authPayload_eq_ok hpayload).symm.trans (authPayload_eq_ok hpayload')
  obtain ⟨rfl, rfl⟩ := payloadOf_injective heq
  exact ⟨key, hkey, hanswered⟩

theorem AuthStep.ok (h : AuthStep scheme python registered w v) (ok : AuthOk scheme registered w) :
    AuthOk scheme registered v := by
  cases h with
  | challenge id token fresh =>
    have hperm : (w.waiting ++ [(id, tokenUrlsafe token)] ++ w.accepted).Perm
        ((id, tokenUrlsafe token) :: (w.waiting ++ w.accepted)) := by
      rw [List.append_assoc, List.singleton_append]
      exact List.perm_middle
    refine ⟨?_, ?_, ok.holds⟩
    · rw [(hperm.map _).nodup_iff, List.map_cons, List.nodup_cons]
      refine ⟨fun hmem => ?_, ok.distinct⟩
      obtain ⟨p, hp, heq⟩ := List.mem_map.mp hmem
      have hnonce : p.2 = tokenUrlsafe token := heq
      exact fresh (hnonce ▸ ok.known p hp)
    · intro p hp
      rcases List.mem_cons.mp (hperm.mem_iff.mp hp) with rfl | hp
      · exact List.mem_append_right _ List.mem_cons_self
      · exact List.mem_append_left _ (ok.known p hp)
  | answer key id raw response nonce answers =>
    refine ⟨ok.distinct, ok.known, fun p hp => ?_⟩
    obtain ⟨holder, hkey, hanswered⟩ := ok.holds p hp
    exact ⟨holder, hkey, List.mem_append_left _ hanswered⟩
  | accept id nonce raw version capabilities waits unforged passes =>
    have hperm : (w.waiting.erase (id, nonce) ++ (w.accepted ++ [(id, nonce)])).Perm
        (w.waiting ++ w.accepted) := by
      rw [← List.append_assoc]
      refine (List.perm_append_singleton _ _).trans ?_
      rw [← List.cons_append]
      exact (List.perm_cons_erase waits).symm.append_right _
    refine ⟨(hperm.map _).nodup_iff.mpr ok.distinct, ?_, ?_⟩
    · intro p hp
      exact ok.known p (hperm.mem_iff.mp hp)
    · intro p hp
      rcases List.mem_append.mp hp with hp | hp
      · exact ok.holds p hp
      · obtain rfl := List.mem_singleton.mp hp
        exact answered_of_accept unforged passes
  | refuse id nonce =>
    obtain ⟨distinct, known⟩ := ok.drop (id, nonce)
    exact ⟨distinct, known, ok.holds⟩

theorem AuthRun.ok (run : AuthRun scheme python registered w) : AuthOk scheme registered w := by
  induction run with
  | start => exact ⟨List.nodup_nil, by simp [AuthWorld.start], by simp [AuthWorld.start]⟩
  | step _ h ih => exact h.ok ih

/-- **The handshake tells who is who.** A Node that answers a challenge with its key is accepted
    under it, with all its capabilities, and takes the approval; what is accepted has the version
    of the protocol, the capabilities it must have, and none that is unknown. And whatever texts
    come in, and whoever answers to what: where a challenge was accepted for a Node, the holder of
    the key that is registered for it has answered this challenge for this Node; and none was
    accepted twice. -/
theorem node_handshake (scheme : Signatures Key) (python : Python) :
    (∀ key id token, token.length = 32 → ∃ challenge response approved,
      encodeMessage (challengeFields (tokenUrlsafe token)) = .ok challenge ∧
      answerChallenge scheme python key id challenge = .ok (tokenUrlsafe token, response) ∧
      authenticate scheme python (publicKeyText (scheme.publicKey key)) id (tokenUrlsafe token)
        response = .ok (NODE_PROTOCOL_VERSION, sortedSet NODE_CAPABILITIES) ∧
      encodeMessage (approvedFields id) = .ok approved ∧
      checkApproved python id approved = .ok ()) ∧
    (∀ publicKey id nonce raw version capabilities,
      authenticate scheme python publicKey id nonce raw = .ok (version, capabilities) →
        version = NODE_PROTOCOL_VERSION ∧ capabilities.Pairwise (· ≤ ·) ∧ capabilities.Nodup ∧
        (∀ capability ∈ NODE_REQUIRED_CAPABILITIES, capability ∈ capabilities) ∧
        ∀ capability ∈ capabilities, capability ∈ NODE_CAPABILITIES) ∧
    ∀ registered w, AuthRun scheme python registered w →
      (∀ p ∈ w.accepted, ∃ key, parsePublicKey (registered p.1) = some (scheme.publicKey key) ∧
        (key, p.1, p.2) ∈ w.answered) ∧
      (w.accepted.map Prod.snd).Nodup := by
  refine ⟨?_, fun _ _ _ _ _ _ => authenticate_formed, ?_⟩
  · intro key id token h
    obtain ⟨challenge, hchallenge⟩ := encode_challenge h
    obtain ⟨response, hanswer, hresponse⟩ :=
      @answerChallenge_challenge Key scheme python key id token challenge h hchallenge
    obtain ⟨approved, happroved⟩ := @encode_approved id
    rw [sortedSet_capabilities]
    exact ⟨challenge, response, approved, hchallenge, hanswer, authenticate_answer h hresponse,
      happroved, checkApproved_approved happroved⟩
  · intro registered w run
    have ok := run.ok
    refine ⟨ok.holds, ok.distinct.sublist ?_⟩
    exact (List.sublist_append_right _ _).map _

/-- The last bytes of what is signed, behind the key: valid for what was signed, and good enough
    for an honest run. -/
def sampleScheme : Signatures (Vector UInt8 32) where
  publicKey key := key.toList
  sign key payload := key.toList ++ (payload.reverse ++ List.replicate 32 0).take 32
  verify key signature payload :=
    signature = key ++ (payload.reverse ++ List.replicate 32 0).take 32
  size key := key.length_toList
  signatureSize key payload := by simp
  correct key payload := decide_eq_true rfl

def samplePython : Python := ⟨fun text => String.ofList text, fun _ => "", fun _ => none⟩

/-- The Node answers a challenge, and is accepted. -/
theorem node_handshake_accepted : ∃ w : AuthWorld (Vector UInt8 32),
    AuthRun sampleScheme samplePython (fun _ => publicKeyText (List.replicate 32 7)) w ∧
    w.accepted = [(1, tokenUrlsafe (List.replicate 32 5))] ∧
    ∃ key, parsePublicKey (publicKeyText (List.replicate 32 7)) =
        some (sampleScheme.publicKey key) ∧
      (key, 1, tokenUrlsafe (List.replicate 32 5)) ∈ w.answered := by
  obtain ⟨accepts, -, runs⟩ := node_handshake sampleScheme samplePython
  have key : sampleScheme.publicKey (Vector.replicate 32 7) = List.replicate 32 7 := rfl
  obtain ⟨challenge, response, -, -, answers, passes, -, -⟩ :=
    accepts (Vector.replicate 32 7) 1 (List.replicate 32 5) rfl
  rw [key] at passes
  have opened : AuthRun sampleScheme samplePython
      (fun _ => publicKeyText (List.replicate 32 7)) _ :=
    AuthRun.start.step (.challenge 1 (List.replicate 32 5) List.not_mem_nil)
  have answered := opened.step (.answer (Vector.replicate 32 7) 1 challenge response _ answers)
  have run := answered.step (.accept 1 _ response _ _ (by simp [AuthWorld.start]) ?_ passes)
  · obtain ⟨holds, -⟩ := runs _ _ run
    exact ⟨_, run, rfl, holds _ List.mem_cons_self⟩
  · intro message signature publicRaw payload _ _ hkey hpayload _
    refine ⟨Vector.replicate 32 7, 1, _, ?_, List.mem_cons_self, hpayload⟩
    rw [key]
    unfold parsePublicKey publicKeyText at hkey
    rw [readUrlsafe_urlsafeText] at hkey
    exact (Option.filter_eq_some_iff.mp hkey).1 |> Option.some.inj

end

/-! ## 8. The pairing code -/

/-- `str.upper`, of which the letters of ASCII are known. -/
structure Upper where
  text : List Char → List Char
  ascii : ∀ value, (∀ c ∈ value, c.toNat < 128) → text value = value.map Char.toUpper

/-- The upper case of ASCII. -/
def Upper.letters : Upper := ⟨fun value => value.map Char.toUpper, fun _ _ => rfl⟩

/-- `generate_pairing_code`, of a token. -/
def generatePairingCode (token : Bytes) : List Char :=
  let raw := Base64.stripPad (Base64.b32encode token)
  ['-'].intercalate ((List.range ((raw.length + 3) / 4)).map fun i => (raw.drop (4 * i)).take 4)

/-- A character of `PAIRING_CODE_PATTERN`. -/
def isCodeChar (c : Char) : Bool := ('A' ≤ c && c ≤ 'Z') || ('2' ≤ c && c ≤ '7')

def normalizePairingCode (upper : Upper) (value : List Char) : Except NodeError (List Char) :=
  let normalized := ((upper.text (strip value)).filter (· ≠ '-')).filter (· ≠ ' ')
  if normalized.length = 16 ∧ normalized.all isCodeChar then .ok normalized
  else .error (.protocol "Pairing code is invalid" "pairing_invalid")

section

variable {upper : Upper} {token : Bytes} {typed value code : List Char}

/-- What somebody types for a code: in any case, with hyphens and spaces anywhere. -/
def Spells (typed code : List Char) : Prop :=
  (∀ c ∈ typed, c.toNat < 128) ∧
    (typed.filter fun c => c ≠ '-' ∧ c ≠ ' ').map Char.toUpper = code

theorem isCodeChar_write : ∀ c ∈ Base64.base32.write token, isCodeChar c = true := by
  have hall : Base64.base32.characters.all isCodeChar = true := by decide
  intro c hc
  obtain ⟨d, hd, rfl⟩ := List.mem_map.mp hc
  exact List.all_eq_true.mp hall _ (Base64.Alphabet.char_mem (Base64.digits_lt hd))

theorem length_code (h : token.length = 10) : (Base64.base32.write token).length = 16 := by
  unfold Base64.Alphabet.write
  rw [List.length_map, Base64.length_digits]
  unfold Base64.digitCount
  rw [h]

/-- What is not seen of a character that is typed. -/
theorem ascii_upper {c : Char} (h : c.toNat < 128) :
    (c.toUpper = '-' ↔ c = '-') ∧ (c.toUpper = ' ' ↔ c = ' ') ∧
      (isSpace c = true → c = ' ' ∨ isCodeChar c.toUpper = false ∧ c ≠ '-') := by
  have hall : ∀ n < 128, ((Char.ofNat n).toUpper = '-' ↔ Char.ofNat n = '-') ∧
      ((Char.ofNat n).toUpper = ' ' ↔ Char.ofNat n = ' ') ∧
      (isSpace (Char.ofNat n) = true → Char.ofNat n = ' ' ∨
        isCodeChar (Char.ofNat n).toUpper = false ∧ Char.ofNat n ≠ '-') := by decide
  have := hall c.toNat h
  rwa [Char.ofNat_toNat] at this

/-- What is stripped off would be left out anyway. -/
theorem filter_strip {keep : Char → Bool}
    (h : ∀ c ∈ typed, isSpace c = true → keep c = false) :
    (strip typed).filter keep = typed.filter keep := by
  have hdropped : ∀ text : List Char, (∀ c ∈ text, isSpace c = true → keep c = false) →
      (text.dropWhile isSpace).filter keep = text.filter keep := by
    intro text htext
    induction text with
    | nil => rfl
    | cons c text ih =>
      rw [List.dropWhile_cons]
      split_ifs with hspace
      · rw [ih fun d hd => htext d (List.mem_cons_of_mem _ hd),
          List.filter_cons_of_neg (by simp [htext c List.mem_cons_self hspace])]
      · rfl
  unfold strip List.rdropWhile
  have hback := hdropped (typed.dropWhile isSpace).reverse fun c hc =>
    h c ((List.dropWhile_sublist _).subset (List.mem_reverse.mp hc))
  rw [List.filter_reverse, hback, List.filter_reverse, List.reverse_reverse, hdropped typed h]

theorem normalize_spells (h : Spells typed code) (hlength : code.length = 16)
    (hcode : ∀ c ∈ code, isCodeChar c = true) : normalizePairingCode upper typed = .ok code := by
  obtain ⟨hascii, rfl⟩ := h
  have hstrip : ∀ c ∈ strip typed, c ∈ typed := by
    intro c hc
    exact (List.dropWhile_sublist _).subset ((List.rdropWhile_prefix _ _).subset hc)
  have hspaces : ∀ c ∈ typed, isSpace c = true → decide (c ≠ '-' ∧ c ≠ ' ') = false := by
    intro c hc hspace
    by_contra hkeep
    rw [Bool.not_eq_false, decide_eq_true_eq] at hkeep
    rcases (ascii_upper (hascii c hc)).2.2 hspace with hblank | ⟨hother, -⟩
    · exact hkeep.2 hblank
    · have := hcode _ (List.mem_map_of_mem
        (List.mem_filter.mpr ⟨hc, decide_eq_true hkeep⟩))
      rw [hother] at this
      cases this
  have hkept : ((upper.text (strip typed)).filter (· ≠ '-')).filter (· ≠ ' ') =
      (typed.filter fun c => c ≠ '-' ∧ c ≠ ' ').map Char.toUpper := by
    rw [upper.ascii _ fun c hc => hascii c (hstrip c hc), List.filter_filter, List.filter_map,
      ← filter_strip hspaces]
    congr 1
    refine List.filter_congr fun c hc => ?_
    obtain ⟨hhyphen, hblank, -⟩ := ascii_upper (hascii c (hstrip c hc))
    simp [hhyphen, hblank, and_comm]
  unfold normalizePairingCode
  dsimp only
  rw [hkept, if_pos ⟨hlength, List.all_eq_true.mpr hcode⟩]

theorem codeChar_spec {c : Char} (h : isCodeChar c = true) :
    c.toNat < 128 ∧ c ≠ '-' ∧ c ≠ ' ' ∧ c.toUpper = c := by
  have hlt : c.toNat < 128 := by
    unfold isCodeChar at h
    simp only [Bool.or_eq_true, Bool.and_eq_true, decide_eq_true_eq, Char.le_def] at h
    have hz : ('Z' : Char).val.toNat = 90 := rfl
    have h7 : ('7' : Char).val.toNat = 55 := rfl
    rcases h with ⟨-, h⟩ | ⟨-, h⟩ <;> rw [UInt32.le_iff_toNat_le] at h <;>
      simp only [Char.toNat] <;> omega
  have hall : ∀ n < 128, isCodeChar (Char.ofNat n) = true →
      Char.ofNat n ≠ '-' ∧ Char.ofNat n ≠ ' ' ∧ (Char.ofNat n).toUpper = Char.ofNat n := by decide
  have := hall c.toNat hlt
  rw [Char.ofNat_toNat] at this
  exact ⟨hlt, this h⟩

/-- A code spells itself. -/
theorem spells_self (h : ∀ c ∈ code, isCodeChar c = true) : Spells code code := by
  refine ⟨fun c hc => (codeChar_spec (h c hc)).1, ?_⟩
  rw [List.filter_eq_self.mpr fun c hc => decide_eq_true ⟨(codeChar_spec (h c hc)).2.1,
    (codeChar_spec (h c hc)).2.2.1⟩]
  exact (List.map_congr_left fun c hc => (codeChar_spec (h c hc)).2.2.2).trans (List.map_id _)

theorem filter_intercalate {keep : Char → Bool} (h : keep '-' = false) (parts : List (List Char)) :
    (['-'].intercalate parts).filter keep = parts.flatten.filter keep := by
  induction parts with
  | nil => rfl
  | cons part parts ih =>
    cases parts with
    | nil => simp
    | cons next parts =>
      have hhyphen : ['-'].filter keep = [] := by simp [h]
      rw [List.intercalate_cons_cons, List.filter_append, List.filter_append, hhyphen,
        List.append_nil, ih, @List.flatten_cons _ part, List.filter_append]

theorem spells_generate (h : token.length = 10) :
    Spells (generatePairingCode token) (Base64.base32.write token) := by
  have hlength := length_code h
  have hcode := @isCodeChar_write token
  have hraw : Base64.stripPad (Base64.b32encode token) = Base64.base32.write token :=
    Base64.stripPad_pad fun c hc => (Base64.Alphabet.mem_write hc).2
  unfold generatePairingCode
  dsimp only
  rw [hraw, hlength]
  generalize Base64.base32.write token = code at *
  have hparts : ((List.range ((16 + 3) / 4)).map fun i => (code.drop (4 * i)).take 4).flatten =
      code := by
    have hrest : (code.drop 4).drop 4 = code.drop 8 := List.drop_drop
    have hrange : List.range ((16 + 3) / 4) = [0, 1, 2, 3] := by decide
    have htwelve : (code.drop 8).drop 4 = code.drop 12 := List.drop_drop
    have hlast : (code.drop 12).take 4 = code.drop 12 :=
      List.take_of_length_le (by rw [List.length_drop]; omega)
    rw [hrange]
    simp only [List.map_cons, List.map_nil, List.flatten_cons, List.flatten_nil, List.append_nil,
      Nat.mul_zero, Nat.mul_one, Nat.reduceMul, List.drop_zero, hlast]
    rw [← htwelve, List.take_append_drop, ← hrest, List.take_append_drop, List.take_append_drop]
  obtain ⟨hascii, hspell⟩ := spells_self hcode
  refine ⟨?_, ?_⟩
  · -- nothing is left of it that is not ASCII
    have hnone : (['-'].intercalate ((List.range ((16 + 3) / 4)).map fun i =>
        (code.drop (4 * i)).take 4)).filter (fun c => decide (¬ c.toNat < 128)) = [] := by
      rw [filter_intercalate (by decide), hparts, List.filter_eq_nil_iff]
      exact fun c hc => by simpa using hascii c hc
    intro c hc
    simpa using List.filter_eq_nil_iff.mp hnone c hc
  · rw [filter_intercalate (by decide), hparts]
    exact hspell

/-- **A pairing code is read however it is typed**: in any case, and with hyphens and spaces
    anywhere, as it is shown with hyphens. Different tokens have different codes, and what was read
    once is read so again. -/
theorem pairing_code_read (upper : Upper) :
    (∀ token typed, token.length = 10 → Spells typed (Base64.base32.write token) →
      normalizePairingCode upper typed = .ok (Base64.base32.write token)) ∧
    (∀ token, token.length = 10 →
      Spells (generatePairingCode token) (Base64.base32.write token)) ∧
    (∀ token token', Base64.base32.write token = Base64.base32.write token' → token = token') ∧
    ∀ value code, normalizePairingCode upper value = .ok code →
      normalizePairingCode upper code = .ok code := by
  refine ⟨fun token typed h spells => normalize_spells spells (length_code h) isCodeChar_write,
    fun token => spells_generate, fun token token' =>
      Base64.Alphabet.write_injective (by decide) (by decide), ?_⟩
  intro value code h
  unfold normalizePairingCode at h
  dsimp only at h
  split_ifs at h with hpattern
  obtain rfl := Except.ok.inj h
  have hcode := List.all_eq_true.mp hpattern.2
  exact normalize_spells (spells_self hcode) hpattern.1 hcode

example : normalizePairingCode .letters " abcd-efgh ijkl-2345".toList =
    .ok "ABCDEFGHIJKL2345".toList := by
  decide +kernel

end

end Termroom.Node.Handshake
