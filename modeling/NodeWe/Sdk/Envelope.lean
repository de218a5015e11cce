import NodeWe.JsonSyntax
import NodeWe.JsonText
import NodeWe.ControlPlane.WebSocket

/-!
# Envelopes of the SDK

The SDK checks an envelope before it is sent, and `websocket_message` checks it when it arrives.
`Envelope.validate` is the first check, `Envelope.render` the object that the specification makes of
an envelope, and `Acceptable` what the control plane needs of it. The SDK looks at the ends of the
payload only, takes every text of the right length for a request, and lets an empty type pass, so
that `Specified` is what is left to its callers.
-/

namespace NodeWe.Sdk

open Text ControlPlane

/-! ## The SDK -/

/-- `Envelope`. -/
structure Envelope where
  protocol_version : UInt16
  agent_version : String
  node_id : String
  request_id : String
  message_type : String
  /-- A JSON object supplied by the transport adapter. -/
  payload_json : String

/-- `Envelope::validate`. -/
def Envelope.validate (e : Envelope) : Except String Unit :=
  if e.protocol_version ≠ 1 then .error "unsupported protocol version"
  else if e.agent_version = "" || e.node_id = "" || len e.node_id > 128 || e.request_id = "" ||
      len e.request_id > 128 then .error "invalid envelope identity"
  else if !e.node_id.toList.all (fun c =>
      isAsciiGraphic c && !(['/', '\\', '?', '&', '=', '#', '%'].contains c)) then
    .error "invalid node id"
  else if !e.message_type.toList.zipIdx.all (fun (c, index) =>
      (index == 0 && c.isLower) ||
        (decide (index > 0) && (c.isLower || c.isDigit || ['_', '.', '-'].contains c))) then
    .error "invalid message type"
  else
    let payload := trim e.payload_json
    if !startsWith payload "\x7b" || !endsWith payload "\x7d" then
      .error "payload must be a JSON object"
    else .ok ()

/-- `Envelope::new`. -/
def Envelope.new (agent_version node_id request_id message_type payload_json : String) :
    Except String Envelope := do
  let envelope : Envelope :=
    ⟨1, agent_version, node_id, request_id, message_type, payload_json⟩
  envelope.validate
  .ok envelope

/-- The object that the specification makes of an envelope. -/
def Envelope.render (e : Envelope) : String :=
  "\x7b\"protocol_version\":" ++ e.protocol_version.toNat.repr ++ ",\"agent_version\":" ++
    quoted e.agent_version ++ ",\"node_id\":" ++ quoted e.node_id ++ ",\"request_id\":" ++
    quoted e.request_id ++ ",\"type\":" ++ quoted e.message_type ++ ",\"payload\":" ++
    e.payload_json ++ "\x7d"

/-! ## What the control plane needs -/

/-- A node of the store has the identifier and the credential. -/
def HasCredential (store : Store) (node_id presented : String) : Prop :=
  ∃ node ∈ store.nodes, node.id = node_id ∧ node.credential = presented ∧ node.revoked = false

/-- What is relied on the JSON parser for: when it reads an envelope, it reads its identifiers. -/
class ReadsEnvelopes [Serde] : Prop where
  reads : ∀ {e : Envelope} {v : Value}, e.validate = .ok () → JsonObject e.payload_json.toList →
    Serde.fromStr e.render = some v →
    ∃ members, v = .object members ∧ v.get "node_id" = some (.string e.node_id) ∧
      v.get "request_id" = some (.string e.request_id)

/-- The control plane can work with an envelope: it is written as a well formed object, and it is
not refused as unauthenticated when it is read on a session of its node with a valid credential. -/
structure Acceptable [Serde] [Ed25519] (e : Envelope) : Prop where
  payload : JsonObject e.payload_json.toList
  message_type : e.message_type ≠ ""
  node_id : validNodeId e.node_id = true
  request_id : validNodeId e.request_id = true
  rendered : JsonObject e.render.toList
  accepted : ∀ (st : State) (env : Env) (store : Store) (presented : String),
    HasCredential store e.node_id presented → (Serde.fromStr e.render).isSome = true →
    ∀ node_id request_id,
      (websocketMessage st env store e.render e.node_id presented).1 ≠
        websocketError node_id request_id "unauthenticated"

/-- What `validate` leaves to the caller: that there is a type, that the characters of the request
may be in an identifier, and that the payload has members between its braces. -/
structure Specified (e : Envelope) : Prop where
  message_type : e.message_type ≠ ""
  request_id : ∀ c ∈ e.request_id.toList,
    isAsciiGraphic c = true ∧ c ∉ ['/', '\\', '?', '&', '=', '#', '%']
  payload : ∃ before inner after,
    e.payload_json.toList = before ++ '\x7b' :: (inner ++ ['\x7d']) ++ after ∧
      BlankText before ∧ (BlankText inner ∨ MembersText inner) ∧ BlankText after

/-! ## Rendering -/

section Render

variable {e e' : Envelope}

/-- A quoted string is well formed. -/
theorem valueText_quoted (s : String) : ValueText (quoted s).toList :=
  .string (denotesString_quoted s).stringText

/-- A quoted string ends at its own quote, so that what is quoted and what follows are known. -/
theorem quoted_append_inj {s t : String} {rest rest' : List Char}
    (h : (quoted s).toList ++ rest = (quoted t).toList ++ rest') : s = t ∧ rest = rest' := by
  rw [toList_quoted, toList_quoted, List.cons_append, List.cons_append, List.append_assoc,
    List.append_assoc, List.cons.injEq] at h
  have hread := congrArg readString h.2
  rw [List.singleton_append, List.singleton_append, readString_chars (denotesChars_esc s.toList),
    readString_chars (denotesChars_esc t.toList), Option.some.injEq, Prod.mk.injEq] at hread
  exact ⟨String.toList_inj.mp hread.1, hread.2⟩

/-- A member of a rendered envelope. -/
def memberChars (key : String) (text : List Char) : List Char := (quoted key).toList ++ ':' :: text

/-- Six texts between the keys of an envelope are its members. -/
theorem toList_envelope (v a n r t p : String) :
    ("\x7b\"protocol_version\":" ++ v ++ ",\"agent_version\":" ++ a ++ ",\"node_id\":" ++ n ++
      ",\"request_id\":" ++ r ++ ",\"type\":" ++ t ++ ",\"payload\":" ++ p ++ "\x7d").toList =
    '\x7b' :: (memberChars "protocol_version" v.toList ++ ',' ::
      (memberChars "agent_version" a.toList ++ ',' ::
        (memberChars "node_id" n.toList ++ ',' ::
          (memberChars "request_id" r.toList ++ ',' ::
            (memberChars "type" t.toList ++ ',' :: memberChars "payload" p.toList)))) ++
      ['\x7d']) := by
  have hkeys : ∀ key ∈ ["protocol_version", "agent_version", "node_id", "request_id", "type",
      "payload"], (quoted key).toList = '"' :: (key.toList ++ ['"']) := by
    decide +kernel
  simp only [List.forall_mem_cons] at hkeys
  simp [memberChars, hkeys]

/-- The members of a rendered envelope. -/
def Envelope.chars (e : Envelope) : List Char :=
  memberChars "protocol_version" e.protocol_version.toNat.repr.toList ++ ',' ::
    (memberChars "agent_version" (quoted e.agent_version).toList ++ ',' ::
      (memberChars "node_id" (quoted e.node_id).toList ++ ',' ::
        (memberChars "request_id" (quoted e.request_id).toList ++ ',' ::
          (memberChars "type" (quoted e.message_type).toList ++ ',' ::
            memberChars "payload" e.payload_json.toList))))

/-- A rendered envelope is its members between braces. -/
theorem toList_render (e : Envelope) : e.render.toList = '\x7b' :: (e.chars ++ ['\x7d']) :=
  toList_envelope _ _ _ _ _ _

/-- The answer of the control plane is an envelope of the same form. -/
theorem websocketEnvelope_eq_render (node_id request_id message_type payload : String) :
    websocketEnvelope node_id request_id message_type payload =
      Envelope.render ⟨1, version, node_id, request_id, message_type, payload⟩ := by
  have hversion : quoted version = "\"" ++ version ++ "\"" := by decide +kernel
  have hone : (1 : UInt16).toNat.repr = "1" := by decide +kernel
  have hjoin {one a : String} (v n r t p : String) (h : one = "1") (ha : a = "\"" ++ v ++ "\"") :
      "\x7b\"protocol_version\":1,\"agent_version\":\"" ++ v ++ "\",\"node_id\":" ++ n ++
          ",\"request_id\":" ++ r ++ ",\"type\":" ++ t ++ ",\"payload\":" ++ p ++ "\x7d" =
        "\x7b\"protocol_version\":" ++ one ++ ",\"agent_version\":" ++ a ++
          ",\"node_id\":" ++ n ++ ",\"request_id\":" ++ r ++ ",\"type\":" ++ t ++
          ",\"payload\":" ++ p ++ "\x7d" := by
    subst h ha
    rw [← String.toList_inj]
    simp
  exact hjoin version (quoted node_id) (quoted request_id) (quoted message_type) payload hone
    hversion

/-- An envelope with a payload that is an object is written as an object. -/
theorem jsonObject_render (h : JsonObject e.payload_json.toList) : JsonObject e.render.toList := by
  have hpayload : MemberText (memberChars "payload" e.payload_json.toList) := by
    generalize e.payload_json.toList = payload at h
    obtain ⟨hbefore, hobject, hafter⟩ := h
    have hmember := MemberText.mk blankText_nil (denotesString_quoted "payload").stringText
      blankText_nil hbefore (.object hobject) hafter
    rwa [List.nil_append, List.append_nil] at hmember
  have hmember (key : String) {text : List Char} (h : ValueText text) :
      MemberText (memberChars key text) := .plain (denotesString_quoted key).stringText h
  have hmembers : MembersText e.chars :=
    .cons (hmember _ (.number (numberText_repr (.ofNat e.protocol_version.toNat))))
      (.cons (hmember _ (valueText_quoted _)) (.cons (hmember _ (valueText_quoted _))
        (.cons (hmember _ (valueText_quoted _)) (.cons (hmember _ (valueText_quoted _))
          (.last hpayload)))))
  have hobject := JsonObject.mk blankText_nil (.members hmembers) blankText_nil
  rwa [List.nil_append, List.append_nil, ← toList_render] at hobject

/-- What is behind a key is known. -/
theorem memberChars_quoted_inj {key s t : String} {rest rest' : List Char}
    (h : memberChars key (quoted s).toList ++ ',' :: rest =
      memberChars key (quoted t).toList ++ ',' :: rest') : s = t ∧ rest = rest' := by
  unfold memberChars at h
  rw [List.append_assoc, List.append_assoc, List.append_cancel_left_eq, List.cons_append,
    List.cons_append, List.cons.injEq] at h
  obtain ⟨hst, hrest⟩ := quoted_append_inj h.2
  exact ⟨hst, (List.cons.inj hrest).2⟩

/-- Envelopes of one protocol version that are written alike are the same. -/
theorem render_inj (h : e.render = e'.render)
    (hversion : e.protocol_version = e'.protocol_version) : e = e' := by
  have hchars : e.chars = e'.chars := by
    have hlists := congrArg String.toList h
    rw [toList_render, toList_render, List.cons.injEq, List.append_cancel_right_eq] at hlists
    exact hlists.2
  unfold Envelope.chars at hchars
  -- The number ends where it does in the other envelope; a quoted text ends at its own quote.
  rw [hversion, List.append_cancel_left_eq, List.cons.injEq] at hchars
  obtain ⟨hagent, hchars⟩ := memberChars_quoted_inj hchars.2
  obtain ⟨hnode, hchars⟩ := memberChars_quoted_inj hchars
  obtain ⟨hrequest, hchars⟩ := memberChars_quoted_inj hchars
  obtain ⟨htype, hchars⟩ := memberChars_quoted_inj hchars
  unfold memberChars at hchars
  rw [List.append_cancel_left_eq, List.cons.injEq, String.toList_inj] at hchars
  cases e
  cases e'
  simp_all

end Render

/-! ## Acceptance -/

section Acceptance

variable {e : Envelope}

/-- What `validate` checks of the identifiers. -/
structure Checked (e : Envelope) : Prop where
  protocol_version : e.protocol_version = 1
  node_id : validNodeId e.node_id = true
  request_id : e.request_id ≠ "" ∧ len e.request_id ≤ 128

/-- A validated envelope is checked. -/
theorem checked_of_validate (h : e.validate = .ok ()) : Checked e := by
  unfold Envelope.validate at h
  split_ifs at h with hversion hidentity hnode
  simp only [Bool.or_eq_true, decide_eq_true_eq, not_or, not_lt] at hidentity
  obtain ⟨⟨⟨⟨-, hempty⟩, hlength⟩, hrequest⟩, hrequest_length⟩ := hidentity
  refine ⟨not_not.mp hversion, ?_, hrequest, hrequest_length⟩
  rw [Bool.not_eq_true', Bool.not_eq_false] at hnode
  rw [validNodeId, hnode, Bool.and_true, Bool.and_eq_true, decide_eq_true_eq, decide_eq_true_eq]
  exact ⟨hempty, hlength⟩

/-- The identifier of a request is valid where its characters are. -/
theorem Checked.validNodeId_request_id (h : Checked e) : validNodeId e.request_id = true ↔
    ∀ c ∈ e.request_id.toList,
      isAsciiGraphic c = true ∧ c ∉ ['/', '\\', '?', '&', '=', '#', '%'] := by
  simp [validNodeId, h.request_id.1, h.request_id.2]

/-- Answers of the control plane for one node that are written alike are of one type and payload. -/
theorem websocketEnvelope_inj {n n' r r' t t' p p' : String}
    (h : websocketEnvelope n r t p = websocketEnvelope n' r' t' p') : t = t' ∧ p = p' := by
  have hrender := calc
    Envelope.render ⟨1, version, n, r, t, p⟩ = websocketEnvelope n r t p :=
      (websocketEnvelope_eq_render n r t p).symm
    _ = websocketEnvelope n' r' t' p' := h
    _ = Envelope.render ⟨1, version, n', r', t', p'⟩ := websocketEnvelope_eq_render n' r' t' p'
  have hsame := render_inj hrender rfl
  rw [Envelope.mk.injEq] at hsame
  exact ⟨hsame.2.2.2.2.1, hsame.2.2.2.2.2⟩

variable [Serde]

/-- A message that names the node of its session and a valid request, with a valid credential, is
not refused as unauthenticated. -/
theorem messageCall_authenticated (st : State) (env : Env) {store : Store}
    {message node_id request_id presented : String} (hvalid : validNodeId request_id = true)
    (hcredential : HasCredential store node_id presented)
    (hnode_field : jsonField message "node_id" = some node_id)
    (hrequest_field : jsonField message "request_id" = some request_id) (n r : String) :
    messageCall st env store message node_id presented ≠
      .error (websocketError n r "unauthenticated") := by
  have hauthorized : credentialAuthorized store message message presented = true := by
    obtain ⟨node, hmem, hid, hpresented, hlive⟩ := hcredential
    have hnamed : namedNode message message = some node_id := by
      rw [namedNode, hnode_field]
      rfl
    rw [credentialAuthorized, hnamed]
    refine List.any_eq_true.mpr ⟨node, hmem, ?_⟩
    simp [hid, hlive, constantTimeEq_iff.mpr hpresented]
  -- What is left to refuse is a message without a task and one of another type.
  have hother (m q : String) {code : String} (hcode : code ≠ "unauthenticated") :
      websocketError m q code ≠ websocketError n r "unauthenticated" := by
    intro hsame
    have hpayload := (websocketEnvelope_inj hsame).2
    rw [String.append_left_inj, String.append_right_inj] at hpayload
    exact hcode hpayload
  unfold messageCall
  rw [hnode_field, hrequest_field]
  simp only [Option.getD_some, hvalid, hauthorized, ne_eq, not_true_eq_false, decide_false,
    Bool.not_true, Bool.or_self, Bool.false_eq_true, if_false]
  split_ifs
  · nofun
  · nofun
  · cases jsonField message "task_id" with
    | none => exact fun h => hother _ _ (by decide) (Except.error.inj h)
    | some task_id => nofun
  · exact fun h => hother _ _ (by decide) (Except.error.inj h)

/-- A message that is handled is not answered with an error. -/
theorem messageCall_response_type {st : State} {env : Env} {store : Store}
    {message node_id presented : String} {call : MessageCall}
    (h : messageCall st env store message node_id presented = .ok call) :
    call.response_type ≠ "error" := by
  unfold messageCall at h
  dsimp only at h
  split_ifs at h
  · cases h
    exact (by decide : "heartbeat.ack" ≠ "error")
  · cases h
    exact (by decide : "tasks.available" ≠ "error")
  · cases htask : jsonField message "task_id" with
    | none =>
      rw [htask] at h
      cases h
    | some task_id =>
      rw [htask] at h
      cases h
      exact (by decide : "task.result.ack" ≠ "error")

/-- The identifiers of an envelope that is read. -/
theorem jsonField_render [ReadsEnvelopes] (hvalid : e.validate = .ok ())
    (hpayload : JsonObject e.payload_json.toList) (hread : (Serde.fromStr e.render).isSome = true) :
    jsonField e.render "node_id" = some e.node_id ∧
      jsonField e.render "request_id" = some e.request_id := by
  obtain ⟨v, hv⟩ := Option.isSome_iff_exists.mp hread
  obtain ⟨members, rfl, hnode, hrequest⟩ := ReadsEnvelopes.reads hvalid hpayload hv
  have hparsed : parseJsonObject e.render = some (.object members) := by
    rw [parseJsonObject, hv]
  constructor
  · rw [jsonField, hparsed, Option.bind_some, hnode]
    rfl
  · rw [jsonField, hparsed, Option.bind_some, hrequest]
    rfl

variable [Ed25519]

/-- An envelope with a valid request that is read is not refused as unauthenticated. -/
theorem not_unauthenticated [ReadsEnvelopes] (hvalid : e.validate = .ok ())
    (hpayload : JsonObject e.payload_json.toList) (hrequest : validNodeId e.request_id = true)
    (st : State) (env : Env) {store : Store} {presented : String}
    (hcredential : HasCredential store e.node_id presented)
    (hread : (Serde.fromStr e.render).isSome = true) (n r : String) :
    (websocketMessage st env store e.render e.node_id presented).1 ≠
      websocketError n r "unauthenticated" := by
  obtain ⟨hnode_field, hrequest_field⟩ := jsonField_render hvalid hpayload hread
  have hcall := messageCall_authenticated st env hrequest hcredential hnode_field hrequest_field n r
  unfold websocketMessage
  cases hmessage : messageCall st env store e.render e.node_id presented with
  | error envelope =>
    -- An error that stands before any request is the answer.
    rw [hmessage] at hcall
    exact fun h => hcall (congrArg Except.error h)
  | ok call =>
    -- The answer to a request is of the call's own type, which is no error.
    exact fun h => messageCall_response_type hmessage (websocketEnvelope_inj h).1

/-- **A validated envelope is acceptable to the control plane exactly when it is specified.** -/
theorem acceptable_iff [ReadsEnvelopes] (hvalid : e.validate = .ok ()) :
    Acceptable e ↔ Specified e := by
  have hchecked := checked_of_validate hvalid
  constructor
  · intro h
    exact ⟨h.message_type, hchecked.validNodeId_request_id.mp h.request_id,
      jsonObject_iff.mp h.payload⟩
  · intro h
    have hpayload := jsonObject_iff.mpr h.payload
    have hrequest := hchecked.validNodeId_request_id.mpr h.request_id
    exact ⟨hpayload, h.message_type, hchecked.node_id, hrequest, jsonObject_render hpayload,
      fun st env store presented hcredential hread n r =>
        not_unauthenticated hvalid hpayload hrequest st env hcredential hread n r⟩

end Acceptance

/-! ## Envelopes that are read, and envelopes that are not -/

section Example

/-- The value of an envelope with an empty payload. -/
def Envelope.value (e : Envelope) : Value := .object
  [("protocol_version", .number (.posInt e.protocol_version.toNat)),
    ("agent_version", .string e.agent_version), ("node_id", .string e.node_id),
    ("request_id", .string e.request_id), ("type", .string e.message_type),
    ("payload", .object [])]

/-- A parser that knows some envelopes with empty payloads. -/
@[reducible] def envelopeParser (known : List Envelope) : Serde :=
  tableParser (known.map fun e => (e.render, e.value))

/-- It reads their identifiers. -/
theorem readsEnvelopes_envelopeParser {known : List Envelope}
    (hknown : ∀ e ∈ known, e.protocol_version = 1) :
    @ReadsEnvelopes (envelopeParser known) :=
  @ReadsEnvelopes.mk (envelopeParser known) fun {e v} hvalid _ hread => by
    obtain ⟨entry, hfound, rfl⟩ := Option.map_eq_some_iff.mp hread
    -- The known envelope that is written alike is the same, and its value has its identifiers.
    obtain ⟨e', he', rfl⟩ := List.mem_map.mp (List.mem_of_find?_eq_some hfound)
    have hfirst := List.find?_some hfound
    have htext : e'.render = e.render := eq_of_beq hfirst
    have hversion := (hknown e' he').trans (checked_of_validate hvalid).protocol_version.symm
    obtain rfl := render_inj htext hversion
    exact ⟨_, rfl, rfl, rfl⟩

/-- An envelope that is specified. -/
def heartbeatEnvelope : Envelope := ⟨1, "0.1.3", "n1", "req-1", "heartbeat", "\x7b\x7d"⟩

/-- The same with a request that has a space. -/
def spacedEnvelope : Envelope := { heartbeatEnvelope with request_id := "req 1" }

/-- The same without a type, and with a payload that has no member between its braces. -/
def looseEnvelope : Envelope :=
  { spacedEnvelope with message_type := "", payload_json := "\x7bx\x7d" }

/-- The parser knows the first two. -/
@[reducible] def knownEnvelopes : Serde := envelopeParser [heartbeatEnvelope, spacedEnvelope]

/-- It reads their identifiers. -/
theorem reads_knownEnvelopes : @ReadsEnvelopes knownEnvelopes :=
  readsEnvelopes_envelopeParser (by decide)

attribute [local instance] knownEnvelopes reads_knownEnvelopes noKeys

/-- The store of a node. -/
def nodeStore : Store := { Store.empty with nodes := [exampleNode "n1" "c"] }

/-- The SDK makes an envelope that has no type, whose request is no identifier and whose payload is
not well formed, and one that is refused for its request. -/
theorem validated_unacceptable :
    Envelope.new "0.1.3" "n1" "req 1" "" "\x7bx\x7d" = .ok looseEnvelope ∧
    looseEnvelope.message_type = "" ∧ validNodeId looseEnvelope.request_id = false ∧
    ¬JsonObject looseEnvelope.payload_json.toList ∧ ¬Acceptable looseEnvelope ∧
    Envelope.new "0.1.3" "n1" "req 1" "heartbeat" "\x7b\x7d" = .ok spacedEnvelope ∧
    HasCredential nodeStore spacedEnvelope.node_id "c" ∧
    (websocketMessage exampleState (exampleEnv 0) nodeStore spacedEnvelope.render "n1" "c").1 =
      websocketError "n1" "req 1" "unauthenticated" := by
  refine ⟨rfl, rfl, by decide, fun h => ?_, fun h => h.message_type rfl, rfl,
    ⟨_, List.mem_singleton_self _, rfl, rfl, rfl⟩, by decide +kernel⟩
  exact absurd (h.mem_of_no_quote (by decide) 'x' (by decide)) (by decide)

/-- An envelope that is specified is acceptable. -/
theorem heartbeat_acceptable : heartbeatEnvelope.validate = .ok () ∧
    Acceptable heartbeatEnvelope := by
  have hvalid : heartbeatEnvelope.validate = .ok () := rfl
  have hrequest := (checked_of_validate hvalid).validNodeId_request_id.mp (by decide)
  have hpayload : ∃ before inner after : List Char,
      heartbeatEnvelope.payload_json.toList = before ++ '\x7b' :: (inner ++ ['\x7d']) ++ after ∧
        BlankText before ∧ (BlankText inner ∨ MembersText inner) ∧ BlankText after :=
    ⟨[], [], [], rfl, blankText_nil, .inl blankText_nil, blankText_nil⟩
  exact ⟨hvalid, (acceptable_iff hvalid).mpr ⟨by decide, hrequest, hpayload⟩⟩

end Example

end NodeWe.Sdk
