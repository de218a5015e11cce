import Mathlib.Algebra.Order.Field.Rat
import Mathlib.Tactic.Linarith
import NodeWe.ControlPlane.Encodings
import NodeWe.ControlPlane.LeastPrivilege

/-!
# Operators' tokens

What `validate_oidc_token` has checked of a token that it accepts. Its accessors read a member of
another type as an absent one. That refuses the token for every claim but `nbf`, which may be
absent (`fail_closed_iff`). The text of a token is not bound by its signature either: the last
letter of the signature has bits that the decoder drops (`base64url_malleable`).
-/

namespace NodeWe.ControlPlane

open Text Bits Base64

/-! ## Members by type -/

section Members

variable [Serde] {body key s : String}

/-- A member of a body that is an object. -/
def jsonMember (body key : String) : Option Value :=
  (parseJsonObject body).bind fun object => object.get key

/-- `json_field` returns strings. -/
theorem jsonField_eq_some : jsonField body key = some s ↔ jsonMember body key = some (.string s) := by
  have hread : jsonField body key = (jsonMember body key).bind Value.asStr :=
    (Option.bind_assoc _ _ _).symm
  rw [hread]
  constructor
  · intro h
    obtain ⟨value, hmember, hvalue⟩ := Option.bind_eq_some_iff.mp h
    cases value with
    | string t => rw [hmember, Option.some.inj hvalue]
    | _ => cases hvalue
  · intro h
    rw [h]
    rfl

/-- `json_number` returns unsigned integers. -/
theorem jsonNumber_eq_some {n : ℕ} :
    jsonNumber body key = some n ↔ jsonMember body key = some (.number (.posInt n)) := by
  have hread : jsonNumber body key = (jsonMember body key).bind Value.asU64 :=
    (Option.bind_assoc _ _ _).symm
  rw [hread]
  constructor
  · intro h
    obtain ⟨value, hmember, hvalue⟩ := Option.bind_eq_some_iff.mp h
    unfold Value.asU64 at hvalue
    split at hvalue
    · rw [hmember, Option.some.inj hvalue]
    · cases hvalue
  · intro h
    rw [h]
    rfl

/-- `json_string_array` returns the strings of an array. -/
theorem mem_jsonStringArray : s ∈ jsonStringArray body key ↔
    ∃ items, jsonMember body key = some (.array items) ∧ .string s ∈ items := by
  have hread : jsonStringArray body key =
      (((jsonMember body key).bind Value.asArray).getD []).filterMap Value.asStr := by
    rw [jsonStringArray, jsonMember, Option.bind_assoc]
  have hstring (value : Value) : value.asStr = some s ↔ value = .string s := by
    cases value <;> simp [Value.asStr]
  rw [hread, List.mem_filterMap]
  constructor
  · rintro ⟨value, hvalue, hasStr⟩
    obtain rfl := (hstring value).mp hasStr
    cases harray : (jsonMember body key).bind Value.asArray with
    | none =>
      rw [harray] at hvalue
      cases hvalue
    | some items =>
      obtain ⟨member, hmember, hitems⟩ := Option.bind_eq_some_iff.mp harray
      rw [harray] at hvalue
      cases member with
      | array items' =>
        obtain rfl := Option.some.inj hitems
        exact ⟨items', hmember, hvalue⟩
      | _ => cases hitems
  · rintro ⟨items, hmember, hs⟩
    refine ⟨.string s, ?_, rfl⟩
    rw [hmember]
    exact hs

end Members

/-! ## Acceptance -/

section Acceptance

variable [Serde] {env : Env} {token : String} {config : OidcConfig} {claims : OidcClaims}

/-- A token has exactly three parts, of which the third is the keyed hash of the other two. -/
structure Signed (config : OidcConfig) (token : String)
    (header_part payload_part signature_part : List Char) : Prop where
  parts : token.toList.splitOn '.' = [header_part, payload_part, signature_part]
  signature : base64urlDecode (String.ofList signature_part) =
    some (hmacSha256 config.hmac_secret (bytes (String.ofList (header_part ++ '.' :: payload_part))))

omit [Serde] in
/-- The check of the signature. -/
theorem signatureValid_iff {header_part payload_part signature_part : List Char} :
    signatureValid config header_part payload_part signature_part = true ↔
      base64urlDecode (String.ofList signature_part) = some (hmacSha256 config.hmac_secret
        (bytes (String.ofList (header_part ++ '.' :: payload_part)))) := by
  have hlength : (hmacSha256 config.hmac_secret
      (bytes (String.ofList (header_part ++ '.' :: payload_part)))).length = 32 := length_sha256 _
  unfold signatureValid
  cases hdecode : base64urlDecode (String.ofList signature_part) with
  | none => simp
  | some signature =>
    simp only [Bool.and_eq_true, beq_iff_eq, constantTimeEqBytes_iff, Option.some.injEq]
    constructor
    · exact fun h => h.2
    · rintro rfl
      exact ⟨hlength, rfl⟩

/-- What `validate_oidc_token` asks of a token, part by part. -/
theorem validateOidcToken_eq_some : validateOidcToken env token config = some claims ↔
    ∃ header_part payload_part signature_part header payload,
      Signed config token header_part payload_part signature_part ∧
        decodePart header_part = some header ∧ decodePart payload_part = some payload ∧
        jsonField header "alg" = some "HS256" ∧ jsonField header "typ" = some "JWT" ∧
        payloadClaims env config payload = some claims := by
  unfold validateOidcToken
  constructor
  · intro h
    split at h
    · next header_part payload_part signature_part hparts =>
      split at h
      · cases h
      · next header hheader =>
        split_ifs at h with halg htyp hsignature
        · obtain ⟨payload, hpayload, hclaims⟩ := Option.bind_eq_some_iff.mp h
          rw [Bool.not_eq_true', Bool.not_eq_false, signatureValid_iff] at hsignature
          rw [not_not] at halg htyp
          exact ⟨_, _, _, header, payload, ⟨hparts, hsignature⟩, hheader, hpayload, halg, htyp,
            hclaims⟩
    · cases h
  · rintro ⟨header_part, payload_part, signature_part, header, payload, hsigned, hheader, hpayload,
      halg, htyp, hclaims⟩
    rw [hsigned.parts]
    dsimp only
    rw [hheader]
    dsimp only
    rw [if_neg (not_not.mpr halg), if_neg (not_not.mpr htyp), signatureValid_iff.mpr hsigned.signature,
      Bool.not_true, if_neg Bool.false_ne_true, hpayload, Option.bind_some, hclaims]

/-- What it asks of a payload. -/
structure PayloadChecked (env : Env) (config : OidcConfig) (payload : String)
    (claims : OidcClaims) : Prop where
  iss : jsonField payload "iss" = some config.issuer
  aud : jwtAudienceMatches payload config.audience = true
  exp : ∃ expires_at, jsonNumber payload "exp" = some expires_at ∧
    env.now .oidc / 1000 < expires_at
  nbf : ∀ n, jsonNumber payload "nbf" = some n → n ≤ saturatingAdd (env.now .oidc / 1000) 30
  sub : jsonField payload "sub" = some claims.subject
  actor : validActorId claims.subject = true
  groups : claims.groups = jsonStringArray payload config.group_claim

/-- It accepts the payload that passes. -/
theorem payloadClaims_eq_some {payload : String} :
    payloadClaims env config payload = some claims ↔ PayloadChecked env config payload claims := by
  unfold payloadClaims
  dsimp only
  constructor
  · -- The checks in their order; where one fails there are no claims.
    intro h
    split at h
    · cases h
    next hfirst =>
    rw [Bool.or_eq_true, not_or, decide_eq_true_eq, not_not, Bool.not_eq_true', Bool.not_eq_false]
      at hfirst
    split at h
    · cases h
    next expires_at hexp =>
    split at h
    · cases h
    next hexpired =>
    split at h
    · cases h
    next hbefore =>
    split at h
    · cases h
    next subject hsub =>
    split at h
    · cases h
    next hactor =>
    rw [Bool.not_eq_true', Bool.not_eq_false] at hactor
    obtain rfl := Option.some.inj h
    refine ⟨hfirst.1, hfirst.2, ⟨expires_at, hexp, by omega⟩, fun n hn => ?_, hsub, hactor, rfl⟩
    rw [hn, Option.any_some, decide_eq_true_eq] at hbefore
    omega
  · intro h
    obtain ⟨expires_at, hexp, hlater⟩ := h.exp
    have hbefore : (jsonNumber payload "nbf").any
        (· > saturatingAdd (env.now .oidc / 1000) 30) = false := by
      cases hnbf : jsonNumber payload "nbf" with
      | none => rfl
      | some n =>
        rw [Option.any_some, decide_eq_false_iff_not]
        have hn := h.nbf n hnbf
        omega
    rw [if_neg (by simp [h.iss, h.aud]), hexp]
    dsimp only
    rw [if_neg (by omega), hbefore, if_neg Bool.false_ne_true, h.sub]
    dsimp only
    rw [h.actor, Bool.not_true, if_neg Bool.false_ne_true, ← h.groups]

end Acceptance

/-! ## Tokens in text -/

section Tokens

/-- The token of a header and a payload. -/
def signedToken (config : OidcConfig) (header payload : String) : String :=
  let signing_input := base64urlEncode (bytes header) ++ "." ++ base64urlEncode (bytes payload)
  signing_input ++ "." ++ base64urlEncode (hmacSha256 config.hmac_secret (bytes signing_input))

/-- An encoded part has no dots. -/
theorem dot_not_mem_base64urlEncode (bs : List UInt8) : '.' ∉ (base64urlEncode bs).toList := by
  rw [base64urlEncode_eq, base64urlText, String.toList_ofList]
  exact not_mem_letters (fun d => lt_of_mem_sextets) (by simp)

/-- An encoded part is decoded. -/
theorem decodePart_encode {text : String} (h : text ≠ "") :
    decodePart (base64urlEncode (bytes text)).toList = some text := by
  have hbytes : bytes text ≠ [] := by
    rw [Ne, ← bytes_inj (s := text) (t := "")] at h
    exact h
  rw [decodePart, String.ofList_toList, base64urlDecode_encode hbytes, Option.bind_some]
  exact fromUTF8_bytes text

/-- The token is signed. -/
theorem signed_signedToken (config : OidcConfig) (header payload : String) :
    Signed config (signedToken config header payload) (base64urlEncode (bytes header)).toList
      (base64urlEncode (bytes payload)).toList
      (base64urlEncode (hmacSha256 config.hmac_secret (bytes (base64urlEncode (bytes header) ++
        "." ++ base64urlEncode (bytes payload))))).toList := by
  have hdot : ".".toList = ['.'] := rfl
  have hinput : String.ofList ((base64urlEncode (bytes header)).toList ++
      '.' :: (base64urlEncode (bytes payload)).toList) =
        base64urlEncode (bytes header) ++ "." ++ base64urlEncode (bytes payload) := by
    rw [← String.toList_inj, String.toList_ofList, String.toList_append, String.toList_append, hdot,
      List.append_assoc, List.singleton_append]
  have hhash (bs : List UInt8) : hmacSha256 config.hmac_secret bs ≠ [] := by
    have hlength : (hmacSha256 config.hmac_secret bs).length = 32 := length_sha256 _
    exact List.ne_nil_of_length_pos (by omega)
  constructor
  · rw [signedToken, String.toList_append, String.toList_append, String.toList_append, String.toList_append, hdot,
      List.append_assoc, List.append_assoc, List.append_assoc, List.singleton_append,
      List.singleton_append,
      List.splitOn_append_cons_self_of_not_mem (dot_not_mem_base64urlEncode _),
      List.splitOn_append_cons_self_of_not_mem (dot_not_mem_base64urlEncode _),
      List.splitOn_eq_singleton (dot_not_mem_base64urlEncode _)]
  · rw [hinput, String.ofList_toList, base64urlDecode_encode (hhash _)]

/-- The payload of a token of three parts. -/
def tokenPayload (token : String) : Option String :=
  match token.toList.splitOn '.' with
  | [_, payload_part, _] => decodePart payload_part
  | _ => none

/-- The payload of the token is the payload. -/
theorem tokenPayload_signedToken (config : OidcConfig) (header : String) {payload : String}
    (h : payload ≠ "") : tokenPayload (signedToken config header payload) = some payload := by
  rw [tokenPayload, (signed_signedToken config header payload).parts]
  exact decodePart_encode h

/-- The token is accepted with the claims of its payload. -/
theorem validateOidcToken_signedToken [Serde] {env : Env} {config : OidcConfig}
    {header payload : String} {claims : OidcClaims} (hheader : header ≠ "") (hpayload : payload ≠ "")
    (halg : jsonField header "alg" = some "HS256") (htyp : jsonField header "typ" = some "JWT")
    (hclaims : payloadClaims env config payload = some claims) :
    validateOidcToken env (signedToken config header payload) config = some claims :=
  validateOidcToken_eq_some.mpr ⟨_, _, _, header, payload, signed_signedToken config header payload,
    decodePart_encode hheader, decodePart_encode hpayload, halg, htyp, hclaims⟩

end Tokens

/-! ## Fail-closed claims -/

section FailClosed

variable [Serde] (asF64 : String → ℚ) {env : Env} {token : String} {config : OidcConfig}
  {claims : OidcClaims}

/-- The value of a number, on a reading of floating-point literals (`Number::as_f64`). -/
def numberValue : Number → ℚ
  | .posInt n => n
  | .negInt n => -n
  | .float literal => asF64 literal

/-- What an accepted token must have, member by member. A member that is absent or of another type
fails, but for `nbf`, which may be absent. The times are seconds, and the clock counts
milliseconds. -/
structure FailClosed (now : ℕ) (config : OidcConfig) (token : String) (claims : OidcClaims)
    (header payload : String) : Prop where
  signed : ∃ header_part payload_part signature_part,
    Signed config token header_part payload_part signature_part ∧
      decodePart header_part = some header ∧ decodePart payload_part = some payload
  alg : jsonMember header "alg" = some (.string "HS256")
  iss : jsonMember payload "iss" = some (.string config.issuer)
  aud : jsonMember payload "aud" = some (.string config.audience) ∨
    ∃ items, jsonMember payload "aud" = some (.array items) ∧ .string config.audience ∈ items
  sub : jsonMember payload "sub" = some (.string claims.subject)
  actor : validActorId claims.subject = true
  exp : ∃ expires_at, jsonMember payload "exp" = some (.number (.posInt expires_at)) ∧
    now < expires_at * 1000
  nbf : ∀ value, jsonMember payload "nbf" = some value →
    ∃ n, value = .number n ∧ numberValue asF64 n * 1000 ≤ now + 30000

/-- Its payload is the one of the token. -/
theorem FailClosed.tokenPayload {now : ℕ} {header payload : String}
    (h : FailClosed asF64 now config token claims header payload) :
    tokenPayload token = some payload := by
  obtain ⟨header_part, payload_part, signature_part, hsigned, -, hpayload⟩ := h.signed
  rw [NodeWe.ControlPlane.tokenPayload, hsigned.parts]
  exact hpayload

/-- A member `nbf` that is not passed over: an unsigned integer, which is checked, or a number that
is not but passes all the same. -/
def NotBeforeRead (now : ℕ) : Option Value → Prop
  | none => True
  | some (.number (.posInt _)) => True
  | some (.number (.negInt _)) => True
  | some (.number (.float literal)) => asF64 literal * 1000 ≤ now + 30000
  | some _ => False

omit [Serde] in
/-- That is what makes a member that was checked as the code does a number that is not too late. -/
theorem notBeforeRead_iff {now : ℕ} {nbf : Option Value}
    (hchecked : ∀ n, nbf = some (.number (.posInt n)) → n ≤ saturatingAdd (now / 1000) 30) :
    (∀ value, nbf = some value →
        ∃ n, value = .number n ∧ numberValue asF64 n * 1000 ≤ now + 30000) ↔
      NotBeforeRead asF64 now nbf := by
  have hnow : (0 : ℚ) ≤ now := Nat.cast_nonneg now
  have hvalue {value : Value} : (∀ value', some value = some value' →
      ∃ n, value' = .number n ∧ numberValue asF64 n * 1000 ≤ now + 30000) ↔
        ∃ n, value = .number n ∧ numberValue asF64 n * 1000 ≤ now + 30000 :=
    ⟨fun h => h value rfl, fun h _ heq => Option.some.inj heq ▸ h⟩
  cases nbf with
  | none => simp [NotBeforeRead]
  | some value =>
    rw [hvalue]
    cases value with
    | number n =>
      cases n with
      | posInt n =>
        have hn := hchecked n rfl
        have hseconds : n * 1000 ≤ now + 30000 := by
          unfold saturatingAdd at hn
          omega
        refine iff_of_true ⟨_, rfl, ?_⟩ trivial
        show (n : ℚ) * 1000 ≤ now + 30000
        exact_mod_cast hseconds
      | negInt n =>
        have hn : (0 : ℚ) ≤ n := Nat.cast_nonneg n
        refine iff_of_true ⟨_, rfl, ?_⟩ trivial
        show -(n : ℚ) * 1000 ≤ now + 30000
        linarith
      | float literal =>
        constructor
        · rintro ⟨n, hn, hle⟩
          rwa [← Value.number.inj hn] at hle
        · exact fun hle => ⟨_, rfl, hle⟩
    | _ =>
      refine iff_of_false ?_ (fun h => h)
      rintro ⟨n, hn, -⟩
      cases hn

/-- A token that is accepted has all that it must have, exactly where its `nbf` is not passed
over. -/
theorem fail_closed_iff (h : validateOidcToken env token config = some claims) :
    (∃ header payload, FailClosed asF64 (env.now .oidc) config token claims header payload) ↔
      NotBeforeRead asF64 (env.now .oidc)
        ((tokenPayload token).bind fun payload => jsonMember payload "nbf") := by
  obtain ⟨header_part, payload_part, signature_part, header, payload, hsigned, hheader, hpayload,
    halg, -, hclaims⟩ := validateOidcToken_eq_some.mp h
  have hchecked := payloadClaims_eq_some.mp hclaims
  have htoken : tokenPayload token = some payload := by
    rw [tokenPayload, hsigned.parts]
    exact hpayload
  have hbound : ∀ n, jsonMember payload "nbf" = some (.number (.posInt n)) →
      n ≤ saturatingAdd (env.now .oidc / 1000) 30 :=
    fun n hn => hchecked.nbf n (jsonNumber_eq_some.mpr hn)
  have hnbf := notBeforeRead_iff asF64 hbound
  rw [htoken, Option.bind_some, ← hnbf]
  constructor
  · rintro ⟨header', payload', hclosed⟩
    obtain rfl := Option.some.inj (hclosed.tokenPayload.symm.trans htoken)
    exact hclosed.nbf
  · intro hread
    refine ⟨header, payload, ⟨_, _, _, hsigned, hheader, hpayload⟩, jsonField_eq_some.mp halg,
      jsonField_eq_some.mp hchecked.iss, ?_, jsonField_eq_some.mp hchecked.sub, hchecked.actor, ?_,
      hread⟩
    · have haud := hchecked.aud
      rw [jwtAudienceMatches, Bool.or_eq_true, beq_iff_eq, List.contains_iff_mem] at haud
      exact haud.imp jsonField_eq_some.mp mem_jsonStringArray.mp
    · obtain ⟨expires_at, hexp, hlater⟩ := hchecked.exp
      exact ⟨expires_at, jsonNumber_eq_some.mp hexp, by omega⟩

end FailClosed

section Example

/-- A payload whose `nbf` is a string. -/
def undatedPayload : String :=
  "\x7b\"iss\":\"https://idp\",\"aud\":\"nodewe\",\"exp\":9,\"nbf\":\"x\",\"sub\":\"alice\"\x7d"

/-- A parser that reads it, and the payload without the member. -/
@[reducible] def undatedParser : Serde := tableParser
  [(aliceHeader, .object [("alg", .string "HS256"), ("typ", .string "JWT")]),
   (alicePayload, .object [("iss", .string "https://idp"), ("aud", .string "nodewe"),
      ("exp", .number (.posInt 9)), ("sub", .string "alice")]),
   (undatedPayload, .object [("iss", .string "https://idp"), ("aud", .string "nodewe"),
      ("exp", .number (.posInt 9)), ("nbf", .string "x"), ("sub", .string "alice")])]

/-- The provider of the tokens. -/
def aliceProvider : OidcConfig :=
  ⟨"https://idp", "nodewe", bytes "0123456789abcdef0123456789abcdef", "nodewe-admin", "groups"⟩

attribute [local instance] undatedParser

/-- Both payloads are accepted. -/
theorem undated_evaluated :
    (jsonField aliceHeader "alg" = some "HS256" ∧ jsonField aliceHeader "typ" = some "JWT") ∧
      payloadClaims (exampleEnv 1000) aliceProvider alicePayload = some ⟨"alice", []⟩ ∧
      payloadClaims (exampleEnv 1000) aliceProvider undatedPayload = some ⟨"alice", []⟩ ∧
      (jsonMember alicePayload "nbf").isNone = true ∧
      (jsonMember undatedPayload "nbf").any Value.isString = true := by
  decide +kernel

/-- The token without the member has all that it must have. -/
theorem fail_closed_alice : ∃ header payload,
    FailClosed (fun _ => 0) ((exampleEnv 1000).now .oidc) aliceProvider
      (signedToken aliceProvider aliceHeader alicePayload) ⟨"alice", []⟩ header payload := by
  obtain ⟨⟨halg, htyp⟩, hclaims, -, hnone, -⟩ := undated_evaluated
  have hvalid := validateOidcToken_signedToken (by decide) (by decide) halg htyp hclaims
  refine (fail_closed_iff (fun _ => 0) hvalid).mpr ?_
  rw [tokenPayload_signedToken aliceProvider aliceHeader (by decide), Option.bind_some,
    Option.isNone_iff_eq_none.mp hnone]
  trivial

/-- The token with a string in its place is accepted, and has not. -/
theorem wrong_type_passed_over :
    validateOidcToken (exampleEnv 1000) (signedToken aliceProvider aliceHeader undatedPayload)
        aliceProvider = some ⟨"alice", []⟩ ∧
      ∀ asF64 : String → ℚ, ¬∃ header payload,
        FailClosed asF64 ((exampleEnv 1000).now .oidc) aliceProvider
          (signedToken aliceProvider aliceHeader undatedPayload) ⟨"alice", []⟩ header payload := by
  obtain ⟨⟨halg, htyp⟩, -, hclaims, -, hstring⟩ := undated_evaluated
  refine ⟨validateOidcToken_signedToken (by decide) (by decide) halg htyp hclaims, ?_⟩
  rintro asF64 ⟨header, payload, hclosed⟩
  have hpayload : tokenPayload (signedToken aliceProvider aliceHeader undatedPayload) =
      some undatedPayload := tokenPayload_signedToken _ _ (by decide)
  obtain rfl := Option.some.inj (hclosed.tokenPayload.symm.trans hpayload)
  obtain ⟨value, hmember, hvalue⟩ := (Option.any_eq_true _ _).mp hstring
  obtain ⟨n, rfl, -⟩ := hclosed.nbf value hmember
  cases hvalue

end Example

/-! ## Altered texts -/

section Altered

/-- The last part of a split text can be replaced. -/
theorem splitOn_replace_last {s header_part payload_part last last' : List Char}
    (h : s.splitOn '.' = [header_part, payload_part, last]) (hlast : '.' ∉ last') :
    (header_part ++ '.' :: payload_part ++ '.' :: last').splitOn '.' =
      [header_part, payload_part, last'] := by
  have hs : s = header_part ++ '.' :: payload_part ++ '.' :: last := by
    have hjoin : ['.'].intercalate (s.splitOn '.') = s := List.intercalate_splitOn '.'
    rw [h] at hjoin
    rw [← hjoin]
    simp [List.intercalate]
  rw [hs, List.splitOn_append_cons_self, List.splitOn_append_cons_self] at h
  rw [List.splitOn_append_cons_self, List.splitOn_append_cons_self, List.splitOn_eq_singleton hlast]
  -- Each of the three pieces is one part, as each has one at least.
  obtain ⟨x, xs, hx⟩ := List.exists_cons_of_ne_nil (List.splitOn_ne_nil '.' header_part)
  obtain ⟨y, ys, hy⟩ := List.exists_cons_of_ne_nil (List.splitOn_ne_nil '.' payload_part)
  obtain ⟨z, zs, hz⟩ := List.exists_cons_of_ne_nil (List.splitOn_ne_nil '.' last)
  rw [hx, hy, hz] at h
  rw [hx, hy]
  have hlength := congrArg List.length h
  simp only [List.length_append, List.length_cons, List.length_nil] at hlength
  have hxs : xs = [] := List.eq_nil_of_length_eq_zero (by omega)
  have hys : ys = [] := List.eq_nil_of_length_eq_zero (by omega)
  subst hxs hys
  simp only [List.cons_append, List.nil_append, List.cons.injEq] at h ⊢
  exact ⟨h.1, h.2.1, trivial⟩

/-- The signature of a token that is accepted has another text. -/
theorem exists_altered [Serde] {env : Env} {token : String} {config : OidcConfig}
    {claims : OidcClaims} (h : validateOidcToken env token config = some claims) :
    ∃ altered, altered ≠ token ∧ validateOidcToken env altered config = some claims := by
  obtain ⟨header_part, payload_part, signature_part, header, payload, hsigned, hheader, hpayload,
    halg, htyp, hclaims⟩ := validateOidcToken_eq_some.mp h
  obtain ⟨digits, hvalid, htext, hdecode⟩ := base64urlDecode_iff.mp hsigned.signature
  -- 32 bytes take 43 letters, and the last one has two bits to spare.
  have hgroups : digits.length % 4 ≠ 0 := by
    have hlength : (hmacSha256 config.hmac_secret
        (bytes (String.ofList (header_part ++ '.' :: payload_part)))).length = 32 := length_sha256 _
    rw [← hdecode, decode, length_toBytes, length_digitBits] at hlength
    have hneeded := hvalid.needed
    rw [leftover] at hneeded
    omega
  obtain ⟨init, d, hdigits⟩ := (List.eq_nil_or_concat digits).resolve_left hvalid.ne_nil
  rw [List.concat_eq_append] at hdigits
  subst hdigits
  obtain ⟨e, hne, he, hsame⟩ := exists_sibling hvalid hgroups
  have hdot : '.' ∉ letters urlAlphabet (init ++ [e]) := not_mem_letters he.lt (by simp)
  have hparts := splitOn_replace_last hsigned.parts hdot
  refine ⟨String.ofList (header_part ++ '.' :: payload_part ++ '.' ::
      letters urlAlphabet (init ++ [e])), ?_, validateOidcToken_eq_some.mpr
    ⟨header_part, payload_part, letters urlAlphabet (init ++ [e]), header, payload, ⟨?_, ?_⟩,
      hheader, hpayload, halg, htyp, hclaims⟩⟩
  · rintro rfl
    have hsplit := hsigned.parts
    rw [String.toList_ofList, hparts] at hsplit
    have hletters : letters urlAlphabet (init ++ [e]) = signature_part := by simpa using hsplit
    rw [← hletters] at htext
    have heq := base64urlText_inj he.lt hvalid.lt htext
    exact hne (List.singleton_inj.mp (List.append_cancel_left heq))
  · rw [String.toList_ofList]
    exact hparts
  · exact base64urlDecode_iff.mpr ⟨_, he, rfl, hsame.trans hdecode⟩

/-- A text that is decoded is the standard's encoding exactly where the spare bits of its last
letter are zeros, and moreover the only text of its bytes exactly where it comes in groups of four.
A token that is accepted never does, so that its text can be altered. -/
theorem base64url_malleable [Serde] :
    (∀ value bs, base64urlDecode value = some bs →
      (value = String.ofList (encode urlAlphabet bs) ↔ SpareBitsZero value) ∧
        ((value = String.ofList (encode urlAlphabet bs) ∧
          ∀ other, base64urlDecode other = some bs → other = value) ↔ len value % 4 = 0)) ∧
    ∀ env token config claims, validateOidcToken env token config = some claims →
      ∃ altered, altered ≠ token ∧ validateOidcToken env altered config = some claims := by
  refine ⟨fun value bs h => ?_, fun env token config claims h => exists_altered h⟩
  obtain ⟨hencoded, hunique⟩ := base64urlDecode_canonical_iff h
  refine ⟨hencoded, ?_⟩
  rw [hunique]
  refine and_iff_right_of_imp fun hgroups => hencoded.mpr fun d _ => ?_
  have hnone : 6 * len value % 8 = 0 := by omega
  rw [hnone, pow_zero, Nat.mod_one]

end Altered

section Example

/-- Two texts of one byte. -/
theorem base64url_two_texts : base64urlDecode "QQ" = some [0x41] ∧
    base64urlDecode "QR" = some [0x41] ∧
    "QR" ≠ String.ofList (encode urlAlphabet [0x41]) := by
  decide +kernel

attribute [local instance] aliceParser in
/-- A text of three bytes, which has no bits to spare. -/
theorem base64url_malleable_group : "QUJD" = String.ofList (encode urlAlphabet [0x41, 0x42, 0x43]) ∧
    ∀ other, base64urlDecode other = some [0x41, 0x42, 0x43] → other = "QUJD" :=
  (base64url_malleable.1 "QUJD" [0x41, 0x42, 0x43] (by decide +kernel)).2.mpr (by decide)

end Example

end NodeWe.ControlPlane
