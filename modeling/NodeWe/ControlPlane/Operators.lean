import NodeWe.ControlPlane.Approvable
import NodeWe.ControlPlane.Oidc

/-!
# Who may act

Three gates look at an operator's name. A token and an approval go by `valid_actor_id`, and a task
by `valid_node_id`, which has a larger alphabet and allows half the length. `uniform_iff` says of
which names the gates agree.
-/

namespace NodeWe.ControlPlane

open Text

/-! ## The two checks -/

/-- The characters of `valid_actor_id`. -/
def isActorChar (c : Char) : Bool := c.isAlphanum || ['_', '-', '.', ':', '@', '|', '+'].contains c

/-- The characters of `valid_node_id`. -/
def isNodeChar (c : Char) : Bool :=
  isAsciiGraphic c && !(['/', '\\', '?', '&', '=', '#', '%'].contains c)

/-- `valid_actor_id`, check by check. -/
theorem validActorId_iff {a : String} : validActorId a = true ↔
    a ≠ "" ∧ len a ≤ 256 ∧ a.toList.all isActorChar = true := by
  rw [validActorId, Bool.and_eq_true, Bool.and_eq_true, decide_eq_true_eq, decide_eq_true_eq,
    and_assoc]
  rfl

/-- `valid_node_id`, check by check. -/
theorem validNodeId_iff {a : String} : validNodeId a = true ↔
    a ≠ "" ∧ len a ≤ 128 ∧ a.toList.all isNodeChar = true := by
  rw [validNodeId, Bool.and_eq_true, Bool.and_eq_true, decide_eq_true_eq, decide_eq_true_eq,
    and_assoc]
  rfl

/-- Letters and digits are graphic, and none of the characters that a node may not have. -/
theorem isNodeChar_of_isAlphanum {c : Char} (h : c.isAlphanum = true) : isNodeChar c = true := by
  have hcode : c.toNat = c.val.toNat := rfl
  simp only [Char.isAlphanum, Char.isAlpha, Char.isUpper, Char.isLower, Char.isDigit,
    Bool.or_eq_true, Bool.and_eq_true, decide_eq_true_eq, ge_iff_le, UInt32.le_iff_toNat_le] at h
  have hbounds : 'A'.val.toNat = 65 ∧ 'Z'.val.toNat = 90 ∧ 'a'.val.toNat = 97 ∧
      'z'.val.toNat = 122 ∧ '0'.val.toNat = 48 ∧ '9'.val.toNat = 57 :=
    ⟨rfl, rfl, rfl, rfl, rfl, rfl⟩
  have hother {d : Char} (hd : d.toNat < 48 ∨ 57 < d.toNat ∧ d.toNat < 65 ∨ d.toNat = 92) :
      c ≠ d := by
    rintro rfl
    omega
  have hgraphic : isAsciiGraphic c = true := by
    rw [isAsciiGraphic, Bool.and_eq_true, decide_eq_true_eq, decide_eq_true_eq]
    omega
  rw [isNodeChar, hgraphic, Bool.true_and, Bool.not_eq_true', ← Bool.not_eq_true,
    List.contains_iff_mem]
  simp only [List.mem_cons, List.not_mem_nil, or_false, not_or]
  refine ⟨hother ?_, hother ?_, hother ?_, hother ?_, hother ?_, hother ?_, hother ?_⟩ <;>
    decide +kernel

/-- An actor has the characters of a node. -/
theorem isNodeChar_of_isActorChar {c : Char} (h : isActorChar c = true) : isNodeChar c = true := by
  rw [isActorChar, Bool.or_eq_true, List.contains_iff_mem] at h
  rcases h with h | h
  · exact isNodeChar_of_isAlphanum h
  · simp only [List.mem_cons, List.not_mem_nil, or_false] at h
    rcases h with rfl | rfl | rfl | rfl | rfl | rfl | rfl <;> rfl

/-- The names that the checks agree on: one of actors' characters is short enough for both or too
long for both, and any other is refused as a node's too. -/
def GatesAgree (a : String) : Prop :=
  a = "" ∨ if a.toList.all isActorChar then len a ≤ 128 ∨ 256 < len a
    else 128 < len a ∨ a.toList.all isNodeChar = false

/-- They do. -/
theorem validActorId_eq_iff (a : String) :
    (validActorId a = true ↔ validNodeId a = true) ↔ GatesAgree a := by
  have halphabet : a.toList.all isActorChar = true → a.toList.all isNodeChar = true := by
    rw [List.all_eq_true, List.all_eq_true]
    exact fun h c hc => isNodeChar_of_isActorChar (h c hc)
  rw [validActorId_iff, validNodeId_iff, GatesAgree]
  by_cases hempty : a = ""
  · exact iff_of_true (by rw [hempty]; simp) (.inl hempty)
  · cases hactor : a.toList.all isActorChar with
    | true =>
      simp only [halphabet hactor, hempty, ne_eq, not_false_eq_true, and_true, true_and, if_true,
        false_or]
      omega
    | false =>
      simp only [hempty, ne_eq, not_false_eq_true, Bool.false_eq_true, and_false, true_and,
        if_false, false_or, false_iff]
      rw [not_and_or, Bool.not_eq_true, not_le]

/-! ## The gates -/

section Gates

variable [Serde]

/-- A name that a token can have. -/
def Subject (a : String) : Prop :=
  ∃ env token config claims, validateOidcToken env token config = some claims ∧ claims.subject = a

/-- An operator whose requests for tasks pass the actor check: one is read. -/
def TaskActor (a : String) : Prop :=
  ∃ st env body req, parseTaskRequest st env body (some a) = .ok req

/-- An operator whose requests for approvals do: one is recorded. -/
def ApprovalActor (a : String) : Prop :=
  ∃ st env body store approval new,
    createApprovalAs st env body (some a) store = (⟨.created, .approval approval⟩, new)

/-- The gates are uniform for a name: a subject may ask for tasks, and whoever may have approvals
may ask for tasks and conversely. -/
structure Uniform (a : String) : Prop where
  submits : Subject a → TaskActor a
  same : ApprovalActor a ↔ TaskActor a

/-- The header of a token. -/
def operatorHeader : Value := .object [("alg", .string "HS256"), ("typ", .string "JWT")]

/-- The payload of a token of an operator. -/
def operatorPayload (a : String) : Value := .object
  [("iss", .string "https://idp"), ("aud", .string "nodewe"), ("exp", .number (.posInt 1)),
    ("sub", .string a)]

/-- The body of an operator's request for a task. -/
def operatorTask : Value := .object [("node_id", .string "n"), ("request_id", .string "r")]

/-- The body of an operator's request for an approval. -/
def operatorApproval : Value := .object
  [("node_id", .string "n"), ("ability", .string "task.exec")]

variable [Rfc8259] {a : String}

/-- The text of an object of strings is read as an object that has the same members. -/
theorem parseJsonObject_strings {members : List (String × Value)}
    (hkeys : (members.map Prod.fst).Nodup)
    (hstrings : ∀ member ∈ members, ∃ s, member.2 = .string s) :
    ∃ read, parseJsonObject (Value.object members).text = some (.object read) ∧
      ∀ key, (Value.object read).get key = (Value.object members).get key := by
  refine parseJsonObject_plain hkeys ?_
  intro member hmember
  obtain ⟨s, hs⟩ := hstrings member hmember
  rw [hs]
  exact ⟨.string s, rfl⟩

/-- The subjects are the valid actors. -/
theorem subject_iff : Subject a ↔ validActorId a = true := by
  constructor
  · rintro ⟨env, token, config, claims, hvalid, rfl⟩
    obtain ⟨_, _, _, _, _, -, -, -, -, -, hclaims⟩ := validateOidcToken_eq_some.mp hvalid
    exact (payloadClaims_eq_some.mp hclaims).actor
  · -- A token that is signed over the claims of `a`, which are read again as they were written.
    intro hactor
    obtain ⟨header, hheader, hheaderget⟩ : ∃ read,
        parseJsonObject operatorHeader.text = some (.object read) ∧
          ∀ key, (Value.object read).get key = operatorHeader.get key :=
      parseJsonObject_strings (by simp) (by simp)
    obtain ⟨payload, hpayload, hpayloadget⟩ : ∃ read,
        parseJsonObject (operatorPayload a).text = some (.object read) ∧
          ∀ key, (Value.object read).get key = (operatorPayload a).get key := by
      have hone : (Value.number (.posInt 1)).Whole := .number 1 (by decide) (by decide)
      refine parseJsonObject_plain (by simp) ?_
      simp only [List.forall_mem_cons, List.not_mem_nil, false_imp_iff, implies_true, and_true]
      exact ⟨⟨.string _, rfl⟩, ⟨.string _, rfl⟩, ⟨hone, rfl⟩, ⟨.string _, rfl⟩⟩
    have hnonempty (members : List (String × Value)) : (Value.object members).text ≠ "" := by
      intro hempty
      have hlist := congrArg String.toList hempty
      rw [Value.text, String.toList_ofList, Value.chars] at hlist
      cases hlist
    have halg : jsonField operatorHeader.text "alg" = some "HS256" := by
      rw [jsonField, hheader, Option.bind_some, hheaderget]
      rfl
    have htyp : jsonField operatorHeader.text "typ" = some "JWT" := by
      rw [jsonField, hheader, Option.bind_some, hheaderget]
      rfl
    have hmember (key : String) :
        jsonMember (operatorPayload a).text key = (operatorPayload a).get key := by
      rw [jsonMember, hpayload, Option.bind_some, hpayloadget]
    refine ⟨exampleEnv 0, signedToken ⟨"https://idp", "nodewe", [], "", "groups"⟩
      operatorHeader.text (operatorPayload a).text, ⟨"https://idp", "nodewe", [], "", "groups"⟩,
      ⟨a, jsonStringArray (operatorPayload a).text "groups"⟩,
      validateOidcToken_signedToken (hnonempty _) (hnonempty _) halg htyp
        (payloadClaims_eq_some.mpr ?_), rfl⟩
    constructor
    · exact jsonField_eq_some.mpr (hmember "iss")
    · rw [jwtAudienceMatches, jsonField_eq_some.mpr (hmember "aud"), beq_self_eq_true, Bool.true_or]
    · exact ⟨1, jsonNumber_eq_some.mpr (hmember "exp"), by decide⟩
    · intro n hn
      have hnbf := (hmember "nbf").symm.trans (jsonNumber_eq_some.mp hn)
      cases hnbf
    · exact jsonField_eq_some.mpr (hmember "sub")
    · exact hactor
    · rfl

/-- A task is asked for under names that are valid for nodes. -/
theorem taskActor_iff : TaskActor a ↔ validNodeId a = true := by
  constructor
  · rintro ⟨st, env, body, req, h⟩
    rw [← parseTaskRequest_actor h]
    exact (parseTaskRequest_resolved h).2
  · intro hactor
    obtain ⟨read, hobject, hget⟩ : ∃ read,
        parseJsonObject operatorTask.text = some (.object read) ∧
          ∀ key, (Value.object read).get key = operatorTask.get key :=
      parseJsonObject_strings (by simp) (by simp)
    refine ⟨exampleState, exampleEnv 0, operatorTask.text, ⟨"n", "r", a, "", "", "echo", "", none,
      defaultTaskTimeoutMs, maxTaskOutputLimit, false⟩, ?_⟩
    unfold parseTaskRequest jsonNumberOr
    simp only [jsonTypesValid, jsonField, jsonNumber, jsonKeyPresent, jsonTrue, resolveActor, hobject,
      Option.bind_some, Option.map_some, hget]
    simp [operatorTask, Value.get, Value.asStr, Value.isString, hactor]
    have hlimit : (some maxTaskOutputLimit).filter (fun value =>
        decide (0 < value) && decide (value ≤ maxTaskOutputLimit)) = some maxTaskOutputLimit := by
      decide
    have hrequest : validNodeId "r" = true := by decide
    have htimeout : ¬(defaultTaskTimeoutMs = 0 ∨ maxTaskTimeoutMs < defaultTaskTimeoutMs) := by
      decide
    simp only [hlimit, hrequest, Bool.true_eq_false, if_false, htimeout]

/-- An approval is recorded for valid actors. -/
theorem approvalActor_iff : ApprovalActor a ↔ validActorId a = true := by
  constructor
  · rintro ⟨st, env, body, store, approval, new, h⟩
    -- Approvals need no keys, so any will do.
    have : Ed25519 := noKeys
    have happroves := approves_of_created h
    rw [← resolveActor_some happroves.resolved]
    exact happroves.valid_actor
  · intro hactor
    obtain ⟨read, hobject, hget⟩ : ∃ read,
        parseJsonObject operatorApproval.text = some (.object read) ∧
          ∀ key, (Value.object read).get key = operatorApproval.get key :=
      parseJsonObject_strings (by simp) (by simp)
    have hnode : validNodeId "n" = true := by decide
    refine ⟨exampleState, exampleEnv 0, operatorApproval.text, .empty, ?_⟩
    unfold createApprovalAs
    simp only [jsonTypesValid, jsonField, resolveActor, hobject, Option.bind_some, hget]
    simp [operatorApproval, Value.get, Value.asStr, Value.isString, hactor, hnode,
      persistOrRollback, exampleEnv]

/-- The gates are uniform for exactly the names that the checks agree on; in particular a subject
may ask for tasks exactly where it has at most 128 bytes. -/
theorem uniform_iff (a : String) :
    (Uniform a ↔ GatesAgree a) ∧ (Subject a → (TaskActor a ↔ len a ≤ 128)) := by
  rw [subject_iff, taskActor_iff]
  constructor
  · rw [← validActorId_eq_iff]
    constructor
    · rintro ⟨-, hsame⟩
      rwa [approvalActor_iff, taskActor_iff] at hsame
    · intro hagree
      refine ⟨?_, ?_⟩
      · rw [subject_iff, taskActor_iff]
        exact hagree.mp
      · rw [approvalActor_iff, taskActor_iff]
        exact hagree
  · intro hactor
    obtain ⟨hne, -, hall⟩ := validActorId_iff.mp hactor
    rw [List.all_eq_true] at hall
    have hnode : a.toList.all isNodeChar = true :=
      List.all_eq_true.mpr fun c hc => isNodeChar_of_isActorChar (hall c hc)
    rw [validNodeId_iff]
    exact ⟨fun h => h.2.1, fun h => ⟨hne, h, hnode⟩⟩

end Gates

section Example

attribute [local instance] compactSerde rfc8259_compactSerde

/-- A short name is a subject, may have approvals and may ask for tasks. -/
theorem uniform_alice : Uniform "alice" ∧ Subject "alice" ∧ TaskActor "alice" := by
  have hagree : GatesAgree "alice" := .inr (.inl (by decide))
  have hsubject : Subject "alice" := subject_iff.mpr (by decide)
  have huniform := (uniform_iff "alice").1.mpr hagree
  exact ⟨huniform, hsubject, ((uniform_iff "alice").2 hsubject).mpr (by decide)⟩

/-- A subject of 129 letters may have approvals and may not ask for tasks; an exclamation mark may
ask for tasks and may not have approvals. -/
theorem gates_disagree :
    (let a := String.ofList (List.replicate 129 'a')
    Subject a ∧ ApprovalActor a ∧ ¬TaskActor a) ∧ TaskActor "!" ∧ ¬ApprovalActor "!" := by
  dsimp only
  rw [subject_iff, approvalActor_iff, taskActor_iff, approvalActor_iff, taskActor_iff]
  decide +kernel

end Example

end NodeWe.ControlPlane
