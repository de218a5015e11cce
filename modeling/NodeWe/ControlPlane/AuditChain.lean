import NodeWe.JsonText
import NodeWe.ControlPlane.Runs

/-!
# The sealed audit chain

The control plane keeps audit records without hashes that it trusts: each export and each snapshot
seals the whole list again. `sealedRecords` is the list that is served, and `audit_jsonl` writes
it as JSON lines. With a JSON parser that keeps its promises (`Rfc8259`), a snapshot reads back
as the sealed list, its chain is accepted, and sealing it again changes nothing.
-/

namespace NodeWe.ControlPlane

open Text

/-! ## Sealing -/

/-- A record with its links. -/
def Activity.linked (item : Activity) (prev_hash hash : String) : Activity :=
  { item with prev_hash := prev_hash, hash := hash }

@[simp] theorem Activity.linked_hash (item : Activity) (prev_hash hash : String) :
    (item.linked prev_hash hash).hash = hash := rfl

@[simp] theorem Activity.linked_prev_hash (item : Activity) (prev_hash hash : String) :
    (item.linked prev_hash hash).prev_hash = prev_hash := rfl

/-- The records of a list, sealed from a link on. -/
def sealedFromLink (previous : String) : List Activity → List Activity
  | [] => []
  | item :: rest =>
    item.linked previous (activityHash item previous) ::
      sealedFromLink (activityHash item previous) rest

/-- The records that the control plane serves and writes. -/
def sealedRecords (audit : List Activity) : List Activity := sealedFromLink "GENESIS" audit

/-- The link behind a list. -/
def linkAfter (previous : String) (audit : List Activity) : String :=
  audit.foldl (fun link item => activityHash item link) previous

/-- The hash does not depend on the links that a record carries. -/
theorem activityHash_linked (item : Activity) (prev_hash hash previous : String) :
    activityHash (item.linked prev_hash hash) previous = activityHash item previous := rfl

/-- Sealing neither adds nor drops a record. -/
theorem length_sealedFromLink (previous : String) (audit : List Activity) :
    (sealedFromLink previous audit).length = audit.length := by
  induction audit generalizing previous with
  | nil => rfl
  | cons item rest ih => exact congrArg (· + 1) (ih _)

/-- Sealing a joined list. -/
theorem sealedFromLink_append (previous : String) (audit rest : List Activity) :
    sealedFromLink previous (audit ++ rest) =
      sealedFromLink previous audit ++ sealedFromLink (linkAfter previous audit) rest := by
  induction audit generalizing previous with
  | nil => rfl
  | cons item audit ih => exact congrArg (_ :: ·) (ih _)

/-- Records that are appended leave the sealed ones as they are. -/
theorem sealedRecords_prefix {audit audit' : List Activity} (h : audit <+: audit') :
    sealedRecords audit <+: sealedRecords audit' := by
  obtain ⟨rest, rfl⟩ := h
  exact ⟨_, (sealedFromLink_append _ audit rest).symm⟩

/-- Sealing again changes nothing. -/
theorem sealedFromLink_idem (previous : String) (audit : List Activity) :
    sealedFromLink previous (sealedFromLink previous audit) = sealedFromLink previous audit := by
  induction audit generalizing previous with
  | nil => rfl
  | cons item rest ih =>
    have hrest := ih (activityHash item previous)
    rw [sealedFromLink, sealedFromLink, activityHash_linked, hrest]
    rfl

/-- The chain of a sealed list is accepted. -/
theorem chainValidFrom_sealed (previous : String) (audit : List Activity) :
    chainValidFrom previous (sealedFromLink previous audit) = true := by
  induction audit generalizing previous with
  | nil => rfl
  | cons item rest ih =>
    have hlinks : ¬((decide ((item.linked previous (activityHash item previous)).hash ≠ "") &&
        (decide ((item.linked previous (activityHash item previous)).prev_hash ≠ previous) ||
          decide ((item.linked previous (activityHash item previous)).hash ≠
            activityHash (item.linked previous (activityHash item previous)) previous))) = true) := by
      simp [activityHash_linked]
    rw [sealedFromLink, chainValidFrom, if_neg hlinks]
    -- The stored hash is the expected one, so both branches go on with it.
    split_ifs
    · exact ih _
    · exact ih _

/-! ## The texts -/

/-- A sealed record as `activity_json_with_chain` prints it. -/
def sealedText (item : Activity) : String := activityJsonWithChain item item.prev_hash item.hash

/-- The loop of `sealed_activity_json` prints the record at its index. -/
theorem sealedFrom_getElem? (previous : String) (audit : List Activity) (index : ℕ) {item : Activity}
    (h : (sealedFromLink previous audit)[index]? = some item) :
    sealedFrom previous audit index = sealedText item := by
  induction audit generalizing previous index with
  | nil => cases h
  | cons first rest ih =>
    cases index with
    | zero =>
      rw [sealedFromLink, List.getElem?_cons_zero, Option.some.injEq] at h
      rw [← h]
      rfl
    | succ index => exact ih _ index h

/-- What is served is the sealed list. -/
theorem served_eq_sealedTexts (audit : List Activity) :
    (List.range audit.length).map (sealedActivityJson audit) =
      (sealedRecords audit).map sealedText := by
  have hlength := length_sealedFromLink "GENESIS" audit
  refine List.ext_getElem (by simp [sealedRecords, hlength]) fun index h _ => ?_
  rw [List.length_map, List.length_range] at h
  rw [List.getElem_map, List.getElem_map, List.getElem_range]
  refine sealedFrom_getElem? "GENESIS" audit index ?_
  rw [List.getElem?_eq_getElem (by omega)]
  rfl

/-- The lines of the audit section are the sealed records. -/
theorem auditLines_eq_sealed (audit : List Activity) :
    auditLines audit = (sealedRecords audit).map fun item => (sealedText item).toList := by
  have h := congrArg (List.map String.toList) (served_eq_sealedTexts audit)
  rwa [List.map_map, List.map_map] at h

/-- A list and the same list sealed are written alike. -/
theorem auditJsonl_sealed (audit : List Activity) :
    auditJsonl (sealedRecords audit) = auditJsonl audit := by
  have hnil : sealedRecords audit = [] ↔ audit = [] := by
    rw [← List.length_eq_zero_iff, sealedRecords, length_sealedFromLink, List.length_eq_zero_iff]
  have hidem : sealedRecords (sealedRecords audit) = sealedRecords audit :=
    sealedFromLink_idem "GENESIS" audit
  unfold auditJsonl
  rw [served_eq_sealedTexts, served_eq_sealedTexts, hidem]
  simp only [hnil]

/-! ## The JSON of a record -/

/-- A text, or `null`. -/
def optionalValue (s : Option String) : Value := (s.map Value.string).getD .null

/-- The value of a record. -/
def activityValue (item : Activity) (prev_hash hash : String) : Value := .object
  [("activity_id", .string item.id), ("event", .string item.event),
    ("node_id", optionalValue item.node_id), ("task_id", optionalValue item.task_id),
    ("actor", optionalValue item.actor), ("timestamp", .number (.ofNat item.timestamp)),
    ("prev_hash", .string prev_hash), ("hash", .string hash)]

/-- The characters of a text, or of `null`. -/
theorem chars_optionalValue (s : Option String) :
    (optionalValue s).chars = (quotedOrNull s).toList := by
  cases s <;> simp [optionalValue, quotedOrNull, Value.chars]

/-- A text, or `null`, fits. -/
theorem fits_optionalValue (s : Option String) : (optionalValue s).Fits := by
  cases s
  · exact .null
  · exact .string _

/-- A text, or `null`, reads as what it is. -/
theorem asStr_optionalValue (s : Option String) : (optionalValue s).asStr = s := by
  cases s <;> rfl

/-- A record is printed as its value. -/
theorem activityJsonWithChain_eq_text (item : Activity) (prev_hash hash : String) :
    activityJsonWithChain item prev_hash hash = (activityValue item prev_hash hash).text := by
  have hkeys : ∀ key ∈ ["activity_id", "event", "node_id", "task_id", "actor", "timestamp",
      "prev_hash", "hash"], (quoted key).toList = '"' :: (key.toList ++ ['"']) := by
    decide +kernel
  simp only [List.forall_mem_cons] at hkeys
  rw [Value.text, ← String.toList_inj, String.toList_ofList]
  unfold activityJsonWithChain activityValue
  simp [Value.chars, Value.memberChars, chars_optionalValue, Number.text_ofNat, hkeys]

/-- The value of a record fits. -/
theorem fits_activityValue (item : Activity) (prev_hash hash : String) :
    (activityValue item prev_hash hash).Fits := by
  refine .object _ (by simp) ?_
  simp only [List.forall_mem_cons, List.not_mem_nil, false_imp_iff, implies_true, and_true]
  exact ⟨.string _, .string _, fits_optionalValue _, fits_optionalValue _, fits_optionalValue _,
    .number _ (Number.fits_ofNat _), .string _, .string _⟩

/-- A text, or `null`, is plain. -/
theorem plain_optionalValue (s : Option String) :
    (optionalValue s).Whole ∧ (optionalValue s).depth = 0 := by
  cases s
  · exact ⟨.null, rfl⟩
  · exact ⟨.string _, rfl⟩

/-- The value of a record is within the limits of the parser, if its time is. -/
theorem bounded_activityValue {item : Activity} (htime : item.timestamp ≤ u64Max)
    (prev_hash hash : String) : (activityValue item prev_hash hash).Bounded := by
  refine Value.bounded_object (by simp) ?_
  simp only [List.forall_mem_cons, List.not_mem_nil, false_imp_iff, implies_true, and_true]
  exact ⟨⟨.string _, rfl⟩, ⟨.string _, rfl⟩, plain_optionalValue _, plain_optionalValue _,
    plain_optionalValue _, ⟨Value.whole_ofNat htime, rfl⟩, ⟨.string _, rfl⟩, ⟨.string _, rfl⟩⟩

variable [Serde] [Rfc8259]

/-- A record reads back. -/
theorem parseActivityLine_text (item : Activity) (prev_hash hash : String)
    (htime : item.timestamp ≤ u64Max) :
    parseActivityLine (activityJsonWithChain item prev_hash hash).toList =
      some (item.linked prev_hash hash) := by
  have hdenotes : Denotes (activityJsonWithChain item prev_hash hash).toList
      (activityValue item prev_hash hash) := by
    rw [activityJsonWithChain_eq_text]
    exact (fits_activityValue item prev_hash hash).denotes_text
  have hbounded := bounded_activityValue htime prev_hash hash
  have hfield (key : String) : jsonField (activityJsonWithChain item prev_hash hash) key =
      ((activityValue item prev_hash hash).get key).bind Value.asStr :=
    jsonField_denotes hdenotes hbounded key
  have hnumber : jsonNumber (activityJsonWithChain item prev_hash hash) "timestamp" =
      some item.timestamp := by
    refine (jsonNumber_denotes hdenotes hbounded "timestamp").trans ?_
    simp [Value.get, Number.ofNat, htime, Value.asU64]
  have hnode : jsonField (activityJsonWithChain item prev_hash hash) "node_id" = item.node_id :=
    (hfield "node_id").trans (asStr_optionalValue item.node_id)
  have htask : jsonField (activityJsonWithChain item prev_hash hash) "task_id" = item.task_id :=
    (hfield "task_id").trans (asStr_optionalValue item.task_id)
  have hactor : jsonField (activityJsonWithChain item prev_hash hash) "actor" = item.actor :=
    (hfield "actor").trans (asStr_optionalValue item.actor)
  unfold parseActivityLine
  simp only [String.ofList_toList, hnumber, hnode, htask, hactor]
  simp [hfield, activityValue, Value.get, Value.asStr, Activity.linked]

/-- The times of a list fit. -/
def TimesFit (audit : List Activity) : Prop := ∀ item ∈ audit, item.timestamp ≤ u64Max

omit [Serde] [Rfc8259] in
/-- A record keeps its time in the sealed list. -/
theorem TimesFit.sealed {audit : List Activity} (h : TimesFit audit) (previous : String) :
    TimesFit (sealedFromLink previous audit) := by
  induction audit generalizing previous with
  | nil => exact List.forall_mem_nil _
  | cons item rest ih =>
    have htimes := List.forall_mem_cons.mp h
    exact List.forall_mem_cons.mpr ⟨htimes.1, ih htimes.2 _⟩

/-- The audit section reads back as the sealed list. -/
theorem parsed_auditLines {audit : List Activity} (h : TimesFit audit) :
    (auditLines audit).filterMap parseActivityLine = sealedRecords audit := by
  have hsome : ∀ item ∈ sealedRecords audit, parseActivityLine (sealedText item).toList =
      some item := fun item hitem => parseActivityLine_text item _ _ (h.sealed "GENESIS" item hitem)
  rw [auditLines_eq_sealed, List.filterMap_map]
  exact (List.filterMap_congr hsome).trans List.filterMap_some

/-- The records of a store that is read back are the sealed ones. -/
theorem reloadedStore_audit (env : Env) {store : Store} (h : TimesFit store.audit) :
    (reloadedStore env store).audit = sealedRecords store.audit := parsed_auditLines h

/-- **Every snapshot is accepted.** -/
theorem parseSnapshot_fits (env : Env) {store : Store} (h : TimesFit store.audit) :
    parseSnapshot env (snapshotText store) = .ok (some (reloadedStore env store)) := by
  rw [parseSnapshot_snapshotText, if_pos]
  rw [reloadedStore_audit env h]
  exact chainValidFrom_sealed "GENESIS" store.audit

end NodeWe.ControlPlane
