import NodeWe.HashChain
import NodeWe.ControlPlane.AuditChain

/-!
# What the audit chain binds

`activity_hash` hashes the fields of a record joined by line ends, and no digest says how many line
ends a field has or which fields are absent. Two chains with the same last hash have the same number
of records with the same joined fields, and the same content where the fields are of one shape.
-/

namespace NodeWe.ControlPlane

open Text HashChain

/-! ## Joined texts -/

section Joined

variable {sep : Char}

/-- Two texts that are joined by a separator are told apart by the number of separators in the first
one. -/
theorem append_cons_inj {s s' t t' : List Char} (hcount : s.count sep = s'.count sep)
    (h : s ++ sep :: t = s' ++ sep :: t') : s = s' ∧ t = t' := by
  have hlonger {s s' t t' between : List Char} (hcount : s.count sep = s'.count sep)
      (hs' : s' = s ++ between) (ht : sep :: t = between ++ sep :: t') : s = s' ∧ t = t' := by
    cases between with
    | nil =>
      rw [List.append_nil] at hs'
      exact ⟨hs'.symm, (List.cons.inj ht).2⟩
    | cons c between =>
      -- The rest of the longer text begins with a separator that the shorter one does not have.
      obtain ⟨rfl, -⟩ := List.cons.inj ht
      rw [hs', List.count_append, List.count_cons_self] at hcount
      omega
  rcases List.append_eq_append_iff.mp h with ⟨between, hs', ht⟩ | ⟨between, hs, ht⟩
  · exact hlonger hcount hs' ht
  · obtain ⟨heq, hrest⟩ := hlonger hcount.symm hs ht
    exact ⟨heq.symm, hrest.symm⟩

/-- Two texts that are joined by a separator are told apart where the second one has none. -/
theorem append_cons_inj_last {s s' t t' : List Char} (ht : sep ∉ t) (ht' : sep ∉ t')
    (h : s ++ sep :: t = s' ++ sep :: t') : s = s' ∧ t = t' := by
  refine append_cons_inj ?_ h
  have hcount := congrArg (List.count sep) h
  rw [List.count_append, List.count_append, List.count_cons_self, List.count_cons_self,
    List.count_eq_zero_of_not_mem ht, List.count_eq_zero_of_not_mem ht'] at hcount
  omega

/-- Joined fields are told apart by the number of separators in each. -/
theorem intercalate_inj {fields fields' : List (List Char)}
    (hcounts : fields.map (List.count sep) = fields'.map (List.count sep))
    (h : [sep].intercalate fields = [sep].intercalate fields') : fields = fields' := by
  induction fields generalizing fields' with
  | nil =>
    rw [List.map_nil, eq_comm, List.map_eq_nil_iff] at hcounts
    exact hcounts.symm
  | cons f rest ih =>
    match fields', hcounts with
    | f' :: rest', hcounts =>
      obtain ⟨hcount, hrest⟩ := List.cons.inj hcounts
      match rest, rest', hrest with
      | [], [], _ =>
        rw [List.intercalate_singleton, List.intercalate_singleton] at h
        rw [h]
      | g :: gs, g' :: gs', hrest =>
        rw [List.intercalate_cons_cons, List.intercalate_cons_cons, List.append_assoc,
          List.append_assoc, List.singleton_append, List.singleton_append] at h
        obtain ⟨rfl, htail⟩ := append_cons_inj hcount h
        rw [ih hrest htail]

end Joined

/-! ## The text that is hashed -/

/-- The fields of a record that are hashed. -/
def hashedFields (item : Activity) : List String :=
  [item.id, item.event, item.node_id.getD "", item.task_id.getD ""] ++ item.actor.toList ++
    [item.timestamp.repr]

/-- The text of a record that is hashed, with the link before it. -/
def canonical (prev_hash : String) (item : Activity) : String :=
  "\n".intercalate (hashedFields item ++ [prev_hash])

/-- The digest of a text, in hexadecimal. -/
def digest (text : String) : String := hexEncodeBytes (sha256 (bytes text))

/-- The hash of a record is the digest of its text. -/
theorem activityHash_eq (item : Activity) (prev_hash : String) :
    activityHash item prev_hash = digest (canonical prev_hash item) := by
  unfold activityHash canonical hashedFields
  rw [List.append_assoc _ [item.timestamp.repr]]
  rfl

/-- The characters of that text. -/
theorem toList_canonical (prev_hash : String) (item : Activity) :
    (canonical prev_hash item).toList =
      ['\n'].intercalate ((hashedFields item).map String.toList) ++ '\n' :: prev_hash.toList := by
  have hne : hashedFields item ≠ [] := by simp [hashedFields]
  rw [canonical, String.intercalate_append_of_ne_nil hne (List.cons_ne_nil _ _),
    String.intercalate_singleton, String.toList_append, String.toList_append,
    String.toList_intercalate, List.append_assoc]
  rfl

/-- A digest has 64 characters, and none is a line end. -/
theorem digest_chars (text : String) :
    (digest text).toList.length = 64 ∧ '\n' ∉ (digest text).toList := by
  refine ⟨?_, fun hc => (plain_hexEncodeBytes _ _ hc).2.1 rfl⟩
  have hbytes : (sha256 (bytes text)).length = 32 := by
    unfold sha256 bigEndian
    simp
  have hpair : ∀ b ∈ sha256 (bytes text), (hexByte b).length = 2 := fun _ _ => rfl
  rw [digest, hexEncodeBytes, String.toList_ofList, List.length_flatMap,
    List.map_congr_left hpair, List.map_const', List.sum_replicate, hbytes]
  rfl

/-- The step of the audit chain. -/
def auditStep (previous : String) (item : Activity) : String := activityHash item previous

/-- A link that a record hashes to is as long as a digest: it is neither the first one nor empty. -/
theorem length_auditStep (previous : String) (item : Activity) :
    (auditStep previous item).toList.length = 64 := by
  rw [auditStep, activityHash_eq]
  exact (digest_chars _).1

/-- No record hashes to the first link. -/
theorem auditStep_ne_genesis (previous : String) (item : Activity) :
    auditStep previous item ≠ "GENESIS" := by
  intro h
  have hlength := length_auditStep previous item
  rw [h] at hlength
  exact absurd hlength (by decide)

/-- No record hashes to nothing. -/
theorem auditStep_ne_empty (previous : String) (item : Activity) :
    auditStep previous item ≠ "" := by
  intro h
  have hlength := length_auditStep previous item
  rw [h] at hlength
  exact absurd hlength (by decide)

/-- The links before the records of the audit chain have no line end. -/
theorem links_plain {previous : String} (hprevious : '\n' ∉ previous.toList)
    {audit : List Activity} : ∀ p ∈ hashed auditStep previous audit, '\n' ∉ p.1.toList := by
  induction audit generalizing previous with
  | nil => exact List.forall_mem_nil _
  | cons item rest ih =>
    refine List.forall_mem_cons.mpr ⟨hprevious, ih ?_⟩
    rw [auditStep, activityHash_eq]
    exact (digest_chars _).2

/-! ## Content and shape -/

/-- What a record says, without its links. -/
def Activity.content (item : Activity) : Activity := item.linked "" ""

/-- The number of line ends of a text. -/
def lineEnds (s : String) : ℕ := s.toList.count '\n'

/-- Two records have the same fields, with as many line ends each. -/
structure SameShape (item item' : Activity) : Prop where
  id : lineEnds item.id = lineEnds item'.id
  event : lineEnds item.event = lineEnds item'.event
  node_id : item.node_id.map lineEnds = item'.node_id.map lineEnds
  task_id : item.task_id.map lineEnds = item'.task_id.map lineEnds
  actor : item.actor.map lineEnds = item'.actor.map lineEnds

/-- Records have the same content when they agree in every field but the links. -/
theorem content_eq_iff {item item' : Activity} :
    item.content = item'.content ↔ item.id = item'.id ∧ item.event = item'.event ∧
      item.node_id = item'.node_id ∧ item.task_id = item'.task_id ∧ item.actor = item'.actor ∧
        item.timestamp = item'.timestamp := by
  simp [Activity.content, Activity.linked]

/-- Records of the same content have the same shape. -/
theorem sameShape_of_content {item item' : Activity} (h : item.content = item'.content) :
    SameShape item item' := by
  obtain ⟨hid, hevent, hnode, htask, hactor, -⟩ := content_eq_iff.mp h
  exact ⟨by rw [hid], by rw [hevent], by rw [hnode], by rw [htask], by rw [hactor]⟩

/-- The joined fields of a record. -/
def joined (item : Activity) : List Char :=
  ['\n'].intercalate ((hashedFields item).map String.toList)

/-- A number has no line end. -/
theorem lineEnds_repr (n : ℕ) : lineEnds n.repr = 0 := by
  refine List.count_eq_zero_of_not_mem fun hc => ?_
  exact absurd (isDigit_of_mem_repr hc) (by decide)

/-- Numbers with the same text are one. -/
theorem repr_inj {m n : ℕ} (h : m.repr = n.repr) : m = n := by
  have hread := parseDigits_repr m
  rw [h, parseDigits_repr] at hread
  exact (Option.some.inj hread).symm

/-- An absent text is not told apart from an empty one, but has another shape. -/
theorem option_eq_of_shape {s s' : Option String} (hshape : s.map lineEnds = s'.map lineEnds)
    (h : s.getD "" = s'.getD "") : s = s' := by
  cases s <;> cases s'
  · rfl
  · cases hshape
  · cases hshape
  · exact congrArg some h

/-- An absent text has as many line ends as an empty one. -/
theorem lineEnds_getD {s s' : Option String} (hshape : s.map lineEnds = s'.map lineEnds) :
    lineEnds (s.getD "") = lineEnds (s'.getD "") := by
  have hempty : lineEnds "" = 0 := rfl
  calc lineEnds (s.getD "") = (s.map lineEnds).getD 0 := by cases s <;> simp [hempty]
    _ = (s'.map lineEnds).getD 0 := by rw [hshape]
    _ = lineEnds (s'.getD "") := by cases s' <;> simp [hempty]

/-- **Joined fields tell the content of records of one shape.** -/
theorem content_of_joined {item item' : Activity} (hshape : SameShape item item')
    (h : joined item = joined item') : item.content = item'.content := by
  have hactors : item.actor.toList.map lineEnds = item'.actor.toList.map lineEnds := by
    rw [← Option.toList_map, ← Option.toList_map, hshape.actor]
  have hcounts : (hashedFields item).map lineEnds = (hashedFields item').map lineEnds := by
    simp only [hashedFields, List.map_append, List.map_cons, List.map_nil, hshape.id, hshape.event,
      lineEnds_getD hshape.node_id, lineEnds_getD hshape.task_id, hactors, lineEnds_repr]
  have hchars : (hashedFields item).map String.toList = (hashedFields item').map String.toList := by
    refine intercalate_inj ?_ h
    rw [List.map_map, List.map_map]
    exact hcounts
  have hfields : hashedFields item = hashedFields item' :=
    List.map_injective_iff.mpr (fun _ _ => String.toList_inj.mp) hchars
  have hlength : item.actor.toList.length = item'.actor.toList.length := by
    have h := congrArg List.length hactors
    rwa [List.length_map, List.length_map] at h
  simp only [hashedFields, List.cons_append, List.nil_append, List.cons.injEq] at hfields
  obtain ⟨hid, hevent, hnode, htask, hrest⟩ := hfields
  obtain ⟨hactor, htime⟩ := List.append_inj hrest hlength
  have hactor : item.actor = item'.actor := by
    have hhead := congrArg List.head? hactor
    rwa [Option.head?_toList, Option.head?_toList] at hhead
  exact content_eq_iff.mpr ⟨hid, hevent, option_eq_of_shape hshape.node_id hnode,
    option_eq_of_shape hshape.task_id htask, hactor, repr_inj (List.singleton_inj.mp htime)⟩

/-! ## Chains -/

/-- The texts that are hashed along a chain. -/
def hashedTexts (audit : List Activity) : List String :=
  (hashed auditStep "GENESIS" audit).map fun p => canonical p.1 p.2

/-- No two of some texts have the same digest. -/
def CollisionFree (texts : List String) : Prop :=
  ∀ s ∈ texts, ∀ t ∈ texts, sha256 (bytes s) = sha256 (bytes t) → s = t

/-- Equal digests are digests of equal bytes. -/
theorem sha256_of_digest {s t : String} (h : digest s = digest t) :
    sha256 (bytes s) = sha256 (bytes t) := by
  have hread := hexPairs_flatMap (sha256 (bytes s))
  rw [← bytes_hexEncodeBytes, show hexEncodeBytes (sha256 (bytes s)) = _ from h, digest,
    bytes_hexEncodeBytes, hexPairs_flatMap] at hread
  exact (Option.some.inj (Except.ok.inj hread)).symm

/-- Without collisions, equal hashes come from equal links and equal joined fields. -/
theorem auditStep_binds {audit audit' : List Activity}
    (hfree : CollisionFree (hashedTexts audit ++ hashedTexts audit')) :
    ∀ p ∈ hashed auditStep "GENESIS" audit, ∀ p' ∈ hashed auditStep "GENESIS" audit',
      auditStep p.1 p.2 = auditStep p'.1 p'.2 → p.1 = p'.1 ∧ joined p.2 = joined p'.2 := by
  intro p hp p' hp' hstep
  rw [auditStep, auditStep, activityHash_eq, activityHash_eq] at hstep
  have hmem : canonical p.1 p.2 ∈ hashedTexts audit := List.mem_map.mpr ⟨p, hp, rfl⟩
  have hmem' : canonical p'.1 p'.2 ∈ hashedTexts audit' := List.mem_map.mpr ⟨p', hp', rfl⟩
  have hsha := sha256_of_digest hstep
  have htext : canonical p.1 p.2 = canonical p'.1 p'.2 :=
    hfree (canonical p.1 p.2) (List.mem_append_left _ hmem) (canonical p'.1 p'.2)
      (List.mem_append_right _ hmem') hsha
  have hgenesis : '\n' ∉ "GENESIS".toList := by decide
  have hchars := congrArg String.toList htext
  rw [toList_canonical, toList_canonical] at hchars
  obtain ⟨hjoined, hlink⟩ :=
    append_cons_inj_last (links_plain hgenesis p hp) (links_plain hgenesis p' hp') hchars
  exact ⟨String.toList_inj.mp hlink, hjoined⟩

/-- One record of a chain that is accepted: its hash is that of the chain, where it has one, and the
chain goes on behind it. -/
theorem chainValidFrom_cons {previous : String} {item : Activity} {rest : List Activity}
    (h : chainValidFrom previous (item :: rest) = true) :
    (item.hash ≠ "" → item.hash = auditStep previous item) ∧
      chainValidFrom (auditStep previous item) rest = true := by
  rw [chainValidFrom] at h
  split_ifs at h with hlinks hempty
  · exact ⟨fun hhash => absurd hempty hhash, h⟩
  · simp only [Bool.and_eq_true, decide_eq_true_eq, Bool.or_eq_true, not_and, not_or, not_not]
      at hlinks
    have hhash : item.hash = auditStep previous item := (hlinks hempty).2
    rw [hhash] at h
    exact ⟨fun _ => hhash, h⟩

/-- The last hash of a chain that is accepted is its last link. -/
theorem link_of_valid {previous : String} {audit : List Activity} {last : Activity}
    (hvalid : chainValidFrom previous audit = true) (hlast : audit.getLast? = some last)
    (hhash : last.hash ≠ "") : link auditStep previous audit = last.hash := by
  induction audit generalizing previous with
  | nil => cases hlast
  | cons item rest ih =>
    obtain ⟨hitem, hrest⟩ := chainValidFrom_cons hvalid
    cases rest with
    | nil =>
      obtain rfl : item = last := Option.some.inj hlast
      rw [link_cons, link_nil]
      exact (hitem hhash).symm
    | cons next rest =>
      rw [List.getLast?_cons_cons] at hlast
      rw [link_cons]
      exact ih hrest hlast

/-- Records at the same place have the same shape. -/
def SameShapes (audit audit' : List Activity) : Prop :=
  ∀ pair ∈ audit.zip audit', SameShape pair.1 pair.2

/-- Chains with the same joined fields have the same content exactly when they have the same
shapes. -/
theorem contents_eq_iff {audit audit' : List Activity}
    (h : List.Forall₂ (fun item item' => joined item = joined item') audit audit') :
    audit.map Activity.content = audit'.map Activity.content ↔ SameShapes audit audit' := by
  induction h with
  | nil => exact iff_of_true rfl (List.forall_mem_nil _)
  | cons hjoined _ ih =>
    rw [List.map_cons, List.map_cons, List.cons.injEq, ih]
    unfold SameShapes
    rw [List.zip_cons_cons, List.forall_mem_cons]
    exact and_congr_left' ⟨sameShape_of_content, fun hshape => content_of_joined hshape hjoined⟩

/-- **The last hash binds the chain, exactly when** records at the same place have the same
fields, with as many line ends each. -/
theorem chain_binds_iff {audit chain : List Activity} {last sealed : Activity}
    (hvalid : auditChainValid chain = true) (hlast : chain.getLast? = some last)
    (hsealed : (sealedRecords audit).getLast? = some sealed) (hhash : last.hash ≠ "")
    (hsame : last.hash = sealed.hash)
    (hfree : CollisionFree (hashedTexts (sealedRecords audit) ++ hashedTexts chain)) :
    (sealedRecords audit).map Activity.content = chain.map Activity.content ↔
      SameShapes (sealedRecords audit) chain := by
  have hlink : link auditStep "GENESIS" (sealedRecords audit) =
      link auditStep "GENESIS" chain := by
    have haccepted : chainValidFrom "GENESIS" (sealedRecords audit) = true :=
      chainValidFrom_sealed "GENESIS" audit
    calc link auditStep "GENESIS" (sealedRecords audit)
        = sealed.hash := link_of_valid haccepted hsealed (hsame ▸ hhash)
      _ = last.hash := hsame.symm
      _ = link auditStep "GENESIS" chain := (link_of_valid hvalid hlast hhash).symm
  exact contents_eq_iff (forall₂_of_link_eq auditStep_ne_genesis (auditStep_binds hfree) hlink)

/-! ## One record with two contents -/

/-- An administrator's record of a revocation. -/
def revokedBy : Activity where
  id := "activity_1"
  event := "node.revoked"
  node_id := some "n1"
  task_id := none
  actor := some "alice"
  timestamp := 1
  prev_hash := ""
  hash := ""

/-- The same record without the administrator. -/
def revokedByNobody : Activity := { revokedBy with task_id := some "\nalice", actor := none }

/-- The two records are hashed alike. -/
theorem canonical_revoked (prev_hash : String) :
    canonical prev_hash revokedBy = canonical prev_hash revokedByNobody := by
  have hjoined : joined revokedBy = joined revokedByNobody := by decide +kernel
  rw [← String.toList_inj, toList_canonical, toList_canonical]
  exact congrArg (· ++ '\n' :: prev_hash.toList) hjoined

/-- They have the same hash. -/
theorem activityHash_revoked (previous : String) :
    activityHash revokedByNobody previous = activityHash revokedBy previous := by
  rw [activityHash_eq, activityHash_eq, canonical_revoked]

/-- A chain of one record. -/
theorem sealedRecords_single (item : Activity) :
    sealedRecords [item] = [item.linked "GENESIS" (activityHash item "GENESIS")] := rfl

/-- Along both chains one text is hashed. -/
theorem collisionFree_revoked :
    CollisionFree (hashedTexts (sealedRecords [revokedBy]) ++
      hashedTexts (sealedRecords [revokedByNobody])) := by
  have hone : ∀ text ∈ hashedTexts (sealedRecords [revokedBy]) ++
      hashedTexts (sealedRecords [revokedByNobody]), text = canonical "GENESIS" revokedBy := by
    intro text htext
    rcases List.mem_append.mp htext with htext | htext
    · exact List.mem_singleton.mp htext
    · rw [canonical_revoked]
      exact List.mem_singleton.mp htext
  intro s hs t ht _
  rw [hone s hs, hone t ht]

/-- The last hash of both chains. -/
theorem last_revoked :
    (sealedRecords [revokedByNobody]).getLast? =
        some (revokedByNobody.linked "GENESIS" (activityHash revokedBy "GENESIS")) ∧
      (sealedRecords [revokedBy]).getLast? =
        some (revokedBy.linked "GENESIS" (activityHash revokedBy "GENESIS")) := by
  rw [sealedRecords_single, sealedRecords_single, activityHash_revoked]
  exact ⟨rfl, rfl⟩

/-- The chain of the one is measured against the chain of the other. -/
theorem chain_binds_revoked :
    (sealedRecords [revokedBy]).map Activity.content =
        (sealedRecords [revokedByNobody]).map Activity.content ↔
      SameShapes (sealedRecords [revokedBy]) (sealedRecords [revokedByNobody]) :=
  chain_binds_iff (chainValidFrom_sealed "GENESIS" [revokedByNobody]) last_revoked.1
    last_revoked.2 (auditStep_ne_empty "GENESIS" revokedBy) rfl collisionFree_revoked

section Example

attribute [local instance] compactSerde rfc8259_compactSerde

/-- A chain that can be read, is accepted, and ends with the hash of the other one, without the
administrator. -/
theorem chain_forged :
    (auditLines [revokedByNobody]).filterMap parseActivityLine = sealedRecords [revokedByNobody] ∧
      auditChainValid (sealedRecords [revokedByNobody]) = true ∧
      (sealedRecords [revokedByNobody]).getLast?.map Activity.hash =
        (sealedRecords [revokedBy]).getLast?.map Activity.hash ∧
      CollisionFree (hashedTexts (sealedRecords [revokedBy]) ++
        hashedTexts (sealedRecords [revokedByNobody])) ∧
      (sealedRecords [revokedBy]).map Activity.content ≠
        (sealedRecords [revokedByNobody]).map Activity.content := by
  have htimes : TimesFit [revokedByNobody] := List.forall_mem_singleton.mpr (by decide)
  refine ⟨parsed_auditLines htimes, chainValidFrom_sealed "GENESIS" _, ?_,
    collisionFree_revoked, fun heq => ?_⟩
  · rw [last_revoked.1, last_revoked.2]
    rfl
  · rw [sealedRecords_single, sealedRecords_single, List.map_singleton, List.map_singleton,
      List.singleton_inj, content_eq_iff] at heq
    obtain ⟨-, -, -, -, hactor, -⟩ := heq
    cases hactor

end Example

end NodeWe.ControlPlane
