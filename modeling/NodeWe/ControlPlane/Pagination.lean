import NodeWe.Paging
import NodeWe.ControlPlane.Delivery
import NodeWe.ControlPlane.AuditHistory
import NodeWe.ControlPlane.TaskText

/-!
# The export of the audit

An exporter asks for the audit page by page and follows `next`, while other requests append records.
The hashes of a page are computed from the whole list again, and a record that is appended changes
none of those in front of it. `pagination_complete` says that the pages are the list that
`GET /v1/audit` serves, and that the exporter's checks pass.
-/

namespace NodeWe.ControlPlane

open Text Transition Paging

/-! ## The pages of the control plane -/

/-- The values of the records that are served. -/
def auditValues (audit : List Activity) : List Value :=
  (sealedRecords audit).map fun item => activityValue item item.prev_hash item.hash

/-- The audit is served record by record. -/
theorem served_eq_values (audit : List Activity) :
    (List.range audit.length).map (sealedActivityJson audit) =
      (auditValues audit).map Value.text := by
  rw [served_eq_sealedTexts, auditValues, List.map_map]
  exact List.map_congr_left fun item _ => activityJsonWithChain_eq_text item _ _

/-- There are as many values as records. -/
theorem length_auditValues (audit : List Activity) : (auditValues audit).length = audit.length := by
  rw [auditValues, List.length_map, sealedRecords, length_sealedFromLink]

/-- The values that are served stay as records are appended. -/
theorem auditValues_grown {audit audit' : List Activity} (h : audit <+: audit') :
    auditValues audit <+: auditValues audit' := by
  unfold auditValues
  have hsealed := sealedRecords_prefix h
  exact hsealed.map _

/-- The path of a page. -/
def exportPath (start limit : ℕ) : String :=
  "/v1/audit/export?from=" ++ start.repr ++ "&limit=" ++ limit.repr

/-- The characters of the path of a page. -/
theorem toList_exportPath (start limit : ℕ) :
    (exportPath start limit).toList = "/v1/audit/export".toList ++ '?' ::
      (("from".toList ++ '=' :: start.repr.toList) ++
        '&' :: ("limit".toList ++ '=' :: limit.repr.toList)) := by
  have hfront : "/v1/audit/export?from=".toList =
      "/v1/audit/export".toList ++ '?' :: ("from".toList ++ ['=']) := by
    decide +kernel
  have hback : "&limit=".toList = '&' :: ("limit".toList ++ ['=']) := by
    decide +kernel
  calc (exportPath start limit).toList
    _ = "/v1/audit/export?from=".toList ++ start.repr.toList ++ "&limit=".toList ++
        limit.repr.toList := by
      unfold exportPath
      simp only [String.toList_append]
    _ = _ := by
      rw [hfront, hback]
      simp only [List.append_assoc, List.cons_append, List.nil_append]

/-- A digit is none of the separators of a query. -/
theorem not_mem_repr {c : Char} (hc : c.isDigit = false) (n : ℕ) : c ∉ n.repr.toList := by
  intro hmem
  rw [isDigit_of_mem_repr hmem] at hc
  cases hc

/-- The path names the start and the limit. -/
theorem queryNumber_exportPath {start limit : ℕ} (hstart : start ≤ u64Max) (hlimit : limit ≤ u64Max) :
    queryNumber (exportPath start limit) "from" 0 = start ∧
      queryNumber (exportPath start limit) "limit" 1000 = limit := by
  have hliterals : '?' ∉ "/v1/audit/export".toList ∧ '&' ∉ "from".toList ∧ '&' ∉ "limit".toList ∧
      '=' ∉ "from".toList ∧ '=' ∉ "limit".toList ∧ "from".toList ≠ "limit".toList := by
    decide +kernel
  obtain ⟨hquestion, hfrom, hlimits, hfromequals, hlimitequals, hne⟩ := hliterals
  have hand (name : String) (n : ℕ) (hname : '&' ∉ name.toList) :
      '&' ∉ name.toList ++ '=' :: n.repr.toList := by
    rw [List.mem_append, List.mem_cons, not_or, not_or]
    exact ⟨hname, by decide, not_mem_repr (by decide) n⟩
  have hitems (key : String) : queryField (exportPath start limit) key =
      ["from".toList ++ '=' :: start.repr.toList, "limit".toList ++ '=' :: limit.repr.toList].findSome?
        fun item => (splitOnce '=' item).bind fun pair =>
          if pair.1 = key.toList then some (String.ofList pair.2) else none := by
    rw [queryField, toList_exportPath, splitOnce_cons hquestion, Option.bind_some]
    dsimp only
    rw [List.splitOn_append_cons_self_of_not_mem (hand "from" start hfrom),
      List.splitOn_eq_singleton (hand "limit" limit hlimits)]
  constructor
  · rw [queryNumber, hitems, List.findSome?_cons, splitOnce_cons hfromequals, Option.bind_some]
    dsimp only
    rw [if_pos (Eq.refl "from".toList)]
    dsimp only
    rw [Option.bind_some, String.toList_ofList, parseUnsigned_repr, if_pos hstart, Option.getD_some]
  · rw [queryNumber, hitems, List.findSome?_cons, splitOnce_cons hfromequals, Option.bind_some]
    dsimp only
    rw [if_neg hne]
    dsimp only
    rw [List.findSome?_cons, splitOnce_cons hlimitequals, Option.bind_some]
    dsimp only
    rw [if_pos (Eq.refl "limit".toList)]
    dsimp only
    rw [Option.bind_some, String.toList_ofList, parseUnsigned_repr, if_pos hlimit, Option.getD_some]

/-- The value of a page. -/
def pageValue (audit : List Activity) (start limit : ℕ) : Value := .object
  [("protocol_version", .number (.ofNat protocolVersion)), ("from", .number (.ofNat start)),
    ("count", .number (.ofNat (page (auditValues audit) start limit).length)),
    ("next", ((next (auditValues audit) start limit).map fun n => .number (.ofNat n)).getD .null),
    ("records", .array (page (auditValues audit) start limit))]

/-- The records of a page. -/
theorem page_eq_texts (audit : List Activity) (start limit : ℕ) :
    (List.range' start (min (start + limit) audit.length - start)).map (sealedActivityJson audit) =
      (page (auditValues audit) start limit).map Value.text := by
  have hrange : List.range' start (min (start + limit) audit.length - start) =
      ((List.range audit.length).take (start + limit)).drop start := by
    rw [List.take_range, List.range_eq_range', List.drop_range', Nat.zero_add, Nat.mul_one]
  rw [hrange, List.map_drop, List.map_take, served_eq_values, page, List.map_drop, List.map_take]

/-- A page is printed as its value. -/
theorem render_auditPage (audit : List Activity) (start limit : ℕ) :
    (Reply.auditPage audit start (min (start + limit) audit.length)).render =
      (pageValue audit start limit).text := by
  have hkeys : ∀ key ∈ ["protocol_version", "from", "count", "next", "records"],
      (quoted key).toList = '"' :: (key.toList ++ ['"']) := by
    decide +kernel
  simp only [List.forall_mem_cons] at hkeys
  have hcount : (page (auditValues audit) start limit).length =
      min (start + limit) audit.length - start := by
    rw [page, List.length_drop, List.length_take, length_auditValues]
  have hnext : (((next (auditValues audit) start limit).map fun n => Value.number (.ofNat n)).getD
      .null).chars = (if min (start + limit) audit.length < audit.length then
        (min (start + limit) audit.length).repr else "null").toList := by
    unfold next
    rw [length_auditValues]
    by_cases hlt : start + limit < audit.length
    · rw [if_pos hlt, Nat.min_eq_left (Nat.le_of_lt hlt), if_pos hlt, Option.map_some,
        Option.getD_some, Value.chars, Number.text_ofNat]
    · rw [if_neg hlt, if_neg (by omega), Option.map_none, Option.getD_none, Value.chars]
  have hrecords : (jsonArray ((List.range' start (min (start + limit) audit.length - start)).map
      (sealedActivityJson audit))).toList =
        (Value.array (page (auditValues audit) start limit)).chars := by
    rw [page_eq_texts, jsonArray_eq_text, Value.text, String.toList_ofList]
  rw [Value.text, ← String.toList_inj, String.toList_ofList]
  unfold pageValue Reply.render
  simp only [String.toList_append, hrecords]
  -- The version and the records are texts like any other.
  generalize Value.array (page (auditValues audit) start limit) = records
  simp only [Value.chars, Value.memberChars, hnext, hcount, Number.text_ofNat, hkeys]
  generalize protocolVersion.repr.toList = shown
  simp

/-- `export_audit` answers with the page. -/
theorem exportAudit_exportPath {store : Store} {start limit : ℕ}
    (hstart : start ≤ store.audit.length) (hsize : store.audit.length ≤ u64Max)
    (hlimit : 1 ≤ limit ∧ limit ≤ 10000) :
    exportAudit (exportPath start limit) store =
      ⟨.ok, .auditPage store.audit start (min (start + limit) store.audit.length)⟩ := by
  have hmax : 10000 ≤ u64Max := by decide
  obtain ⟨hfrom, hlimits⟩ := queryNumber_exportPath (hstart.trans hsize) (hlimit.2.trans hmax)
  have hstop : min (saturatingAdd start limit) store.audit.length =
      min (start + limit) store.audit.length := by
    unfold saturatingAdd
    omega
  unfold exportAudit
  rw [hfrom, hlimits]
  dsimp only
  rw [if_neg (by simp; omega), if_neg (by omega), hstop]

/-! ## The exporter -/

/-- A page as the exporter reads it. -/
structure Page where
  next : Option ℕ
  records : List Value

/-- What `.next // empty` is read as: a number, or nothing where there is no further page. -/
def readNext (next : Option Value) : Option (Option ℕ) :=
  match next with
  | none | some .null => some none
  | some (.number (.posInt n)) => some (some n)
  | _ => none

/-- The exporter's reading of a body: the version is known, and the count is that of the records. -/
def readPage [Serde] (body : String) : Option Page := do
  let value ← Serde.fromStr body
  match value.get "protocol_version", value.get "count", value.get "records" with
  | some (.number (.posInt 1)), some (.number (.posInt count)), some (.array records) =>
    let next ← readNext (value.get "next")
    if count = records.length then some ⟨next, records⟩ else none
  | _, _, _ => none

/-- The exporter's check of the chain: each record names the hash of the one before, across pages
too. It returns the hash of the last record. -/
def followChain (previous_hash : String) : List Value → Option String
  | [] => some previous_hash
  | record :: rest =>
    if (record.get "prev_hash").bind Value.asStr = some previous_hash then
      ((record.get "hash").bind Value.asStr).bind fun hash => followChain hash rest
    else none

/-- An export that is under way: the store, where the exporter goes on, the pages that it has, and
the hash that the next record has to name. -/
structure Export where
  store : Store
  cursor : Option ℕ
  pages : List (List Value)
  previous_hash : String

/-- An export that begins. -/
def Export.start (store : Store) : Export := ⟨store, some 0, [], "GENESIS"⟩

/-- One round of the exporter's loop. It stops at an error, at a cursor that does not go forward, and
at a gap in the chain. -/
def Export.fetch [Serde] (limit : ℕ) (e : Export) : Option Export := do
  let start ← e.cursor
  let response := exportAudit (exportPath start limit) e.store
  if response.status ≠ .ok then none
  else
    let page ← readPage response.reply.render
    if page.next.any (· ≤ start) then none
    else
      let previous_hash ← followChain e.previous_hash page.records
      some ⟨e.store, page.next, e.pages ++ [page.records], previous_hash⟩

/-- What happens while an export is under way: another request, or the next round with a limit. -/
inductive Turn
  | handled (event : Event)
  | fetched (limit : ℕ)

/-! ## Its checks pass -/

/-- The check goes through a list part by part. -/
theorem followChain_append (previous_hash : String) (records more : List Value) :
    followChain previous_hash (records ++ more) =
      (followChain previous_hash records).bind fun hash => followChain hash more := by
  induction records generalizing previous_hash with
  | nil => rfl
  | cons record rest ih =>
    rw [List.cons_append, followChain, followChain]
    split_ifs
    · cases (record.get "hash").bind Value.asStr with
      | none => rfl
      | some hash => exact ih hash
    · rfl

/-- An audit that the code can have: its records are counted by a `usize`, and their times are of
`u64`. -/
structure AuditFits (audit : List Activity) : Prop where
  size : audit.length ≤ u64Max
  times : TimesFit audit

/-- The beginning of such an audit is one. -/
theorem AuditFits.prefix {audit audit' : List Activity} (h : AuditFits audit')
    (hbegins : audit <+: audit') : AuditFits audit :=
  ⟨hbegins.length_le.trans h.size, fun item hitem => h.times item (hbegins.subset hitem)⟩

/-- The values of an audit are within the limits of the parser. -/
theorem AuditFits.bounded {audit : List Activity} (h : AuditFits audit) :
    ∀ record ∈ auditValues audit, record.Bounded ∧ record.depth ≤ 1 := by
  intro record hrecord
  obtain ⟨item, hitem, rfl⟩ := List.mem_map.mp hrecord
  have htime : item.timestamp ≤ u64Max := h.times.sealed "GENESIS" item hitem
  refine ⟨bounded_activityValue htime _ _, ?_⟩
  have hmembers (s : Option String) : (optionalValue s).depth = 0 := (plain_optionalValue s).2
  simp [activityValue, Value.depth, Value.membersDepth, hmembers]

/-- The value of a page is within the limits of the parser. -/
theorem AuditFits.bounded_page {audit : List Activity} (h : AuditFits audit) {start : ℕ}
    (hstart : start ≤ audit.length) (limit : ℕ) : (pageValue audit start limit).Bounded := by
  have hsize := h.size
  have hrecords : ∀ record ∈ page (auditValues audit) start limit,
      record.Bounded ∧ record.depth ≤ 1 := fun record hrecord =>
    h.bounded record (List.mem_of_mem_take (List.mem_of_mem_drop hrecord))
  have hcount : (page (auditValues audit) start limit).length ≤ u64Max := by
    rw [page, List.length_drop, List.length_take, length_auditValues]
    omega
  have hnext : (((next (auditValues audit) start limit).map fun n => Value.number (.ofNat n)).getD
      .null).Whole ∧ (((next (auditValues audit) start limit).map fun n =>
        Value.number (.ofNat n)).getD .null).depth = 0 := by
    unfold next
    rw [length_auditValues]
    split_ifs with hlt
    · exact ⟨Value.whole_ofNat (by omega), rfl⟩
    · exact ⟨.null, rfl⟩
  have hitems : Value.itemsDepth (page (auditValues audit) start limit) ≤ 1 :=
    Value.itemsDepth_le.mpr fun record hrecord => (hrecords record hrecord).2
  constructor
  · refine .object _ (by simp) ?_
    simp only [List.forall_mem_cons, List.not_mem_nil, false_imp_iff, implies_true, and_true]
    exact ⟨Value.whole_ofNat (by decide), Value.whole_ofNat (hstart.trans hsize),
      Value.whole_ofNat hcount, hnext.1, .array _ fun record hrecord =>
        (hrecords record hrecord).1.whole⟩
  · simp only [pageValue, Value.depth, Value.membersDepth, hnext.2]
    omega

section Reading

variable [Serde] [Rfc8259]

/-- The records that are served, as they are read. -/
def readValues (audit : List Activity) : List Value :=
  (auditValues audit).map (Value.arrange Rfc8259.order)

/-- There are as many of them as records. -/
theorem length_readValues (audit : List Activity) : (readValues audit).length = audit.length := by
  rw [readValues, List.length_map, length_auditValues]

/-- They stay as records are appended. -/
theorem readValues_grown {audit audit' : List Activity} (h : audit <+: audit') :
    readValues audit <+: readValues audit' :=
  (auditValues_grown h).map _

/-- A page of them is read from a page. -/
theorem page_readValues (audit : List Activity) (start limit : ℕ) :
    page (readValues audit) start limit =
      (page (auditValues audit) start limit).map (Value.arrange Rfc8259.order) := by
  rw [page, page, readValues, List.map_drop, List.map_take]

/-- The page after it begins where it does. -/
theorem next_readValues (audit : List Activity) (start limit : ℕ) :
    next (readValues audit) start limit = next (auditValues audit) start limit := by
  rw [next, next, length_readValues, length_auditValues]

/-- The links of a record are read as they are. -/
theorem links_arrange (item : Activity) (prev_hash hash : String) :
    (((activityValue item prev_hash hash).arrange Rfc8259.order).get "prev_hash").bind Value.asStr =
        some prev_hash ∧
      (((activityValue item prev_hash hash).arrange Rfc8259.order).get "hash").bind Value.asStr =
        some hash := by
  unfold activityValue
  rw [Value.get_arrange Rfc8259.perm_order (by simp), Value.get_arrange Rfc8259.perm_order (by simp),
    bind_asStr_arrange, bind_asStr_arrange]
  simp [Value.get, Value.asStr]

/-- The records that are served pass it, up to every record. -/
theorem exists_followChain_take (previous_hash : String) (audit : List Activity) (n : ℕ) :
    ∃ hash, followChain previous_hash (((sealedFromLink previous_hash audit).map fun item =>
      (activityValue item item.prev_hash item.hash).arrange Rfc8259.order).take n) = some hash := by
  induction audit generalizing previous_hash n with
  | nil => exact ⟨previous_hash, by rw [sealedFromLink, List.map_nil, List.take_nil, followChain]⟩
  | cons item rest ih =>
    cases n with
    | zero => exact ⟨previous_hash, rfl⟩
    | succ n =>
      obtain ⟨hash, hrest⟩ := ih (activityHash item previous_hash) n
      refine ⟨hash, ?_⟩
      rw [sealedFromLink, List.map_cons, List.take_succ_cons, followChain, Activity.linked_prev_hash,
        Activity.linked_hash, (links_arrange _ _ _).1, (links_arrange _ _ _).2, if_pos rfl,
        Option.bind_some]
      exact hrest

/-- A page is read as what it is the value of. -/
theorem readPage_pageValue {audit : List Activity} (h : AuditFits audit) {start : ℕ}
    (hstart : start ≤ audit.length) (limit : ℕ) :
    readPage (pageValue audit start limit).text =
      some ⟨next (readValues audit) start limit, page (readValues audit) start limit⟩ := by
  have hsize := h.size
  have hbounded := h.bounded_page hstart limit
  obtain ⟨read, hread, hget⟩ := fromStr_object hbounded.whole.fits.denotes_text hbounded
  have hread : Serde.fromStr (pageValue audit start limit).text = some (.object read) := hread
  have hlength : (page (auditValues audit) start limit).length ≤ u64Max := by
    rw [page, List.length_drop, List.length_take, length_auditValues]
    omega
  have hversion : (Value.object read).get "protocol_version" = some (.number (.posInt 1)) := by
    rw [hget]
    simp [Value.get, Value.arrange, Number.ofNat, protocolVersion, u64Max]
  have hcount : (Value.object read).get "count" =
      some (.number (.posInt (page (readValues audit) start limit).length)) := by
    rw [hget, page_readValues, List.length_map]
    simp [Value.get, Value.arrange, Number.ofNat, hlength]
  have hrecords : (Value.object read).get "records" =
      some (.array (page (readValues audit) start limit)) := by
    rw [hget, page_readValues, ← Value.arrangeItems_eq_map]
    simp [Value.get, Value.arrange]
  have hnext : readNext ((Value.object read).get "next") =
      some (next (readValues audit) start limit) := by
    rw [hget, next_readValues]
    show readNext (some ((((next (auditValues audit) start limit).map fun n =>
      Value.number (.ofNat n)).getD .null).arrange Rfc8259.order)) = _
    unfold next
    rw [length_auditValues]
    split_ifs with hlt
    · rw [Option.map_some, Option.getD_some, Number.ofNat, if_pos (by omega), Value.arrange,
        readNext]
      all_goals exact fun _ h => by cases h
    · rfl
  rw [readPage, hread]
  simp [hversion, hcount, hrecords, hnext]

end Reading

/-! ## Runs of the exporter -/

section Exports

variable [Serde] [Ed25519]

/-- What happens to an export. -/
inductive Exports : Export → Turn → Export → Prop
  | handled (e : Export) (event : Event) (new : Store) (h : Handles e.store event new) :
      Exports e (.handled event) { e with store := new }
  | fetched (e e' : Export) (limit : ℕ) (hlimit : 1 ≤ limit ∧ limit ≤ 10000)
      (h : e.fetch limit = some e') : Exports e (.fetched limit) e'

variable [Rfc8259]

/-- The list that an export reads. -/
def Export.reading (e : Export) : Reading Value := ⟨readValues e.store.audit, e.cursor, e.pages⟩

/-- The pages of an export are sound, and their chain leads to the hash that comes next. -/
structure Export.Good (e : Export) : Prop where
  sound : Sound e.reading
  chained : followChain "GENESIS" e.pages.flatten = some e.previous_hash

variable {e e' : Export} {limit : ℕ}

omit [Ed25519] in
/-- So are those of one that begins. -/
theorem good_start (store : Store) : (Export.start store).Good := ⟨sound_start _, rfl⟩

omit [Ed25519] in
/-- A round goes on from the cursor, and passes its checks. -/
theorem Export.fetch_good {start : ℕ} (hgood : e.Good) (hcursor : e.cursor = some start)
    (haudit : AuditFits e.store.audit) (hlimit : 1 ≤ limit ∧ limit ≤ 10000) :
    ∃ hash, e.fetch limit = some ⟨e.store, next (readValues e.store.audit) start limit,
      e.pages ++ [page (readValues e.store.audit) start limit], hash⟩ ∧
      followChain "GENESIS"
        (e.pages ++ [page (readValues e.store.audit) start limit]).flatten = some hash := by
  obtain ⟨hwithin, hpages⟩ := hgood.sound.within start hcursor
  have hwithin : start ≤ e.store.audit.length := by
    rw [← length_readValues]
    exact hwithin
  have hpages : e.pages.flatten = (readValues e.store.audit).take start := hpages
  -- The chain up to the end of the page is one of the served list.
  obtain ⟨hash, hfollowed⟩ := exists_followChain_take "GENESIS" e.store.audit (start + limit)
  have hall : followChain "GENESIS"
      (e.pages ++ [page (readValues e.store.audit) start limit]).flatten = some hash := by
    rw [List.flatten_concat, hpages, take_append_page, readValues, auditValues, List.map_map]
    exact hfollowed
  have hchain : followChain e.previous_hash (page (readValues e.store.audit) start limit) =
      some hash := by
    rw [List.flatten_concat, followChain_append, hgood.chained, Option.bind_some] at hall
    exact hall
  have hforward : (next (readValues e.store.audit) start limit).any (· ≤ start) = false := by
    unfold next
    split_ifs
    · rw [Option.any_some, decide_eq_false_iff_not]
      omega
    · rfl
  refine ⟨hash, ?_, hall⟩
  have hresponse := exportAudit_exportPath hwithin haudit.size hlimit
  unfold Export.fetch
  rw [hcursor]
  simp [hresponse, render_auditPage, readPage_pageValue haudit hwithin, hforward, hchain]

omit [Ed25519] [Rfc8259] in
/-- A round needs a cursor, and leaves the store alone. -/
theorem Export.fetch_some (h : e.fetch limit = some e') :
    e'.store = e.store ∧ ∃ start, e.cursor = some start := by
  unfold Export.fetch at h
  cases hcursor : e.cursor with
  | none =>
    rw [hcursor] at h
    cases h
  | some start =>
    simp only [hcursor, Option.bind_eq_bind, Option.bind_some] at h
    split_ifs at h
    obtain ⟨page, -, h⟩ := Option.bind_eq_some_iff.mp h
    split_ifs at h
    obtain ⟨hash, -, h⟩ := Option.bind_eq_some_iff.mp h
    obtain rfl := Option.some.inj h
    exact ⟨rfl, start, rfl⟩

/-- The move of the reading. -/
def Turn.move : Turn → Move
  | handled _ => .grown
  | fetched limit => .fetched limit

variable {turn : Turn} {turns : List Turn}

omit [Rfc8259] in
/-- Records are only appended. -/
theorem Exports.audit_grown (h : Exports e turn e') : e.store.audit <+: e'.store.audit := by
  cases h with
  | handled event new hhandles =>
    cases hhandles with
    | handled st env arm => exact Effect.audit_prefix (arm.run_effect st env e.store)
  | fetched _ _ _ h =>
    rw [(Export.fetch_some h).1]

/-- What happens to an export happens to its reading, and keeps it good. -/
theorem Exports.step (h : Exports e turn e') (hgood : e.Good)
    (haudit : AuditFits e'.store.audit) : Step e.reading turn.move e'.reading ∧ e'.Good := by
  have hstep : Step e.reading turn.move e'.reading ∧
      followChain "GENESIS" e'.pages.flatten = some e'.previous_hash := by
    cases h with
    | handled event new hhandles =>
      have hgrown := (Exports.handled e event new hhandles).audit_grown
      exact ⟨.grown _ _ _ _ (readValues_grown hgrown), hgood.chained⟩
    | fetched _ limit hlimit h =>
      obtain ⟨hstore, start, hcursor⟩ := Export.fetch_some h
      rw [hstore] at haudit
      obtain ⟨hash, hfetched, hchained⟩ := Export.fetch_good hgood hcursor haudit hlimit
      obtain rfl := Option.some.inj (h.symm.trans hfetched)
      refine ⟨?_, hchained⟩
      unfold Export.reading
      rw [hcursor]
      exact .fetched _ start _ limit (by omega)
  exact ⟨hstep.1, hstep.1.sound hgood.sound, hstep.2⟩

/-- Every run of the exporter keeps it good. -/
theorem Export.Good.of_run {init : Export} (hinit : init.Good) (hrun : Run Exports init turns e)
    (haudit : AuditFits e.store.audit) : e.Good := by
  refine hrun.invariant (P := fun e => AuditFits e.store.audit → e.Good) (fun _ => hinit) ?_ haudit
  intro e turn e' ih hstep haudit
  have hbefore := haudit.prefix hstep.audit_grown
  exact (hstep.step (ih hbefore) haudit).2

/-- What an exporter has: the beginning of the audit up to its cursor, in order and linked. No round
fails, the last round brings the whole audit, and rounds alone come to the last one. -/
structure Exported (e : Export) : Prop where
  so_far : ∀ start, e.cursor = some start →
    e.pages.flatten = (readValues e.store.audit).take start
  finished : e.cursor = none → e.pages.flatten <+: readValues e.store.audit
  chained : followChain "GENESIS" e.pages.flatten = some e.previous_hash
  goes_on : ∀ start limit, e.cursor = some start → 1 ≤ limit → limit ≤ 10000 →
    ∃ e', e.fetch limit = some e'
  completes : ∀ limit e', 1 ≤ limit → limit ≤ 10000 → e.fetch limit = some e' → e'.cursor = none →
    e'.pages.flatten = readValues e.store.audit
  finishes : ∀ start (limits : ℕ → ℕ), e.cursor = some start →
    (∀ i, 1 ≤ limits i ∧ limits i ≤ 10000) → ∃ k ≤ e.store.audit.length + 1, ∃ e',
      Run Exports e ((List.range k).map fun i => .fetched (limits i)) e' ∧ e'.cursor = none ∧
        e'.store = e.store ∧ e'.pages.flatten = readValues e.store.audit

/-- A turn that fetches a page. -/
def Turn.Fetches (turn : Turn) : Prop := ∃ limit, turn = .fetched limit ∧ 1 ≤ limit ∧ limit ≤ 10000

/-- A page that the reading can go on with is fetched. -/
theorem Exports.of_step {reading : Reading Value} (hgood : e.Good)
    (haudit : AuditFits e.store.audit) (hturn : turn.Fetches)
    (hstep : Step e.reading turn.move reading) :
    ∃ e', Exports e turn e' ∧ e'.reading = reading ∧ e'.Good ∧ e'.store = e.store := by
  obtain ⟨limit, rfl, hlimit⟩ := hturn
  cases hcursor : e.cursor with
  | none =>
    unfold Export.reading at hstep
    rw [hcursor] at hstep
    cases hstep
  | some start =>
    obtain ⟨hash, hfetched, -⟩ := Export.fetch_good hgood hcursor haudit hlimit
    have hexports := Exports.fetched e _ limit hlimit hfetched
    refine ⟨_, hexports, ?_, (hexports.step hgood haudit).2, rfl⟩
    unfold Export.reading at hstep ⊢
    rw [hcursor] at hstep
    cases hstep with
    | fetched => rfl

/-- Rounds alone come to the last one, which completes the audit. -/
theorem Export.Good.finishes {start : ℕ} {limits : ℕ → ℕ} (hgood : e.Good)
    (haudit : AuditFits e.store.audit) (hcursor : e.cursor = some start)
    (hlimits : ∀ i, 1 ≤ limits i ∧ limits i ≤ 10000) : ∃ k ≤ e.store.audit.length + 1, ∃ e',
      Run Exports e ((List.range k).map fun i => .fetched (limits i)) e' ∧ e'.cursor = none ∧
        e'.store = e.store ∧ e'.pages.flatten = readValues e.store.audit := by
  have hpages : e.pages.flatten = (readValues e.store.audit).take start :=
    (hgood.sound.within start hcursor).2
  have hroom : (readValues e.store.audit).length - start ≤ e.store.audit.length := by
    rw [length_readValues]
    omega
  have hpositive : ∀ i, 0 < limits i := fun i => (hlimits i).1
  obtain ⟨k, hk, pages, hread, hall⟩ := exists_run_of_cursor _ _ hroom hpages hpositive
  have hlabels : ((List.range k).map fun i => Turn.fetched (limits i)).map Turn.move =
      (List.range k).map fun i => .fetched (limits i) := by
    rw [List.map_map]
    rfl
  have hstart : e.reading = ⟨readValues e.store.audit, some start, e.pages⟩ := by
    unfold Export.reading
    rw [hcursor]
  rw [← hlabels, ← hstart] at hread
  -- The store does not change while there are only rounds of the exporter.
  obtain ⟨e', hrun', hreading, -, hstore⟩ : ∃ e', Run Exports e
      ((List.range k).map fun i => .fetched (limits i)) e' ∧
        e'.reading = ⟨readValues e.store.audit, none, pages⟩ ∧ e'.Good ∧ e'.store = e.store := by
    refine Run.lifts (P := fun e' => e'.Good ∧ e'.store = e.store) (Q := Turn.Fetches)
      Export.reading Turn.move ?_ ⟨hgood, rfl⟩ ?_ hread
    · rintro e₁ turn reading ⟨hgood₁, hstore₁⟩ hturn hstep
      obtain ⟨e₂, hexports, hview, hgood₂, hstore₂⟩ :=
        Exports.of_step hgood₁ (by rw [hstore₁]; exact haudit) hturn hstep
      exact ⟨e₂, hexports, hview, hgood₂, hstore₂.trans hstore₁⟩
    · intro turn hturn
      obtain ⟨i, -, rfl⟩ := List.mem_map.mp hturn
      exact ⟨limits i, rfl, hlimits i⟩
  refine ⟨k, ?_, e', hrun', congrArg Reading.cursor hreading, hstore, ?_⟩
  · exact hk
  · rw [← hall]
    exact congrArg (List.flatten ∘ Reading.pages) hreading

omit [Ed25519] in
/-- `GET /v1/audit` serves the values. -/
theorem render_audit {audit : List Activity} (haudit : AuditFits audit) :
    Serde.fromStr (Reply.audit audit).render = some (.array (readValues audit)) := by
  have hbounded : (Value.array (auditValues audit)).Bounded := by
    refine ⟨.array _ fun record hrecord => (haudit.bounded record hrecord).1.whole, ?_⟩
    have hitems : Value.itemsDepth (auditValues audit) ≤ 1 :=
      Value.itemsDepth_le.mpr fun record hrecord => (haudit.bounded record hrecord).2
    rw [Value.depth]
    omega
  have htext : (Reply.audit audit).render = (Value.array (auditValues audit)).text := by
    show jsonArray ((List.range audit.length).map (sealedActivityJson audit)) = _
    rw [served_eq_values, jsonArray_eq_text]
  have hread := Rfc8259.reads hbounded.whole.fits.denotes_text hbounded
  rw [String.ofList_toList, Value.arrange, Value.arrangeItems_eq_map] at hread
  rw [htext, hread]
  rfl

/-- **The pages of an export are the audit.** Whatever limits the exporter asks for and whatever
requests come in between, as long as the audit is one that the code can have. -/
theorem pagination_complete {store : Store} (hrun : Run Exports (Export.start store) turns e)
    (haudit : AuditFits e.store.audit) :
    Serde.fromStr (Reply.audit e.store.audit).render = some (.array (readValues e.store.audit)) ∧
      Exported e := by
  have hgood := (good_start store).of_run hrun haudit
  refine ⟨render_audit haudit, fun start hcursor => (hgood.sound.within start hcursor).2,
    hgood.sound.finished, hgood.chained, ?_, ?_, ?_⟩
  · intro start limit hcursor hpos hmax
    obtain ⟨hash, hfetched, -⟩ := Export.fetch_good hgood hcursor haudit ⟨hpos, hmax⟩
    exact ⟨_, hfetched⟩
  · intro limit e' hpos hmax hfetched hdone
    have hstore := (Export.fetch_some hfetched).1
    have hstep := (Exports.fetched e e' limit ⟨hpos, hmax⟩ hfetched).step hgood
      (by rw [hstore]; exact haudit)
    have hall : e'.pages.flatten = readValues e'.store.audit :=
      hstep.1.complete hgood.sound hdone
    rw [hall, hstore]
  · intro start limits hcursor hlimits
    exact hgood.finishes haudit hcursor hlimits

end Exports

section Example

attribute [local instance] compactSerde rfc8259_compactSerde noKeys

/-- A store with two records. -/
def twoRecords : Store := { Store.empty with
  audit := [⟨"a", "node.created", some "n", none, some "admin", 5, "", ""⟩,
    ⟨"b", "node.revoked", some "n", none, some "admin", 6, "", ""⟩] }

/-- After a page of one record the exporter goes on with the other one. -/
theorem pagination_complete_two : ∃ e, Run Exports (Export.start twoRecords) [.fetched 1] e ∧
    e.cursor = some 1 ∧ Exported e := by
  have haudit : AuditFits twoRecords.audit := ⟨by decide, by simp [TimesFit, twoRecords]; decide⟩
  have hlimit : 1 ≤ 1 ∧ 1 ≤ 10000 := by decide
  obtain ⟨hash, hfetched, -⟩ := Export.fetch_good (good_start twoRecords) rfl haudit hlimit
  have hrun := Run.single (Exports.fetched _ _ 1 hlimit hfetched)
  have hnext : next (readValues twoRecords.audit) 0 1 = some 1 := by
    rw [next, length_readValues]
    rfl
  exact ⟨_, hrun, hnext, (pagination_complete hrun haudit).2⟩

end Example

end NodeWe.ControlPlane
