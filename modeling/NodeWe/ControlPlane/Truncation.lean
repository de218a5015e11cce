import NodeWe.JsonCut
import NodeWe.ControlPlane.AuditHistory

/-!
# Cut snapshots

A snapshot ends with its audit section, and nothing in it says how many records there are. A text
that is cut behind its first line reads as a store with fewer audit records, whose chain is accepted
as it stands. Only a cut within the first line is refused, and only the last line end is not missed.
-/

namespace NodeWe.ControlPlane

open Text Transition

/-! ## Cut texts -/

/-- Some lines with their line ends. -/
def ended (ls : List (List Char)) : List Char := ls.flatMap (· ++ ['\n'])

/-- A line has no line ends. -/
def IsLine (l : List Char) : Prop := ∀ c ∈ l, c ≠ '\n' ∧ c ≠ '\r'

/-- A literal is a line. -/
theorem isLine_of_decide {l : List Char}
    (h : l.all (fun c => c ≠ '\n' && c ≠ '\r') = true) : IsLine l := by
  intro c hc
  simpa using List.all_eq_true.mp h c hc

/-- The first line comes first. -/
theorem ended_cons (l : List Char) (ls : List (List Char)) :
    ended (l :: ls) = l ++ '\n' :: ended ls := by
  rw [ended, List.flatMap_cons, List.append_assoc]
  rfl

/-- Lines that are joined are joined with their line ends. -/
theorem ended_append (ls ls' : List (List Char)) : ended (ls ++ ls') = ended ls ++ ended ls' :=
  List.flatMap_append

/-- A text of lines that stops within a line has these lines, and what there is of the last one. -/
theorem lines_ended_append {ls : List (List Char)} (hls : ∀ l ∈ ls, IsLine l) {cut : List Char}
    (hcut : '\n' ∉ cut) : lines (ended ls ++ cut) = ls ++ if cut = [] then [] else [cut] := by
  induction ls with
  | nil =>
    have hpieces : cut.splitOn '\n' = [cut] := List.splitOn_eq_singleton hcut
    have hone : lines cut = if cut = [] then [] else [cut] := by
      unfold lines
      rw [hpieces]
      rfl
    exact hone
  | cons l ls ih =>
    rw [List.forall_mem_cons] at hls
    have hfeed : '\n' ∉ l := fun hc => (hls.1 _ hc).1 rfl
    have hreturn : l.getLast? ≠ some '\r' := fun hlast =>
      (hls.1 _ (List.mem_of_mem_getLast? (Option.mem_def.mpr hlast))).2 rfl
    rw [ended_cons, List.append_assoc, List.cons_append, lines_cons hfeed, stripCr, if_neg hreturn,
      ih hls.2, List.cons_append]

/-- A text of lines is cut behind its end or within a line. -/
theorem prefix_ended {ls : List (List Char)} {text : List Char} (h : text <+: ended ls) :
    ∃ whole cut, text = ended whole ++ cut ∧
      (whole = ls ∧ cut = [] ∨ ∃ line rest, ls = whole ++ line :: rest ∧ cut <+: line) := by
  induction ls generalizing text with
  | nil =>
    obtain rfl := List.prefix_nil.mp h
    exact ⟨[], [], rfl, .inl ⟨rfl, rfl⟩⟩
  | cons l ls ih =>
    rw [ended_cons, ← List.singleton_append, ← List.append_assoc] at h
    have hbehind {behind : List Char} (hbehind : behind <+: ended ls) :
        ∃ whole cut, l ++ ['\n'] ++ behind = ended whole ++ cut ∧
          (whole = l :: ls ∧ cut = [] ∨
            ∃ line rest, l :: ls = whole ++ line :: rest ∧ cut <+: line) := by
      obtain ⟨whole, cut, rfl, hwhere⟩ := ih hbehind
      refine ⟨l :: whole, cut, by rw [ended_cons]; simp, ?_⟩
      rcases hwhere with ⟨rfl, rfl⟩ | ⟨line, rest, rfl, hcut⟩
      · exact .inl ⟨rfl, rfl⟩
      · exact .inr ⟨line, rest, rfl, hcut⟩
    rcases List.prefix_or_prefix_of_prefix h (List.prefix_append _ _) with hshort | ⟨behind, rfl⟩
    · rcases List.prefix_concat_iff.mp hshort with rfl | hwithin
      · have hnothing := hbehind (List.nil_prefix (l := ended ls))
        rwa [List.append_nil] at hnothing
      · exact ⟨[], text, rfl, .inr ⟨l, ls, rfl, hwithin⟩⟩
    · exact hbehind ((List.prefix_append_right_inj _).mp h)

/-! ## The lines of a snapshot -/

/-- The lines of a snapshot between its first line and its audit section. -/
def bodyLines (store : Store) : List (List Char) :=
  "[NODES]".toList :: store.nodes.map (fun n => rowLine (nodeFields n)) ++
    "[TASKS]".toList :: store.tasks.map (fun t => rowLine (taskFields t)) ++
    "[GRANTS]".toList :: store.grants.map (fun g => rowLine (grantFields g)) ++
    "[APPROVALS]".toList :: store.approvals.map (fun a => rowLine (approvalFields a))

/-- The heading of the nodes is the first of them. -/
theorem bodyLines_first (store : Store) : ∃ rest, bodyLines store = "[NODES]".toList :: rest := by
  unfold bodyLines
  rw [List.append_assoc, List.append_assoc, List.cons_append]
  exact ⟨_, rfl⟩

/-- The lines of a snapshot. -/
def snapshotLines (store : Store) : List (List Char) :=
  "NODEWE-SNAPSHOT-V1".toList ::
    (bodyLines store ++ "[AUDIT]".toList :: auditLines store.audit)

/-- Rows are lines. -/
theorem toList_rows {α : Type} (xs : List α) (fields : α → List String) :
    (String.join (xs.map fun x => row (fields x))).toList =
      ended (xs.map fun x => rowLine (fields x)) := by
  induction xs with
  | nil => rfl
  | cons x xs ih =>
    rw [List.map_cons, String.join_cons, String.toList_append, toList_row, ih, List.map_cons,
      ended_cons, List.append_assoc, List.singleton_append]

/-- The audit section consists of its lines. -/
theorem toList_auditJsonl (audit : List Activity) :
    (auditJsonl audit).toList = ended (auditLines audit) := by
  have hjoined (ls : List (List Char)) (hne : ls ≠ []) :
      ['\n'].intercalate ls ++ ['\n'] = ended ls := by
    induction ls with
    | nil => exact absurd rfl hne
    | cons l rest ih =>
      cases rest with
      | nil => simp [ended]
      | cons l' rest =>
        rw [List.intercalate_cons_cons, List.append_assoc, List.append_assoc,
          ih (List.cons_ne_nil _ _), List.singleton_append, ended_cons l]
  unfold auditJsonl
  by_cases h : audit = []
  · subst h
    rfl
  · have hne : auditLines audit ≠ [] := by
      simpa [auditLines, List.map_eq_nil_iff] using h
    rw [if_neg h, String.toList_append, String.toList_intercalate, List.map_map]
    exact hjoined _ hne

/-- A snapshot consists of its lines. -/
theorem toList_snapshotText_lines (store : Store) :
    (snapshotText store).toList = ended (snapshotLines store) := by
  rw [toList_snapshotText]
  simp only [snapshotLines, bodyLines, ended_cons, ended_append, toList_rows, toList_auditJsonl,
    List.append_assoc, List.cons_append]

/-- A row of plain fields is a line, and is not the heading of the audit section where it is none at
all. -/
theorem rows_plain {α : Type} {xs : List α} {fields : α → List String}
    (hplain : ∀ x, ∀ f ∈ fields x, Plain f)
    (hheading : ∀ x, isHeading (rowLine (fields x)) = false) :
    ∀ l ∈ xs.map fun x => rowLine (fields x), IsLine l ∧ l ≠ "[AUDIT]".toList := by
  intro l hl
  obtain ⟨x, -, rfl⟩ := List.mem_map.mp hl
  refine ⟨fun c hc => ?_, fun heq => ?_⟩
  · rcases mem_rowLine hc with rfl | ⟨f, hf, hc⟩
    · decide
    · exact (hplain x f hf c hc).2
  · have hnone := hheading x
    rw [heq] at hnone
    exact absurd hnone (by decide)

/-- The lines before the audit section are lines, and none is its heading. -/
theorem bodyLines_plain (store : Store) :
    ∀ l ∈ bodyLines store, IsLine l ∧ l ≠ "[AUDIT]".toList := by
  have hheadings : ∀ heading ∈ ["[NODES]", "[TASKS]", "[GRANTS]", "[APPROVALS]"],
      heading.toList.all (fun c => c ≠ '\n' && c ≠ '\r') = true ∧
        heading.toList ≠ "[AUDIT]".toList := by decide
  simp only [List.forall_mem_cons] at hheadings
  obtain ⟨hnodes, htasks, hgrants, happrovals, -⟩ := hheadings
  simp only [bodyLines, List.forall_mem_append, List.forall_mem_cons]
  refine ⟨⟨⟨?_, ?_⟩, ?_⟩, ?_⟩
  · exact ⟨⟨isLine_of_decide hnodes.1, hnodes.2⟩, rows_plain plain_nodeFields isHeading_nodeFields⟩
  · exact ⟨⟨isLine_of_decide htasks.1, htasks.2⟩, rows_plain plain_taskFields isHeading_taskFields⟩
  · exact ⟨⟨isLine_of_decide hgrants.1, hgrants.2⟩,
      rows_plain plain_grantFields isHeading_grantFields⟩
  · exact ⟨⟨isLine_of_decide happrovals.1, happrovals.2⟩,
      rows_plain plain_approvalFields isHeading_approvalFields⟩

/-- The lines of the audit section are lines. -/
theorem auditLines_plain (audit : List Activity) : ∀ l ∈ auditLines audit, IsLine l := by
  intro l hl
  obtain ⟨item, prev_hash, hash, hline⟩ := mem_auditLines hl
  rw [hline]
  exact oneLine_activityJsonWithChain item prev_hash hash

/-- Every line of a snapshot is one. -/
theorem snapshotLines_plain (store : Store) : ∀ l ∈ snapshotLines store, IsLine l := by
  have hfirst : IsLine "NODEWE-SNAPSHOT-V1".toList := isLine_of_decide (by decide)
  have haudit : IsLine "[AUDIT]".toList := isLine_of_decide (by decide)
  simp only [snapshotLines, List.forall_mem_cons, List.forall_mem_append]
  exact ⟨hfirst, fun l hl => (bodyLines_plain store l hl).1, haudit, auditLines_plain store.audit⟩

/-! ## The audit records that are read -/

section Reading

variable [Serde]

/-- The audit records that the loop of `parse_snapshot` finds in some lines. -/
def auditRead : List Char → List (List Char) → List Activity
  | _, [] => []
  | section_name, line :: rest =>
    if isHeading line then auditRead line rest
    else (if section_name = "[AUDIT]".toList then (parseActivityLine line).toList else []) ++
      auditRead section_name rest

/-- One line adds to the audit records in the audit section only. -/
theorem parseRecord_audit {env : Env} {section_name line : List Char} {store store' : Store}
    (h : parseRecord env section_name line store = .ok store') :
    store'.audit = store.audit ++
      if section_name = "[AUDIT]".toList then (parseActivityLine line).toList else [] := by
  by_cases haudit : section_name = "[AUDIT]".toList
  · rw [if_pos haudit]
    rw [haudit, parseRecord, if_neg (by decide), if_neg (by decide), if_neg (by decide),
      if_neg (by decide), if_pos rfl] at h
    rw [← Except.ok.inj h]
  · rw [if_neg haudit, List.append_nil]
    unfold parseRecord at h
    split_ifs at h
    · obtain ⟨node, -, rfl⟩ := map_eq_ok h
      rfl
    · obtain ⟨task, -, rfl⟩ := map_eq_ok h
      rfl
    · rw [← Except.ok.inj h]
    · obtain ⟨approval, -, rfl⟩ := map_eq_ok h
      rfl
    · rw [← Except.ok.inj h]

/-- The loop finds these audit records. -/
theorem parseRecords_auditRead {env : Env} {section_name : List Char} {store store' : Store}
    {ls : List (List Char)} (h : parseRecords env section_name store ls = .ok store') :
    store'.audit = store.audit ++ auditRead section_name ls := by
  induction ls generalizing section_name store with
  | nil =>
    rw [parseRecords] at h
    rw [auditRead, List.append_nil, Except.ok.inj h]
  | cons line rest ih =>
    rw [parseRecords] at h
    rw [auditRead]
    by_cases hheading : isHeading line = true
    · rw [if_pos hheading] at h ⊢
      exact ih h
    · rw [if_neg hheading] at h ⊢
      split at h
      · cases h
      · next store₁ hrecord => rw [ih h, parseRecord_audit hrecord, List.append_assoc]

/-- Before the audit section there are no audit records, whatever the lines. -/
theorem auditRead_before {section_name : List Char} {ls : List (List Char)}
    (hsection : section_name ≠ "[AUDIT]".toList) (hls : ∀ l ∈ ls, l ≠ "[AUDIT]".toList) :
    ∃ last ≠ "[AUDIT]".toList, ∀ rest, auditRead section_name (ls ++ rest) = auditRead last rest := by
  induction ls generalizing section_name with
  | nil => exact ⟨section_name, hsection, fun _ => rfl⟩
  | cons l ls ih =>
    rw [List.forall_mem_cons] at hls
    by_cases hheading : isHeading l = true
    · obtain ⟨last, hlast, hread⟩ := ih hls.1 hls.2
      refine ⟨last, hlast, fun rest => ?_⟩
      rw [List.cons_append, auditRead, if_pos hheading, hread]
    · obtain ⟨last, hlast, hread⟩ := ih hsection hls.2
      refine ⟨last, hlast, fun rest => ?_⟩
      rw [List.cons_append, auditRead, if_neg hheading, if_neg hsection, hread, List.nil_append]

/-- One more line before the audit section is no audit record, even its heading. -/
theorem auditRead_one {section_name : List Char} (hsection : section_name ≠ "[AUDIT]".toList)
    (cut : List Char) : auditRead section_name (if cut = [] then [] else [cut]) = [] := by
  split_ifs
  · rfl
  · rw [auditRead, auditRead, if_neg hsection]
    split_ifs <;> rfl

/-- In the audit section every line may be an audit record. -/
theorem auditRead_audit {ls : List (List Char)} (h : ∀ l ∈ ls, isHeading l = false) :
    auditRead "[AUDIT]".toList ls = ls.filterMap parseActivityLine := by
  induction ls with
  | nil => rfl
  | cons l ls ih =>
    rw [List.forall_mem_cons] at h
    rw [auditRead, h.1, if_neg Bool.false_ne_true, if_pos rfl, ih h.2, List.filterMap_cons]
    cases parseActivityLine l <;> rfl

/-! ## Cut audit sections -/

omit [Serde] in
/-- The characters of a record. -/
theorem toList_sealedText (item : Activity) :
    (sealedText item).toList = (activityValue item item.prev_hash item.hash).chars := by
  rw [sealedText, activityJsonWithChain_eq_text, Value.text, String.toList_ofList]

omit [Serde] in
/-- A record is not empty, and no part of it is a heading. -/
theorem sealedText_begins (item : Activity) :
    (sealedText item).toList ≠ [] ∧
      ∀ cut, cut <+: (sealedText item).toList → isHeading cut = false := by
  have hbrace : ∃ rest, (sealedText item).toList = '\x7b' :: rest := by
    rw [toList_sealedText, activityValue, Value.chars]
    exact ⟨_, rfl⟩
  obtain ⟨rest, hrest⟩ := hbrace
  rw [hrest]
  refine ⟨List.cons_ne_nil _ _, fun cut hcut => ?_⟩
  cases cut with
  | nil => rfl
  | cons c cut =>
    obtain ⟨rfl, -⟩ := List.cons_prefix_cons.mp hcut
    rfl

/-- A record that is cut off is not read. -/
theorem parseActivityLine_cut [RefusesCut] {item : Activity} {cut : List Char}
    (hcut : cut <+: (sealedText item).toList) (hne : cut ≠ (sealedText item).toList) :
    parseActivityLine cut = none := by
  rw [toList_sealedText] at hcut hne
  have hrefused : Serde.fromStr (String.ofList cut) = none :=
    RefusesCut.cut _ (fits_activityValue item item.prev_hash item.hash) cut hcut hne
  have hobject : parseJsonObject (String.ofList cut) = none := by
    rw [parseJsonObject, hrefused]
  unfold parseActivityLine
  simp [jsonField, hobject]

variable [Rfc8259]

/-- Records that are whole are read. -/
theorem auditRead_sealedText {records : List Activity} (h : TimesFit records) :
    auditRead "[AUDIT]".toList (records.map fun item => (sealedText item).toList) = records := by
  have hsome : ∀ item ∈ records, parseActivityLine (sealedText item).toList = some item :=
    fun item hitem => parseActivityLine_text item _ _ (h item hitem)
  have hheading : ∀ l ∈ records.map fun item => (sealedText item).toList, isHeading l = false := by
    intro l hl
    obtain ⟨item, -, rfl⟩ := List.mem_map.mp hl
    exact (sealedText_begins item).2 _ List.prefix_rfl
  rw [auditRead_audit hheading, List.filterMap_map]
  exact (List.filterMap_congr hsome).trans List.filterMap_some

omit [Rfc8259] in
/-- In the audit section the lines are read one by one. -/
theorem auditRead_append {ls ls' : List (List Char)} (h : ∀ l ∈ ls, isHeading l = false) :
    auditRead "[AUDIT]".toList (ls ++ ls') =
      auditRead "[AUDIT]".toList ls ++ auditRead "[AUDIT]".toList ls' := by
  induction ls with
  | nil => rfl
  | cons l ls ih =>
    rw [List.forall_mem_cons] at h
    simp only [List.cons_append, auditRead, h.1, Bool.false_eq_true, if_false, if_true, ih h.2,
      List.append_assoc]

/-- A section of whole records and a part of the next one reads as the whole records; where all of
the next one is there, it is read too. -/
theorem auditRead_records [RefusesCut] {records others : List Activity} {item : Activity}
    {cut : List Char} (htimes : TimesFit (records ++ item :: others))
    (hcut : cut <+: (sealedText item).toList)
    (hmissing : cut ≠ (sealedText item).toList ∨ others ≠ []) :
    ∃ j < (records ++ item :: others).length,
      auditRead "[AUDIT]".toList ((records.map fun item => (sealedText item).toList) ++
        if cut = [] then [] else [cut]) = (records ++ item :: others).take j := by
  obtain ⟨hrecords, hitem⟩ := List.forall_mem_append.mp htimes
  have hlength : (records ++ item :: others).length = records.length + others.length + 1 := by
    rw [List.length_append, List.length_cons]
    omega
  by_cases hwhole : cut = (sealedText item).toList
  · -- The line at the cut is whole, and lines behind it are missing.
    have hothers : 0 < others.length :=
      List.length_pos_of_ne_nil (hmissing.resolve_left fun h => h hwhole)
    have hne : cut ≠ [] := by
      rw [hwhole]
      exact (sealedText_begins item).1
    have hlast : TimesFit (records ++ [item]) := List.forall_mem_append.mpr
      ⟨hrecords, List.forall_mem_singleton.mpr (hitem item List.mem_cons_self)⟩
    have hread := auditRead_sealedText hlast
    rw [List.map_append, List.map_singleton, ← hwhole] at hread
    refine ⟨records.length + 1, by omega, ?_⟩
    rw [if_neg hne, hread, List.take_length_add_append]
    rfl
  · -- The line at the cut is read as no record.
    have hheading : ∀ l ∈ records.map fun item => (sealedText item).toList,
        isHeading l = false := by
      intro l hl
      obtain ⟨item, -, rfl⟩ := List.mem_map.mp hl
      exact (sealedText_begins item).2 _ List.prefix_rfl
    have hnothing : auditRead "[AUDIT]".toList (if cut = [] then [] else [cut]) = [] := by
      split_ifs
      · rfl
      · rw [auditRead, (sealedText_begins item).2 cut hcut, if_neg Bool.false_ne_true, if_pos rfl,
          parseActivityLine_cut hcut hwhole]
        rfl
    refine ⟨records.length, by omega, ?_⟩
    rw [auditRead_append hheading, auditRead_sealedText hrecords, hnothing, List.append_nil,
      List.take_left]

/-- What is read of a snapshot that stops behind its first line: some of the audit records, but not
all, where more than the last line end is missing. -/
theorem auditRead_cut [RefusesCut] {store : Store} (htimes : TimesFit store.audit)
    (haudit : store.audit ≠ []) {whole rest : List (List Char)} {line cut : List Char}
    (hlines : bodyLines store ++ "[AUDIT]".toList :: auditLines store.audit = whole ++ line :: rest)
    (hcut : cut <+: line) (hmissing : cut ≠ line ∨ rest ≠ []) :
    ∃ j < store.audit.length, auditRead [] (whole ++ if cut = [] then [] else [cut]) =
      (sealedRecords store.audit).take j := by
  have hlength : (sealedRecords store.audit).length = store.audit.length :=
    length_sealedFromLink "GENESIS" store.audit
  have hstart : ([] : List Char) ≠ "[AUDIT]".toList := by decide
  have hbefore (ls : List (List Char)) (hls : ∀ l ∈ ls, l ∈ bodyLines store) :=
    auditRead_before hstart fun l hl => (bodyLines_plain store l (hls l hl)).2
  have hnone (hwhole : ∀ l ∈ whole, l ∈ bodyLines store) :
      ∃ j < store.audit.length, auditRead [] (whole ++ if cut = [] then [] else [cut]) =
        (sealedRecords store.audit).take j := by
    obtain ⟨last, hlast, hread⟩ := hbefore whole hwhole
    exact ⟨0, List.length_pos_of_ne_nil haudit, by
      rw [hread, auditRead_one hlast, List.take_zero]⟩
  rcases List.append_eq_append_iff.mp hlines with ⟨between, rfl, hrest⟩ | ⟨between, hbody, -⟩
  · cases between with
    | nil =>
      rw [List.append_nil] at hnone ⊢
      exact hnone fun l hl => hl
    | cons heading between =>
      obtain ⟨rfl, hsection⟩ := List.cons.inj hrest
      -- The cut is in the audit section.
      rw [auditLines_eq_sealed] at hsection
      obtain ⟨records, tail, hrecords, rfl, htail⟩ := List.map_eq_append_iff.mp hsection
      obtain ⟨item, others, rfl, rfl, rfl⟩ := List.map_eq_cons_iff.mp htail
      obtain ⟨last, hlast, hread⟩ := hbefore (bodyLines store) fun l hl => hl
      have hsealed := htimes.sealed "GENESIS"
      rw [show sealedFromLink "GENESIS" store.audit = _ from hrecords] at hsealed
      obtain ⟨j, hj, hrecordsRead⟩ := auditRead_records hsealed hcut
        (hmissing.imp_right fun hne hnil => hne (by rw [hnil, List.map_nil]))
      rw [← hrecords, hlength] at hj
      refine ⟨j, hj, ?_⟩
      rw [hrecords, ← hrecordsRead, List.append_assoc, hread, List.cons_append, auditRead,
        if_pos (by decide)]
  · exact hnone fun l hl => by
      rw [hbody]
      exact List.mem_append_left _ hl

end Reading

/-! ## Cut snapshots -/

section Cut

variable [Serde] [Rfc8259] [RefusesCut] {store : Store} {env : Env}

omit [Serde] [Rfc8259] [RefusesCut] in
/-- A chain of sealed records is accepted however many are there. -/
theorem auditChainValid_take (audit : List Activity) (j : ℕ) :
    auditChainValid ((sealedRecords audit).take j) = true := by
  have htake (previous : String) : (sealedFromLink previous audit).take j =
      sealedFromLink previous (audit.take j) := by
    induction audit generalizing previous j with
    | nil => rw [List.take_nil, sealedFromLink, List.take_nil]
    | cons item rest ih =>
      cases j with
      | zero => rfl
      | succ j => exact congrArg (_ :: ·) (ih j _)
  rw [sealedRecords, htake]
  exact chainValidFrom_sealed "GENESIS" (audit.take j)

omit [Rfc8259] [RefusesCut] in
/-- What `parse_snapshot` makes of a text behind its first line. -/
theorem parseSnapshot_behind {t : String} {ls : List (List Char)} {behind : List Char}
    (ht : t.toList = "NODEWE-SNAPSHOT-V1".toList ++ '\n' :: behind) (hls : lines behind = ls) :
    parseSnapshot env t = (parseRecords env [] .empty ls).map fun store =>
      if auditChainValid store.audit then some store else none := by
  have hstart : startsWith t "NODEWE-SNAPSHOT-V1\n" = true := by
    have hversion : "NODEWE-SNAPSHOT-V1\n".toList = "NODEWE-SNAPSHOT-V1".toList ++ ['\n'] := by
      simp
    rw [startsWith, ht, hversion, List.isPrefixOf_iff_prefix, List.prefix_append_right_inj]
    exact ⟨_, rfl⟩
  rw [parseSnapshot, hstart, ht, lines_cons (by simp), hls]
  rfl

omit [Rfc8259] [RefusesCut] in
/-- A text that does not begin with the first line and its end is no snapshot. -/
theorem parseSnapshot_short {t : String} (h : t.length ≤ 18) :
    parseSnapshot env t = .ok none := by
  have hstart : startsWith t "NODEWE-SNAPSHOT-V1\n" = false := by
    by_contra hstart
    rw [Bool.not_eq_false, startsWith, List.isPrefixOf_iff_prefix] at hstart
    have hlength := hstart.length_le
    have hfirst : "NODEWE-SNAPSHOT-V1\n".toList.length = 19 := by simp
    rw [hfirst, String.length_toList] at hlength
    omega
  rw [parseSnapshot, hstart]
  rfl

/-- A snapshot that is cut behind its first line and misses more than its last line end reads as
another store, if it can be read at all. -/
theorem parseSnapshot_cut (htimes : TimesFit store.audit) (haudit : store.audit ≠ []) {t : String}
    {whole rest : List (List Char)} {line cut : List Char}
    (ht : t.toList = "NODEWE-SNAPSHOT-V1".toList ++ '\n' :: (ended whole ++ cut))
    (hlines : bodyLines store ++ "[AUDIT]".toList :: auditLines store.audit = whole ++ line :: rest)
    (hcut : cut <+: line) (hmissing : cut ≠ line ∨ rest ≠ []) :
    parseSnapshot env t ≠ .ok none ∧
      parseSnapshot env t ≠ parseSnapshot env (snapshotText store) := by
  have hplain := snapshotLines_plain store
  rw [snapshotLines, List.forall_mem_cons, hlines, List.forall_mem_append,
    List.forall_mem_cons] at hplain
  have hfeed : '\n' ∉ cut := fun hc => (hplain.2.2.1 _ (hcut.subset hc)).1 rfl
  obtain ⟨j, hj, hread⟩ := auditRead_cut htimes haudit hlines hcut hmissing
  rw [parseSnapshot_behind ht (lines_ended_append hplain.2.1 hfeed), parseSnapshot_fits env htimes]
  cases hrecords : parseRecords env [] .empty (whole ++ if cut = [] then [] else [cut]) with
  | error panic => exact ⟨nofun, nofun⟩
  | ok loaded =>
    have hloaded : loaded.audit = (sealedRecords store.audit).take j := by
      rw [parseRecords_auditRead hrecords, hread]
      rfl
    have haccepted : auditChainValid loaded.audit = true := by
      rw [hloaded]
      exact auditChainValid_take store.audit j
    have hmap : (Except.ok loaded : Except Panic Store).map (fun store =>
        if auditChainValid store.audit then some store else none) = .ok (some loaded) := by
      show Except.ok (if auditChainValid loaded.audit then some loaded else none) = _
      rw [if_pos haccepted]
    rw [hmap]
    refine ⟨nofun, fun h => ?_⟩
    -- The whole text has more audit records.
    have hall := congrArg (List.length ∘ Store.audit) (Option.some.inj (Except.ok.inj h))
    have hlength : (sealedRecords store.audit).length = store.audit.length :=
      length_sealedFromLink "GENESIS" store.audit
    rw [Function.comp_apply, Function.comp_apply, hloaded, reloadedStore_audit env htimes,
      List.length_take, hlength] at hall
    omega

omit [Serde] [Rfc8259] [RefusesCut] in
/-- The last line of a snapshot with audit records is one of them. -/
theorem lastLine_mem (haudit : store.audit ≠ []) {whole : List (List Char)} {line : List Char}
    (hlines : bodyLines store ++ "[AUDIT]".toList :: auditLines store.audit = whole ++ [line]) :
    line ∈ auditLines store.audit := by
  have hne : auditLines store.audit ≠ [] := by
    simpa [auditLines, List.map_eq_nil_iff] using haudit
  have hlast := congrArg List.getLast? hlines
  rw [List.getLast?_append_of_ne_nil _ (List.cons_ne_nil _ _), List.getLast?_concat,
    List.getLast?_cons, List.getLast?_eq_getLast_of_ne_nil hne, Option.getD_some,
    Option.some.injEq] at hlast
  rw [← hlast]
  exact List.getLast_mem hne

omit [Rfc8259] [RefusesCut] in
/-- A snapshot that misses its last line end reads as it should. -/
theorem parseSnapshot_last {t : String} (haudit : store.audit ≠ []) {whole : List (List Char)}
    {line : List Char} (ht : t.toList = "NODEWE-SNAPSHOT-V1".toList ++ '\n' :: (ended whole ++ line))
    (hlines : bodyLines store ++ "[AUDIT]".toList :: auditLines store.audit = whole ++ [line]) :
    parseSnapshot env t = parseSnapshot env (snapshotText store) := by
  have hplain := snapshotLines_plain store
  rw [snapshotLines, List.forall_mem_cons, hlines, List.forall_mem_append,
    List.forall_mem_singleton] at hplain
  have hne : line ≠ [] := by
    have hmem := lastLine_mem haudit hlines
    rw [auditLines_eq_sealed] at hmem
    obtain ⟨item, -, rfl⟩ := List.mem_map.mp hmem
    exact (sealedText_begins item).1
  have hfeed : '\n' ∉ line := fun hc => (hplain.2.2 _ hc).1 rfl
  have hall : ∀ l ∈ whole ++ [line], IsLine l :=
    List.forall_mem_append.mpr ⟨hplain.2.1, List.forall_mem_singleton.mpr hplain.2.2⟩
  have hcut : lines (ended whole ++ line) = whole ++ [line] := by
    rw [lines_ended_append hplain.2.1 hfeed, if_neg hne]
  have hwhole : lines (ended (whole ++ [line])) = whole ++ [line] := by
    have hended := lines_ended_append hall (List.not_mem_nil (a := '\n'))
    rwa [List.append_nil, if_pos rfl, List.append_nil] at hended
  have htext : (snapshotText store).toList =
      "NODEWE-SNAPSHOT-V1".toList ++ '\n' :: ended (whole ++ [line]) := by
    rw [toList_snapshotText_lines, snapshotLines, ended_cons, hlines]
  rw [parseSnapshot_behind ht hcut, parseSnapshot_behind htext hwhole]

/-- **A cut snapshot is refused or misses nothing, exactly when** the cut is within the first line,
or only the last line end is missing. -/
theorem truncated_refused_iff [Ed25519] {events : List Event}
    (hrun : Run Happens Store.empty events store) (htime : InTime events)
    (haudit : store.audit ≠ []) {t : String} (hbegins : t.toList <+: (snapshotText store).toList)
    (hproper : t ≠ snapshotText store) :
    parseSnapshot env t = .ok none ∨ parseSnapshot env t = parseSnapshot env (snapshotText store) ↔
      t.length ≤ 18 ∨ t.length + 1 = (snapshotText store).length := by
  have htimes := (StoreFits.of_run hrun htime).audit
  have hfirst : "NODEWE-SNAPSHOT-V1".toList.length = 18 := by decide
  have htext := congrArg List.length (toList_snapshotText_lines store)
  rw [toList_snapshotText_lines] at hbegins
  obtain ⟨whole, cut, ht, ⟨rfl, rfl⟩ | ⟨line, rest, hlines, hcut⟩⟩ := prefix_ended hbegins
  · rw [List.append_nil, ← toList_snapshotText_lines, String.toList_inj] at ht
    exact absurd ht hproper
  · have hlength := congrArg List.length ht
    rw [String.length_toList] at hlength htext
    cases whole with
    | nil =>
      -- The cut is within the first line.
      obtain ⟨rfl, -⟩ := List.cons.inj hlines
      have hshort : t.length ≤ 18 := by
        have hle := hcut.length_le
        have hnil : (ended [] ++ cut).length = cut.length := rfl
        omega
      exact iff_of_true (.inl (parseSnapshot_short hshort)) (.inl hshort)
    | cons first whole =>
      obtain rfl : "NODEWE-SNAPSHOT-V1".toList = first := (List.cons.inj hlines).1
      have hlines : bodyLines store ++ "[AUDIT]".toList :: auditLines store.audit =
          whole ++ line :: rest := (List.cons.inj hlines).2
      rw [ended_cons, List.append_assoc, List.cons_append] at ht
      rw [ended_cons, List.append_assoc, List.length_append, List.length_append, List.length_cons,
        hfirst] at hlength
      rw [snapshotLines, hlines, ended_cons, ended_append, ended_cons] at htext
      simp only [List.length_append, List.length_cons, hfirst] at htext
      by_cases hmissing : cut = line ∧ rest = []
      · obtain ⟨rfl, rfl⟩ := hmissing
        have hnil : (ended []).length = 0 := rfl
        have hlast : t.length + 1 = (snapshotText store).length := by omega
        exact iff_of_true (.inr (parseSnapshot_last haudit ht hlines)) (.inr hlast)
      · have hmore : cut ≠ line ∨ rest ≠ [] := not_and_or.mp hmissing
        have hother : parseSnapshot env t ≠ .ok none ∧
            parseSnapshot env t ≠ parseSnapshot env (snapshotText store) :=
          parseSnapshot_cut htimes haudit ht hlines hcut hmore
        refine iff_of_false (fun h => h.elim hother.1 hother.2) ?_
        rintro (hshort | hlast)
        · omega
        · -- Then nothing else is missing.
          have hle := hcut.length_le
          have hrest : rest = [] := by
            cases rest with
            | nil => rfl
            | cons l rest =>
              rw [ended_cons, List.length_append, List.length_cons] at htext
              omega
          exact hmissing ⟨hcut.eq_of_length (by omega), hrest⟩

end Cut

section Example

attribute [local instance] compactSerde rfc8259_compactSerde refusesCut_compactSerde noKeys

/-- An enrolment is recorded. -/
theorem audit_namedStore : namedStore.audit ≠ [] := by
  have hlength : namedStore.audit.length = 1 := by decide +kernel
  exact List.ne_nil_of_length_pos (by omega)

/-- A snapshot begins with its first line. -/
theorem firstLine_prefix (store : Store) :
    "NODEWE-SNAPSHOT-V1\n".toList <+: (snapshotText store).toList := by
  have htext : "NODEWE-SNAPSHOT-V1\n".toList = "NODEWE-SNAPSHOT-V1".toList ++ ['\n'] := by decide
  rw [toList_snapshotText_lines, snapshotLines, ended_cons, htext]
  exact (List.prefix_append_right_inj _).mpr ⟨_, rfl⟩

/-- The snapshot without its last line end. -/
def unendedText : String := String.ofList (snapshotText namedStore).toList.dropLast

/-- A node is enrolled, and the snapshot is cut within its first line, or its last line end is
missing. -/
theorem truncated_refused_cuts :
    (parseSnapshot (exampleEnv 0) "NODEWE-SNAP" = .ok none ∨ parseSnapshot (exampleEnv 0)
        "NODEWE-SNAP" = parseSnapshot (exampleEnv 0) (snapshotText namedStore)) ∧
      (parseSnapshot (exampleEnv 0) unendedText = .ok none ∨ parseSnapshot (exampleEnv 0)
        unendedText = parseSnapshot (exampleEnv 0) (snapshotText namedStore)) := by
  have hhandles : Handles Store.empty (.handled exampleState (exampleEnv 0)
      (.createNode exampleBodies.1 none) _) namedStore := .handled _ _ _ _
  have hcut {t : String} (hbegins : t.toList <+: (snapshotText namedStore).toList)
      (hlength : t.length < (snapshotText namedStore).length) :
      parseSnapshot (exampleEnv 0) t = .ok none ∨
          parseSnapshot (exampleEnv 0) t = parseSnapshot (exampleEnv 0) (snapshotText namedStore) ↔
        t.length ≤ 18 ∨ t.length + 1 = (snapshotText namedStore).length := by
    refine truncated_refused_iff (.single (.handled _ _ _ hhandles)) ?_ audit_namedStore hbegins ?_
    · refine List.forall_mem_singleton.mpr fun site => ?_
      show 0 + 305000 ≤ u64Max
      decide
    · rintro rfl
      exact absurd hlength (lt_irrefl _)
  have hfirst := firstLine_prefix namedStore
  have hlong := hfirst.length_le
  rw [String.length_toList, String.length_toList] at hlong
  have hnineteen : "NODEWE-SNAPSHOT-V1\n".length = 19 := by decide
  have heleven : "NODEWE-SNAP".length = 11 := by decide
  have hunended : unendedText.length + 1 = (snapshotText namedStore).length := by
    rw [unendedText, String.length_ofList, List.length_dropLast, String.length_toList]
    omega
  constructor
  · refine (hcut ?_ (by omega)).mpr (.inl (by omega))
    exact List.IsPrefix.trans (by decide) hfirst
  · refine (hcut ?_ (by omega)).mpr (.inr hunended)
    rw [unendedText, String.toList_ofList]
    exact List.dropLast_prefix _

/-- A node is enrolled, and the snapshot is cut behind its first line: it is accepted, and the node
and the record of its enrolment are missing. -/
theorem truncated_accepted :
    Reachable namedStore ∧ namedStore.audit ≠ [] ∧
      "NODEWE-SNAPSHOT-V1\n".toList <+: (snapshotText namedStore).toList ∧
      "NODEWE-SNAPSHOT-V1\n" ≠ snapshotText namedStore ∧
      parseSnapshot (exampleEnv 0) "NODEWE-SNAPSHOT-V1\n" = .ok (some .empty) ∧
      ¬(parseSnapshot (exampleEnv 0) "NODEWE-SNAPSHOT-V1\n" = .ok none ∨
        parseSnapshot (exampleEnv 0) "NODEWE-SNAPSHOT-V1\n" =
          parseSnapshot (exampleEnv 0) (snapshotText namedStore)) := by
  have hhandles : Handles Store.empty (.handled exampleState (exampleEnv 0)
      (.createNode exampleBodies.1 none) _) namedStore := .handled _ _ _ _
  have hclock (site : Site) : (exampleEnv 0).now site ≤ u64Max := Nat.zero_le _
  have htimes : TimesFit namedStore.audit :=
    hhandles.effect.timesFit hclock (List.forall_mem_nil _)
  have htext : "NODEWE-SNAPSHOT-V1\n".toList =
      "NODEWE-SNAPSHOT-V1".toList ++ '\n' :: (ended [] ++ []) := by
    simp [ended]
  -- The heading of the first section is the line that is missing.
  obtain ⟨rest, hbody⟩ := bodyLines_first namedStore
  have hlines : bodyLines namedStore ++ "[AUDIT]".toList :: auditLines namedStore.audit =
      [] ++ "[NODES]".toList :: (rest ++ "[AUDIT]".toList :: auditLines namedStore.audit) := by
    rw [hbody, List.cons_append, List.nil_append]
  have hother : parseSnapshot (exampleEnv 0) "NODEWE-SNAPSHOT-V1\n" ≠ .ok none ∧
      parseSnapshot (exampleEnv 0) "NODEWE-SNAPSHOT-V1\n" ≠
        parseSnapshot (exampleEnv 0) (snapshotText namedStore) :=
    parseSnapshot_cut htimes audit_namedStore htext hlines List.nil_prefix (.inl (by simp))
  refine ⟨⟨_, .single (.handled _ _ _ hhandles)⟩, audit_namedStore, firstLine_prefix _, ?_, by rfl,
    ?_⟩
  · intro h
    exact hother.2 (congrArg (parseSnapshot (exampleEnv 0)) h)
  · exact fun h => h.elim hother.1 hother.2

end Example

end NodeWe.ControlPlane
