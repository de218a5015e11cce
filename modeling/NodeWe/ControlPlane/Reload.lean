import NodeWe.Separators
import NodeWe.ControlPlane.Snapshot

/-!
# Reading a snapshot back

What `parse_snapshot` makes of the text that `snapshot_text` writes: every node and every task, in
order, with its free text cleaned and its numbers as far as they fit. No field holds a tab or a line
end, and no line of a record looks like a heading, so the framing is faithful for any store.
-/

namespace NodeWe.ControlPlane

open Text

/-! ## Fields -/

/-- A text without tabs and line ends. -/
def Plain (s : String) : Prop := ∀ c ∈ s.toList, c ≠ '\t' ∧ c ≠ '\n' ∧ c ≠ '\r'

/-- A cleaned text is plain. -/
theorem plain_clean (s : String) : Plain (clean s) := by
  intro c hc
  rw [clean, String.toList_ofList, List.mem_map] at hc
  obtain ⟨d, -, rfl⟩ := hc
  split_ifs with h
  · decide
  · exact ⟨fun h' => h (.inl h'), fun h' => h (.inr (.inl h')), fun h' => h (.inr (.inr h'))⟩

/-- A digit is no tab and no line end. -/
theorem plain_of_isDigit {s : String} (h : ∀ c ∈ s.toList, c.isDigit = true ∨ c = '-') :
    Plain s := by
  intro c hc
  rcases h c hc with hdigit | rfl
  · refine ⟨?_, ?_, ?_⟩ <;> rintro rfl <;> exact absurd hdigit (by decide)
  · decide

/-- A number is plain. -/
theorem plain_repr (n : ℕ) : Plain n.repr :=
  plain_of_isDigit fun _ hc => .inl (isDigit_of_mem_repr hc)

/-- A signed number is plain. -/
theorem plain_int_repr (n : ℤ) : Plain n.repr := by
  refine plain_of_isDigit fun c hc => ?_
  cases n with
  | ofNat m => exact .inl (isDigit_of_mem_repr hc)
  | negSucc m =>
    have hc : c ∈ ("-" ++ m.succ.repr).toList := hc
    rw [String.toList_append, List.mem_append] at hc
    rcases hc with hc | hc
    · exact .inr (List.mem_singleton.mp hc)
    · exact .inl (isDigit_of_mem_repr hc)

/-- Bytes in hexadecimal are digits. -/
theorem mem_hexEncodeBytes {bs : List UInt8} {c : Char} (h : c ∈ (hexEncodeBytes bs).toList) :
    ∃ n < 16, c = n.digitChar := by
  rw [hexEncodeBytes, String.toList_ofList, List.mem_flatMap] at h
  obtain ⟨b, -, hc⟩ := h
  have hb := b.toNat_lt
  rw [hexByte, List.mem_pair] at hc
  rcases hc with rfl | rfl
  · exact ⟨_, by omega, rfl⟩
  · exact ⟨_, by omega, rfl⟩

/-- Bytes in hexadecimal are plain. -/
theorem plain_hexEncodeBytes (bs : List UInt8) : Plain (hexEncodeBytes bs) := by
  intro c hc
  obtain ⟨n, hn, rfl⟩ := mem_hexEncodeBytes hc
  interval_cases n <;> decide

/-- A text in hexadecimal is plain. -/
theorem plain_hexEncode (s : String) : Plain (hexEncode s) := plain_hexEncodeBytes (bytes s)

/-- Cleaning leaves a plain text as it is. -/
theorem clean_of_plain {s : String} (h : Plain s) : clean s = s := by
  have hplain : ∀ c ∈ s.toList, ¬(c = '\t' ∨ c = '\n' ∨ c = '\r') := by
    rintro c hc (hcontrol | hcontrol | hcontrol)
    · exact (h c hc).1 hcontrol
    · exact (h c hc).2.1 hcontrol
    · exact (h c hc).2.2 hcontrol
  have hmap : s.toList.map (fun c => if c = '\t' ∨ c = '\n' ∨ c = '\r' then ' ' else c) =
      s.toList := by
    rw [List.map_congr_left fun c hc => if_neg (hplain c hc), List.map_id']
  rw [clean, hmap, String.ofList_toList]

/-- One of two literals is plain. -/
theorem plain_ite {p : Prop} [Decidable p] {s t : String} (hs : Plain s) (ht : Plain t) :
    Plain (if p then s else t) := by
  split_ifs
  · exact hs
  · exact ht

/-- A literal is plain. -/
theorem plain_of_decide {s : String}
    (h : s.toList.all (fun c => c ≠ '\t' && c ≠ '\n' && c ≠ '\r') = true) : Plain s := by
  intro c hc
  simpa [and_assoc] using List.all_eq_true.mp h c hc

/-! ## Rows -/

/-- The line of a row, without its line feed. -/
def rowLine (fields : List String) : List Char := ['\t'].intercalate (fields.map String.toList)

/-- A row is its line and a line feed. -/
theorem toList_row (fields : List String) : (row fields).toList = rowLine fields ++ ['\n'] := by
  rw [row, String.toList_append, String.toList_intercalate]
  rfl

/-- The characters of a line are those of its fields and the separators. -/
theorem mem_rowLine {fields : List String} {c : Char} (h : c ∈ rowLine fields) :
    c = '\t' ∨ ∃ f ∈ fields, c ∈ f.toList := by
  unfold rowLine at h
  rcases mem_intercalate h with hc | ⟨chars, hchars, hc⟩
  · exact .inl hc
  · obtain ⟨f, hf, rfl⟩ := List.mem_map.mp hchars
    exact .inr ⟨f, hf, hc⟩

/-- Plain fields make one line, which keeps no carriage return. -/
theorem lines_row {fields : List String} (h : ∀ f ∈ fields, Plain f) (rest : List Char) :
    lines ((row fields).toList ++ rest) = rowLine fields :: lines rest := by
  have hfeed : '\n' ∉ rowLine fields := by
    intro hc
    rcases mem_rowLine hc with hc | ⟨f, hf, hc⟩
    · exact absurd hc (by decide)
    · exact (h f hf _ hc).2.1 rfl
  have hreturn : (rowLine fields).getLast? ≠ some '\r' := by
    intro hlast
    rcases mem_rowLine (List.mem_of_mem_getLast? (Option.mem_def.mpr hlast)) with hc | ⟨f, hf, hc⟩
    · exact absurd hc (by decide)
    · exact (h f hf _ hc).2.2 rfl
  rw [toList_row, List.append_assoc, List.singleton_append, lines_cons hfeed, stripCr,
    if_neg hreturn]

/-- A line ends as its last field does. -/
theorem getLast_rowLine {fields : List String} {last : String} (h : last.toList ≠ []) :
    (rowLine (fields ++ [last])).getLast? = last.toList.getLast? := by
  unfold rowLine
  induction fields with
  | nil => rw [List.nil_append, List.map_singleton, List.intercalate_singleton]
  | cons f rest ih =>
    obtain ⟨g, gs, hg⟩ : ∃ g gs, rest ++ [last] = g :: gs :=
      List.exists_cons_of_ne_nil (by simp)
    rw [List.cons_append, List.map_cons, hg, List.map_cons, List.intercalate_cons_cons,
      List.getLast?_append, ← List.map_cons, ← hg, ih]
    exact Option.or_of_isSome (by simpa using h)

/-- A row whose last field does not end in a bracket is no heading. -/
theorem isHeading_rowLine (fields : List String) (last : String) (h : last.toList ≠ [])
    (hbracket : ']' ∉ last.toList) : isHeading (rowLine (fields ++ [last])) = false := by
  rw [isHeading, getLast_rowLine h, Bool.and_eq_false_iff]
  refine .inr (beq_false_of_ne fun hlast => hbracket ?_)
  exact List.mem_of_mem_getLast? (Option.mem_def.mpr hlast)

/-! ## Records -/

/-- A node as it is read back. -/
def reloadedNode (env : Env) (node : Node) : Node :=
  { node with
    id := clean node.id
    name := clean node.name
    online := node.online && !node.revoked
    credential := clean node.credential
    abilities := clean node.abilities
    last_seen := if node.last_seen ≤ u64Max then node.last_seen
      else env.now (.loaded (clean node.id)) }

/-- A limit as it is read back. -/
def reloadedLimit (value max default : ℕ) : ℕ := if 0 < value ∧ value ≤ max then value else default

/-- A task as it is read back. -/
def reloadedTask (task : Task) : Task :=
  { task with
    id := clean task.id
    node_id := clean task.node_id
    ability := clean task.ability
    state := clean task.state
    idempotency_key := clean task.idempotency_key
    output_sha256 := clean task.output_sha256
    output_limit := reloadedLimit task.output_limit maxTaskOutputLimit maxTaskOutputLimit
    exit_code := task.exit_code.filter fun code => -2^31 ≤ code ∧ code < 2^31
    lease_until := if task.lease_until ≤ u64Max then task.lease_until else 0
    timeout_ms := reloadedLimit task.timeout_ms maxTaskTimeoutMs defaultTaskTimeoutMs }

/-- A grant as it is read back, where its expiry fits. -/
def reloadedGrant (grant : Grant) : Option Grant :=
  if grant.expires_at ≤ u64Max then
    some { grant with code := clean grant.code, signature := clean grant.signature }
  else none

/-- An approval as it is read back, where its expiry fits. -/
def reloadedApproval (approval : Approval) : Option Approval :=
  if approval.expires_at ≤ u64Max then
    some { approval with
      id := clean approval.id
      node_id := clean approval.node_id
      ability := clean approval.ability
      actor := clean approval.actor }
  else none

/-- A field in hexadecimal reads back. -/
theorem decodeOr_hexEncode (s default : String) :
    decodeOr (some (hexEncode s).toList) default = .ok s := by
  rw [decodeOr, String.ofList_toList, hexDecode_hexEncode]
  rfl

/-- A field as it stands reads back. -/
theorem fieldOr_toList (s default : String) : fieldOr (some s.toList) default = s := by
  rw [fieldOr, Option.map_some, String.ofList_toList]
  rfl

/-- A number reads back where it fits, and gives way to the default elsewhere. -/
theorem parseUnsigned_getD (max n default : ℕ) :
    (parseUnsigned max n.repr.toList).getD default = if n ≤ max then n else default := by
  rw [parseUnsigned_repr]
  split_ifs <;> rfl

/-- A limit reads back where it is in range. -/
theorem limitOr_repr (value max default : ℕ) (hmax : max ≤ u64Max) :
    limitOr (some value.repr.toList) max default = reloadedLimit value max default := by
  rw [limitOr, Option.bind_some, parseUnsigned_repr, reloadedLimit]
  by_cases h : 0 < value ∧ value ≤ max
  · rw [if_pos (h.2.trans hmax), Option.filter_some, if_pos (decide_eq_true h), if_pos h]
    rfl
  · rw [if_neg h]
    split_ifs
    · rw [Option.filter_some, if_neg (by simpa using h)]
      rfl
    · rfl

/-- An exit code reads back where it fits. -/
theorem exitCodeOf_repr (code : Option ℤ) :
    exitCodeOf (some ((code.map Int.repr).getD "").toList) =
      code.filter fun code => -2^31 ≤ code ∧ code < 2^31 := by
  cases code with
  | none => rfl
  | some code =>
    have hne : code.repr.toList ≠ [] := by
      intro h
      have hparsed := parseI32_repr code
      cases code with
      | ofNat m => exact Nat.toDigits_ne_nil (Nat.toList_repr.symm.trans h)
      | negSucc m =>
        have h : ("-" ++ m.succ.repr).toList = [] := h
        rw [String.toList_append] at h
        exact absurd h (by simp)
    rw [Option.map_some, Option.getD_some, exitCodeOf, Option.bind_some, if_neg hne,
      parseI32_repr, Option.filter_some]
    simp

/-- Fields without tabs are told apart again, up to the number that is asked for. -/
theorem splitN_rowLine {fields : List String} {n : ℕ} (h : ∀ f ∈ fields, Plain f)
    (hne : fields ≠ []) (hn : fields.length ≤ n) :
    splitN '\t' n (rowLine fields) = fields.map String.toList := by
  refine splitN_intercalate (fun l hl hc => ?_) (by simpa using hne) (by simpa using hn)
  obtain ⟨f, hf, rfl⟩ := List.mem_map.mp hl
  exact (h f hf _ hc).1 rfl

/-- Fields without tabs are told apart again. -/
theorem splitOn_rowLine {fields : List String} (h : ∀ f ∈ fields, Plain f) (hne : fields ≠ []) :
    (rowLine fields).splitOn '\t' = fields.map String.toList := by
  refine List.splitOn_intercalate '\t' (fun l hl hc => ?_) (by simpa using hne)
  obtain ⟨f, hf, rfl⟩ := List.mem_map.mp hl
  exact (h f hf _ hc).1 rfl

/-- The fields of a node are plain. -/
theorem plain_nodeFields (node : Node) : ∀ f ∈ nodeFields node, Plain f := by
  have hstatus : Plain (if node.revoked then "revoked" else if node.online then "online"
      else "offline") :=
    plain_ite (plain_of_decide (by decide))
      (plain_ite (plain_of_decide (by decide)) (plain_of_decide (by decide)))
  simp only [nodeFields, List.forall_mem_cons, plain_clean, plain_hexEncode, plain_repr, hstatus,
    true_and, List.not_mem_nil, false_imp_iff, implies_true]

/-- A node reads back. -/
theorem parseNodeLine_row (env : Env) (node : Node) :
    parseNodeLine env (rowLine (nodeFields node)) = .ok (some (reloadedNode env node)) := by
  have honline : ((if node.revoked then "revoked" else if node.online then "online"
      else "offline").toList == "online".toList) = (node.online && !node.revoked) := by
    cases node.revoked <;> cases node.online <;> decide
  have hrevoked : ((if node.revoked then "revoked" else if node.online then "online"
      else "offline").toList == "revoked".toList) = node.revoked := by
    cases node.revoked <;> cases node.online <;> decide
  have hlast (default : ℕ) :
      ((some node.last_seen.repr.toList).bind (parseUnsigned u64Max)).getD default =
        if node.last_seen ≤ u64Max then node.last_seen else default := by
    rw [Option.bind_some, parseUnsigned_getD]
  rw [parseNodeLine, splitN_rowLine (n := 13) (plain_nodeFields node) (List.cons_ne_nil _ _) le_rfl]
  simp only [nodeFields, List.map_cons, nodeOfFields, List.getElem?_cons_succ,
    List.getElem?_cons_zero, decodeOr_hexEncode, honline, hrevoked, fieldOr_toList,
    String.ofList_toList, hlast]
  rfl

/-- The fields of a task are plain. -/
theorem plain_taskFields (task : Task) : ∀ f ∈ taskFields task, Plain f := by
  have htruncated : Plain (if task.output_truncated then "truncated" else "complete") :=
    plain_ite (plain_of_decide (by decide)) (plain_of_decide (by decide))
  have hexit : Plain ((task.exit_code.map Int.repr).getD "") := by
    cases task.exit_code with
    | none => exact plain_of_decide (by decide)
    | some code => exact plain_int_repr code
  simp only [taskFields, List.forall_mem_cons, plain_clean, plain_hexEncode, plain_repr,
    htruncated, hexit, true_and, List.not_mem_nil, false_imp_iff, implies_true]

/-- A task reads back. -/
theorem parseTaskLine_row (task : Task) :
    parseTaskLine (rowLine (taskFields task)) = .ok (some (reloadedTask task)) := by
  have htruncated : ((if task.output_truncated then "truncated" else "complete").toList ==
      "truncated".toList) = task.output_truncated := by
    cases task.output_truncated <;> decide
  have hmetadata : (((if task.output_truncated then "truncated" else "complete").toList ==
      "truncated".toList) || ((if task.output_truncated then "truncated" else "complete").toList ==
      "complete".toList)) = true := by
    cases task.output_truncated <;> decide
  unfold parseTaskLine
  rw [splitOn_rowLine (plain_taskFields task) (List.cons_ne_nil _ _)]
  have hlease : (parseUnsigned u64Max task.lease_until.repr.toList).getD 0 =
      if task.lease_until ≤ u64Max then task.lease_until else 0 := parseUnsigned_getD _ _ _
  have houtput_limit := limitOr_repr task.output_limit maxTaskOutputLimit maxTaskOutputLimit
    (by decide)
  have htimeout := limitOr_repr task.timeout_ms maxTaskTimeoutMs defaultTaskTimeoutMs (by decide)
  -- The field at index 10 tells the current layout from the older one.
  simp only [taskFields, List.map_cons, List.map_nil, List.length_cons, List.length_nil,
    List.getD_cons_succ, List.getD_cons_zero, hmetadata, Nat.reduceAdd, ge_iff_le,
    Nat.reduceLeDiff, decide_true, Bool.and_self, if_true]
  simp only [Nat.reduceLT, if_false, List.getElem?_cons_succ, List.getElem?_cons_zero,
    decodeOr_hexEncode, String.ofList_toList, htruncated, exitCodeOf_repr, houtput_limit,
    htimeout, hlease, Bool.true_and]
  rfl

/-- The fields of a grant are plain. -/
theorem plain_grantFields (grant : Grant) : ∀ f ∈ grantFields grant, Plain f := by
  have hused : Plain (if grant.used then "used" else "unused") :=
    plain_ite (plain_of_decide (by decide)) (plain_of_decide (by decide))
  have hrevoked : Plain (if grant.revoked then "revoked" else "active") :=
    plain_ite (plain_of_decide (by decide)) (plain_of_decide (by decide))
  simp only [grantFields, List.forall_mem_cons, plain_clean, plain_repr, hused, hrevoked,
    true_and, List.not_mem_nil, false_imp_iff, implies_true]

/-- A grant reads back. -/
theorem parseGrantLine_row (grant : Grant) :
    parseGrantLine (rowLine (grantFields grant)) = reloadedGrant grant := by
  have hused : ((if grant.used then "used" else "unused").toList == "used".toList) =
      grant.used := by
    cases grant.used <;> decide
  have hrevoked : (some (if grant.revoked then "revoked" else "active").toList ==
      some "revoked".toList) = grant.revoked := by
    cases grant.revoked <;> decide
  rw [parseGrantLine, splitN_rowLine (n := 5) (plain_grantFields grant) (List.cons_ne_nil _ _) le_rfl]
  simp only [grantFields, List.map_cons, List.map_nil, List.head?_cons, hused, hrevoked,
    String.ofList_toList, parseUnsigned_repr, reloadedGrant]
  split_ifs <;> rfl

/-- The fields of an approval are plain. -/
theorem plain_approvalFields (approval : Approval) : ∀ f ∈ approvalFields approval, Plain f := by
  have hused : Plain (if approval.used then "used" else "unused") :=
    plain_ite (plain_of_decide (by decide)) (plain_of_decide (by decide))
  simp only [approvalFields, List.forall_mem_cons, plain_clean, plain_hexEncode, plain_repr,
    hused, true_and, List.not_mem_nil, false_imp_iff, implies_true]

/-- An approval reads back. -/
theorem parseApprovalLine_row (approval : Approval) :
    parseApprovalLine (rowLine (approvalFields approval)) = .ok (reloadedApproval approval) := by
  have hused : ((if approval.used then "used" else "unused").toList == "used".toList) =
      approval.used := by
    cases approval.used <;> decide
  unfold parseApprovalLine
  rw [splitN_rowLine (n := 8) (plain_approvalFields approval) (List.cons_ne_nil _ _) le_rfl]
  simp only [approvalFields, List.map_cons, List.map_nil, String.ofList_toList,
    hexDecode_hexEncode, hused, parseUnsigned_repr, reloadedApproval]
  split_ifs <;> rfl

/-! ## Sections -/

section Snapshots

variable [Serde] (env : Env)

/-- The rows of a section, read one after the other, where `add` puts the records that a section
has so far into the store. -/
theorem parseRecords_rows {α β : Type} (section_name : List Char) (xs : List α)
    (fields : α → List String) (add : List β → Store) (items : α → List β)
    (hplain : ∀ x, ∀ f ∈ fields x, Plain f)
    (hheading : ∀ x, isHeading (rowLine (fields x)) = false)
    (hparse : ∀ x done, parseRecord env section_name (rowLine (fields x)) (add done) =
      .ok (add (done ++ items x))) (done : List β) (rest : List Char) :
    parseRecords env section_name (add done)
        (lines ((String.join (xs.map fun x => row (fields x))).toList ++ rest)) =
      parseRecords env section_name (add (done ++ xs.flatMap items)) (lines rest) := by
  induction xs generalizing done with
  | nil =>
    rw [List.flatMap_nil, List.append_nil]
    rfl
  | cons x xs ih =>
    rw [List.map_cons, String.join_cons, String.toList_append, List.append_assoc,
      lines_row (hplain x), parseRecords, if_neg (by rw [hheading x]; exact Bool.false_ne_true),
      hparse x done, List.flatMap_cons, ← List.append_assoc]
    exact ih (done ++ items x)

/-- A heading starts a section. -/
theorem parseRecords_heading (section_name heading : List Char) (store : Store)
    (rest : List Char) (h : isHeading heading = true) (hfeed : '\n' ∉ heading) :
    parseRecords env section_name store (lines (heading ++ '\n' :: rest)) =
      parseRecords env heading store (lines rest) := by
  have hbracket : heading.getLast? = some ']' := by
    rw [isHeading, Bool.and_eq_true] at h
    exact eq_of_beq h.2
  rw [lines_cons hfeed, stripCr, if_neg (by rw [hbracket]; decide), parseRecords, if_pos h]

end Snapshots

/-! ## Audit lines -/

/-- A text without line ends. -/
def OneLine (s : String) : Prop := ∀ c ∈ s.toList, c ≠ '\n' ∧ c ≠ '\r'

/-- A joined text is on one line when its parts are. -/
theorem oneLine_append {s t : String} : OneLine (s ++ t) ↔ OneLine s ∧ OneLine t := by
  unfold OneLine
  rw [String.toList_append, List.forall_mem_append]

/-- A literal is on one line. -/
theorem oneLine_of_decide {s : String}
    (h : s.toList.all (fun c => c ≠ '\n' && c ≠ '\r') = true) : OneLine s := by
  intro c hc
  simpa using List.all_eq_true.mp h c hc

/-- A number is on one line. -/
theorem oneLine_repr (n : ℕ) : OneLine n.repr := fun c hc => (plain_repr n c hc).2

/-- A character is escaped on one line: line ends have escapes of their own. -/
theorem escChar_oneLine (c : Char) : ∀ d ∈ escChar c, d ≠ '\n' ∧ d ≠ '\r' := by
  have hdigit (n : ℕ) (hn : n < 16) : n.digitChar ≠ '\n' ∧ n.digitChar ≠ '\r' := by
    interval_cases n <;> decide
  unfold escChar
  split_ifs with h₁ h₂ h₃ h₄ h₅ hcontrol
  · simp
  · simp
  · simp
  · simp
  · simp
  · have hc : c.toNat ≤ 0x9F := by
      simp only [isControl, Bool.or_eq_true, Bool.and_eq_true, decide_eq_true_eq] at hcontrol
      omega
    have hhigh := hdigit (c.toNat / 16) (by omega)
    have hlow := hdigit (c.toNat % 16) (by omega)
    simp [hhigh, hlow]
  · intro d hd
    rw [List.mem_singleton.mp hd]
    exact ⟨h₃, h₄⟩

/-- A JSON string is on one line. -/
theorem oneLine_quoted (s : String) : OneLine (quoted s) := by
  have hesc : OneLine (esc s) := by
    intro c hc
    rw [esc, String.toList_ofList, List.mem_flatMap] at hc
    obtain ⟨d, -, hc⟩ := hc
    exact escChar_oneLine d c hc
  have hquote : OneLine "\"" := oneLine_of_decide (by decide)
  exact oneLine_append.mpr ⟨oneLine_append.mpr ⟨hquote, hesc⟩, hquote⟩

/-- A JSON string or `null` is on one line. -/
theorem oneLine_quotedOrNull (s : Option String) : OneLine (quotedOrNull s) := by
  cases s with
  | none => exact oneLine_of_decide (by decide)
  | some s => exact oneLine_quoted s

/-- An audit record is on one line. -/
theorem oneLine_activityJsonWithChain (item : Activity) (prev_hash hash : String) :
    OneLine (activityJsonWithChain item prev_hash hash) := by
  have hid : OneLine "\x7b\"activity_id\":" := oneLine_of_decide (by simp)
  have hevent : OneLine ",\"event\":" := oneLine_of_decide (by simp)
  have hnode : OneLine ",\"node_id\":" := oneLine_of_decide (by simp)
  have htask : OneLine ",\"task_id\":" := oneLine_of_decide (by simp)
  have hactor : OneLine ",\"actor\":" := oneLine_of_decide (by simp)
  have htime : OneLine ",\"timestamp\":" := oneLine_of_decide (by simp)
  have hprev : OneLine ",\"prev_hash\":" := oneLine_of_decide (by simp)
  have hhash : OneLine ",\"hash\":" := oneLine_of_decide (by simp)
  have hclose : OneLine "\x7d" := oneLine_of_decide (by simp)
  unfold activityJsonWithChain
  simp only [oneLine_append, oneLine_quoted, oneLine_quotedOrNull, oneLine_repr, hid, hevent,
    hnode, htask, hactor, htime, hprev, hhash, hclose, and_true]

/-- An audit record is no heading: it starts with a brace. -/
theorem isHeading_activityJsonWithChain (item : Activity) (prev_hash hash : String) :
    isHeading (activityJsonWithChain item prev_hash hash).toList = false := by
  have hhead : (activityJsonWithChain item prev_hash hash).toList.head? = some '\x7b' := by
    have hfirst : "\x7b\"activity_id\":".toList.head? = some '\x7b' := by simp
    unfold activityJsonWithChain
    simp only [String.toList_append, List.head?_append, hfirst, Option.some_or]
  rw [isHeading, hhead]
  rfl

/-- A sealed record is an audit record. -/
theorem sealedFrom_eq {previous : String} {audit : List Activity} {index : ℕ}
    (h : index < audit.length) :
    ∃ item prev_hash hash,
      sealedFrom previous audit index = activityJsonWithChain item prev_hash hash := by
  induction audit generalizing previous index with
  | nil => exact absurd h (Nat.not_lt_zero index)
  | cons item rest ih =>
    cases index with
    | zero => exact ⟨item, previous, _, rfl⟩
    | succ index => exact ih (Nat.lt_of_succ_lt_succ h)

/-- The lines of the audit section. -/
def auditLines (audit : List Activity) : List (List Char) :=
  (List.range audit.length).map fun index => (sealedActivityJson audit index).toList

/-- A line of the audit section is an audit record. -/
theorem mem_auditLines {audit : List Activity} {line : List Char} (h : line ∈ auditLines audit) :
    ∃ item prev_hash hash, line = (activityJsonWithChain item prev_hash hash).toList := by
  obtain ⟨index, hindex, rfl⟩ := List.mem_map.mp h
  obtain ⟨item, prev_hash, hash, heq⟩ := sealedFrom_eq (List.mem_range.mp hindex)
  exact ⟨item, prev_hash, hash, congrArg String.toList heq⟩

/-- The audit section has these lines. -/
theorem lines_auditJsonl (audit : List Activity) :
    lines (auditJsonl audit).toList = auditLines audit := by
  unfold auditJsonl
  by_cases h : audit = []
  · subst h
    simp [auditLines, lines]
  · have hne : auditLines audit ≠ [] := by
      simpa [auditLines, List.map_eq_nil_iff] using h
    have hlines : ∀ l ∈ auditLines audit, ∀ c ∈ l, c ≠ '\n' ∧ c ≠ '\r' := by
      intro l hl
      obtain ⟨item, prev_hash, hash, hline⟩ := mem_auditLines hl
      rw [hline]
      exact oneLine_activityJsonWithChain item prev_hash hash
    rw [if_neg h, String.toList_append, String.toList_intercalate, List.map_map]
    exact lines_intercalate hlines hne

/-! ## The whole text -/

section Whole

variable [Serde] (env : Env)

/-- Lines of the audit section are read one by one. -/
theorem parseRecords_audit (store : Store) (ls : List (List Char))
    (h : ∀ line ∈ ls, isHeading line = false) :
    parseRecords env "[AUDIT]".toList store ls =
      .ok { store with audit := store.audit ++ ls.filterMap parseActivityLine } := by
  induction ls generalizing store with
  | nil => simp [parseRecords]
  | cons line rest ih =>
    rw [List.forall_mem_cons] at h
    have hparse : parseRecord env "[AUDIT]".toList line store =
        .ok { store with audit := store.audit ++ (parseActivityLine line).toList } := by
      simp [parseRecord]
    rw [parseRecords, h.1, if_neg Bool.false_ne_true, hparse]
    simp only
    rw [ih _ h.2, List.filterMap_cons]
    cases parseActivityLine line <;> simp

/-- A store as it is read back. -/
def reloadedStore (store : Store) : Store where
  nodes := store.nodes.map (reloadedNode env)
  tasks := store.tasks.map reloadedTask
  audit := (auditLines store.audit).filterMap parseActivityLine
  grants := store.grants.filterMap reloadedGrant
  approvals := store.approvals.filterMap reloadedApproval

omit [Serde] in
/-- The characters of a snapshot, section by section. -/
theorem toList_snapshotText (store : Store) :
    (snapshotText store).toList =
      "NODEWE-SNAPSHOT-V1".toList ++ '\n' :: ("[NODES]".toList ++ '\n' ::
        ((String.join (store.nodes.map fun n => row (nodeFields n))).toList ++
        ("[TASKS]".toList ++ '\n' ::
          ((String.join (store.tasks.map fun t => row (taskFields t))).toList ++
        ("[GRANTS]".toList ++ '\n' ::
          ((String.join (store.grants.map fun g => row (grantFields g))).toList ++
        ("[APPROVALS]".toList ++ '\n' ::
          ((String.join (store.approvals.map fun a => row (approvalFields a))).toList ++
        ("[AUDIT]".toList ++ '\n' :: (auditJsonl store.audit).toList))))))))) := by
  have hopen : "NODEWE-SNAPSHOT-V1\n[NODES]\n".toList =
      "NODEWE-SNAPSHOT-V1".toList ++ '\n' :: ("[NODES]".toList ++ ['\n']) := by simp
  have htasks : "[TASKS]\n".toList = "[TASKS]".toList ++ ['\n'] := by simp
  have hgrants : "[GRANTS]\n".toList = "[GRANTS]".toList ++ ['\n'] := by simp
  have happrovals : "[APPROVALS]\n".toList = "[APPROVALS]".toList ++ ['\n'] := by simp
  have haudit : "[AUDIT]\n".toList = "[AUDIT]".toList ++ ['\n'] := by simp
  unfold snapshotText
  simp only [String.toList_append, hopen, htasks, hgrants, happrovals, haudit, List.append_assoc,
    List.cons_append, List.nil_append]

omit [Serde] in
/-- A row that ends in a number is no heading. -/
theorem isHeading_repr (fields : List String) (n : ℕ) :
    isHeading (rowLine (fields ++ [n.repr])) = false := by
  refine isHeading_rowLine fields n.repr ?_ fun hbracket => ?_
  · rw [Nat.toList_repr]
    exact Nat.toDigits_ne_nil
  · exact absurd (isDigit_of_mem_repr hbracket) (by decide)

omit [Serde] in
/-- The row of a node is no heading. -/
theorem isHeading_nodeFields (node : Node) : isHeading (rowLine (nodeFields node)) = false :=
  isHeading_repr ((nodeFields node).take 12) node.last_seen

omit [Serde] in
/-- The row of a task is no heading. -/
theorem isHeading_taskFields (task : Task) : isHeading (rowLine (taskFields task)) = false :=
  isHeading_repr ((taskFields task).take 16) task.output_limit

omit [Serde] in
/-- The row of a grant is no heading. -/
theorem isHeading_grantFields (grant : Grant) : isHeading (rowLine (grantFields grant)) = false := by
  refine isHeading_rowLine ((grantFields grant).take 4)
    (if grant.revoked then "revoked" else "active") ?_ ?_
  · cases grant.revoked <;> decide
  · cases grant.revoked <;> decide

omit [Serde] in
/-- The row of an approval is no heading. -/
theorem isHeading_approvalFields (approval : Approval) :
    isHeading (rowLine (approvalFields approval)) = false := by
  refine isHeading_rowLine ((approvalFields approval).take 7)
    (if approval.used then "used" else "unused") ?_ ?_
  · cases approval.used <;> decide
  · cases approval.used <;> decide

/-- The rows of the nodes. -/
theorem parseRecords_nodes (nodes : List Node) (store : Store) (rest : List Char)
    (hempty : store.nodes = []) :
    parseRecords env "[NODES]".toList store
        (lines ((String.join (nodes.map fun n => row (nodeFields n))).toList ++ rest)) =
      parseRecords env "[NODES]".toList { store with nodes := nodes.map (reloadedNode env) }
        (lines rest) := by
  have hparse (node : Node) (done : List Node) :
      parseRecord env "[NODES]".toList (rowLine (nodeFields node)) { store with nodes := done } =
        .ok { store with nodes := done ++ [reloadedNode env node] } := by
    rw [parseRecord, if_pos rfl, parseNodeLine_row]
    rfl
  have hstore : store = { store with nodes := [] } := by
    rw [← hempty]
  conv_lhs => rw [hstore]
  rw [parseRecords_rows env _ nodes nodeFields (fun done => { store with nodes := done })
    (fun node => [reloadedNode env node]) plain_nodeFields isHeading_nodeFields hparse [] rest,
    List.nil_append, ← List.map_eq_flatMap]

/-- The rows of the tasks. -/
theorem parseRecords_tasks (tasks : List Task) (store : Store) (rest : List Char)
    (hempty : store.tasks = []) :
    parseRecords env "[TASKS]".toList store
        (lines ((String.join (tasks.map fun t => row (taskFields t))).toList ++ rest)) =
      parseRecords env "[TASKS]".toList { store with tasks := tasks.map reloadedTask }
        (lines rest) := by
  have hparse (task : Task) (done : List Task) :
      parseRecord env "[TASKS]".toList (rowLine (taskFields task)) { store with tasks := done } =
        .ok { store with tasks := done ++ [reloadedTask task] } := by
    rw [parseRecord, if_neg (by decide), if_pos rfl, parseTaskLine_row]
    rfl
  have hstore : store = { store with tasks := [] } := by
    rw [← hempty]
  conv_lhs => rw [hstore]
  rw [parseRecords_rows env _ tasks taskFields (fun done => { store with tasks := done })
    (fun task => [reloadedTask task]) plain_taskFields isHeading_taskFields hparse [] rest,
    List.nil_append, ← List.map_eq_flatMap]

/-- The rows of the grants. -/
theorem parseRecords_grants (grants : List Grant) (store : Store) (rest : List Char)
    (hempty : store.grants = []) :
    parseRecords env "[GRANTS]".toList store
        (lines ((String.join (grants.map fun g => row (grantFields g))).toList ++ rest)) =
      parseRecords env "[GRANTS]".toList { store with grants := grants.filterMap reloadedGrant }
        (lines rest) := by
  have hparse (grant : Grant) (done : List Grant) :
      parseRecord env "[GRANTS]".toList (rowLine (grantFields grant))
          { store with grants := done } =
        .ok { store with grants := done ++ (reloadedGrant grant).toList } := by
    rw [parseRecord, if_neg (by decide), if_neg (by decide), if_pos rfl, parseGrantLine_row]
  have hstore : store = { store with grants := [] } := by
    rw [← hempty]
  conv_lhs => rw [hstore]
  rw [parseRecords_rows env _ grants grantFields (fun done => { store with grants := done })
    (fun grant => (reloadedGrant grant).toList) plain_grantFields isHeading_grantFields hparse [] rest,
    List.nil_append, List.filterMap_eq_flatMap_toList]

/-- The rows of the approvals. -/
theorem parseRecords_approvals (approvals : List Approval) (store : Store) (rest : List Char)
    (hempty : store.approvals = []) :
    parseRecords env "[APPROVALS]".toList store
        (lines ((String.join (approvals.map fun a => row (approvalFields a))).toList ++ rest)) =
      parseRecords env "[APPROVALS]".toList
        { store with approvals := approvals.filterMap reloadedApproval } (lines rest) := by
  have hparse (approval : Approval) (done : List Approval) :
      parseRecord env "[APPROVALS]".toList (rowLine (approvalFields approval))
          { store with approvals := done } =
        .ok { store with approvals := done ++ (reloadedApproval approval).toList } := by
    rw [parseRecord, if_neg (by decide), if_neg (by decide), if_neg (by decide), if_pos rfl,
      parseApprovalLine_row]
    rfl
  have hstore : store = { store with approvals := [] } := by
    rw [← hempty]
  conv_lhs => rw [hstore]
  rw [parseRecords_rows env _ approvals approvalFields
    (fun done => { store with approvals := done }) (fun approval => (reloadedApproval approval).toList)
    plain_approvalFields isHeading_approvalFields hparse [] rest,
    List.nil_append, List.filterMap_eq_flatMap_toList]

/-- Every snapshot reads back, unless its audit chain is rejected. -/
theorem parseSnapshot_snapshotText (store : Store) :
    parseSnapshot env (snapshotText store) =
      .ok (if auditChainValid (reloadedStore env store).audit then some (reloadedStore env store)
        else none) := by
  have hstart : startsWith (snapshotText store) "NODEWE-SNAPSHOT-V1\n" = true := by
    have hversion : "NODEWE-SNAPSHOT-V1\n".toList = "NODEWE-SNAPSHOT-V1".toList ++ ['\n'] := by
      simp
    rw [startsWith, toList_snapshotText, hversion, List.isPrefixOf_iff_prefix,
      List.prefix_append_right_inj]
    exact ⟨_, rfl⟩
  have haudit : ∀ line ∈ auditLines store.audit, isHeading line = false := by
    intro line hline
    obtain ⟨item, prev_hash, hash, hline⟩ := mem_auditLines hline
    rw [hline]
    exact isHeading_activityJsonWithChain item prev_hash hash
  have hrecords : parseRecords env [] .empty ((lines (snapshotText store).toList).drop 1) =
      .ok (reloadedStore env store) := by
    rw [toList_snapshotText, lines_cons (by simp), List.drop_succ_cons, List.drop_zero,
      parseRecords_heading env _ _ _ _ (by decide) (by simp),
      parseRecords_nodes env _ _ _ rfl,
      parseRecords_heading env _ _ _ _ (by decide) (by simp),
      parseRecords_tasks env _ _ _ rfl,
      parseRecords_heading env _ _ _ _ (by decide) (by simp),
      parseRecords_grants env _ _ _ rfl,
      parseRecords_heading env _ _ _ _ (by decide) (by simp),
      parseRecords_approvals env _ _ _ rfl,
      parseRecords_heading env _ _ _ _ (by decide) (by simp),
      lines_auditJsonl, parseRecords_audit env _ _ haudit]
    rfl
  rw [parseSnapshot, hstart, hrecords]
  rfl

end Whole

end NodeWe.ControlPlane
