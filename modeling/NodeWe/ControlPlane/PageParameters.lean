import NodeWe.ControlPlane.Route

/-!
# The parameters of the audit export

`export_audit` takes a parameter that does not parse for one that is absent. `queried` is what a query
names for a parameter, and `NumberOrAbsent` that it is a number; `export_refuses_iff` says for which
queries an answer with a page is the page that was asked for.
-/

namespace NodeWe.ControlPlane

open Text

/-! ## Decimal numbers -/

/-- The decimal texts of a number: digits, perhaps behind a plus sign. -/
def Decimal (s : List Char) (n : ℕ) : Prop :=
  ∃ digits, digits ≠ [] ∧ (∀ c ∈ digits, c.isDigit = true) ∧
    (s = digits ∨ s = '+' :: digits) ∧ Nat.ofDigitChars 10 digits 0 = n

/-- The integer parser reads the decimal texts of the numbers that fit. -/
theorem parseUnsigned_eq_some_iff {max n : ℕ} {s : List Char} :
    parseUnsigned max s = some n ↔ Decimal s n ∧ n ≤ max := by
  have hdigits {t : List Char} : parseDigits t = some n ↔
      t ≠ [] ∧ (∀ c ∈ t, c.isDigit = true) ∧ Nat.ofDigitChars 10 t 0 = n := by
    unfold parseDigits
    split_ifs with h
    · rw [List.all_eq_true] at h
      rw [Option.some.injEq, and_iff_right h.1, and_iff_right h.2]
    · rw [List.all_eq_true] at h
      exact iff_of_false (fun hnone => by cases hnone) fun hall => h ⟨hall.1, hall.2.1⟩
  rw [parseUnsigned, Option.filter_eq_some_iff, decide_eq_true_eq, hdigits]
  refine and_congr_left fun _ => ?_
  constructor
  · rintro ⟨hne, hall, hvalue⟩
    refine ⟨_, hne, hall, ?_, hvalue⟩
    split_ifs with hplus
    · obtain ⟨rest, rfl⟩ := List.head?_eq_some_iff.mp hplus
      exact .inr rfl
    · exact .inl rfl
  · rintro ⟨digits, hne, hall, rfl | rfl, hvalue⟩
    · have hplus : s.head? ≠ some '+' := fun hhead =>
        absurd (hall _ (List.mem_of_mem_head? hhead)) (by decide)
      rw [if_neg hplus]
      exact ⟨hne, hall, hvalue⟩
    · have hplus : ('+' :: digits).head? = some '+' := rfl
      rw [if_pos hplus, List.tail_cons]
      exact ⟨hne, hall, hvalue⟩

/-! ## What a query asks for -/

/-- What the first item of a query that has a name says behind it: nothing, where there is no
equals sign. -/
def queried (path key : String) : Option String :=
  (splitOnce '?' path.toList).bind fun (_, query) =>
    (query.splitOn '&').findSome? fun item =>
      match splitOnce '=' item with
      | none => if item = key.toList then some "" else none
      | some (name, value) => if name = key.toList then some (String.ofList value) else none

/-- A parameter is absent, or a number. -/
def NumberOrAbsent (path key : String) : Prop :=
  ∀ value, queried path key = some value → ∃ n, Decimal value.toList n ∧ n ≤ u64Max

/-- The number that a well-formed parameter asks for. -/
def Requested (path key : String) (default n : ℕ) : Prop :=
  (queried path key = none ∧ n = default) ∨
    ∃ value, queried path key = some value ∧ Decimal value.toList n ∧ n ≤ u64Max

/-- A number that `query_field` finds for a parameter. -/
def Written (path key : String) (n : ℕ) : Prop :=
  ∃ value, queryField path key = some value ∧ Decimal value.toList n ∧ n ≤ u64Max

/-- An answer with a page is the page that the query asks for. -/
def ExportRefuses (path : String) (store : Store) : Prop :=
  (exportAudit path store).status = .ok →
    ∃ start limit stop, Requested path "from" 0 start ∧ Requested path "limit" 1000 limit ∧
      (1 ≤ limit ∧ limit ≤ 10000) ∧ start ≤ store.audit.length ∧
      exportAudit path store = ⟨.ok, .auditPage store.audit start stop⟩

/-- `query_field` finds nothing where nothing is named, and what the first item with the name says
where that has an equals sign. -/
theorem queryField_of_queried {path key : String} :
    (queried path key = none → queryField path key = none) ∧
      ∀ value, value ≠ "" → queried path key = some value → queryField path key = some value := by
  unfold queried queryField
  cases splitOnce '?' path.toList with
  | none => exact ⟨fun _ => rfl, fun value _ h => by cases h⟩
  | some parts =>
    simp only [Option.bind_some]
    generalize parts.2.splitOn '&' = items
    induction items with
    | nil => exact ⟨fun _ => rfl, fun value _ h => by cases h⟩
    | cons item rest ih =>
      rw [List.findSome?_cons, List.findSome?_cons]
      cases hitem : splitOnce '=' item with
      | none =>
        simp only [Option.bind_none]
        split_ifs with hname
        · refine ⟨fun h => (by cases h), fun value hne h => ?_⟩
          exact absurd (Option.some.inj h).symm hne
        · exact ih
      | some pair =>
        simp only [Option.bind_some]
        split_ifs with hname
        · exact ⟨fun h => (by cases h), fun value _ h => h⟩
        · exact ih

/-! ## What is answered -/

variable {path key : String} {default n : ℕ} {store : Store}

/-- A well-formed parameter is read as the number that it asks for. -/
theorem queryNumber_of_requested (h : Requested path key default n) :
    queryNumber path key default = n := by
  rcases h with ⟨hnone, rfl⟩ | ⟨value, hvalue, hdecimal, hfits⟩
  · rw [queryNumber, queryField_of_queried.1 hnone]
    rfl
  · have hne : value ≠ "" := by
      rintro rfl
      obtain ⟨digits, hdigits, -, hempty | hplus, -⟩ := hdecimal
      · exact hdigits hempty.symm
      · cases hplus
    rw [queryNumber, queryField_of_queried.2 value hne hvalue, Option.bind_some,
      parseUnsigned_eq_some_iff.mpr ⟨hdecimal, hfits⟩, Option.getD_some]

/-- Other numbers than the default are written. -/
theorem written_of_queryNumber (h : queryNumber path key default = n) (hne : n ≠ default) :
    Written path key n := by
  unfold queryNumber at h
  cases hfield : queryField path key with
  | none =>
    rw [hfield] at h
    exact absurd h.symm hne
  | some value =>
    rw [hfield, Option.bind_some] at h
    cases hparse : parseUnsigned u64Max value.toList with
    | none =>
      rw [hparse] at h
      exact absurd h.symm hne
    | some m =>
      rw [hparse] at h
      obtain rfl : m = n := h
      exact ⟨value, hfield, parseUnsigned_eq_some_iff.mp hparse⟩

/-- A number that is written is read. -/
theorem queryNumber_of_written (h : Written path key n) : queryNumber path key default = n := by
  obtain ⟨value, hfield, hdecimal⟩ := h
  rw [queryNumber, hfield, Option.bind_some, parseUnsigned_eq_some_iff.mpr hdecimal,
    Option.getD_some]

/-- A parameter asks for a number exactly when it is well formed. -/
theorem numberOrAbsent_iff : NumberOrAbsent path key ↔ ∃ n, Requested path key default n := by
  unfold NumberOrAbsent Requested
  cases queried path key with
  | none => exact iff_of_true (fun value h => by cases h) ⟨default, .inl ⟨rfl, rfl⟩⟩
  | some value =>
    constructor
    · intro h
      obtain ⟨n, hn⟩ := h value rfl
      exact ⟨n, .inr ⟨value, rfl, hn⟩⟩
    · rintro ⟨n, ⟨hnone, -⟩ | ⟨value', hvalue, hn⟩⟩ value'' hvalue''
      · cases hnone
      · obtain rfl := Option.some.inj (hvalue.symm.trans hvalue'')
        exact ⟨n, hn⟩

/-- `export_audit` answers with a page for numbers in their ranges. -/
theorem exportAudit_ok_iff :
    (exportAudit path store).status = .ok ↔
      (1 ≤ queryNumber path "limit" 1000 ∧ queryNumber path "limit" 1000 ≤ 10000) ∧
        queryNumber path "from" 0 ≤ store.audit.length := by
  simp only [exportAudit, Bool.or_eq_true, decide_eq_true_eq]
  split_ifs with hlimit hstart
  · exact iff_of_false (fun h => by cases h) fun h => by omega
  · exact iff_of_false (fun h => by cases h) fun h => by omega
  · exact iff_of_true rfl (by omega)

/-- **Invalid parameters are refused exactly when both are well formed, or when one of them is
written out of its range.** -/
theorem export_refuses_iff (path : String) (store : Store) :
    ExportRefuses path store ↔
      (NumberOrAbsent path "from" ∧ NumberOrAbsent path "limit") ∨
        (∃ n, Written path "limit" n ∧ (n = 0 ∨ 10000 < n)) ∨
        ∃ n, Written path "from" n ∧ store.audit.length < n := by
  constructor
  · intro h
    by_cases hok : (exportAudit path store).status = .ok
    · obtain ⟨start, limit, stop, hstart, hlimit, -⟩ := h hok
      exact .inl ⟨numberOrAbsent_iff.mpr ⟨start, hstart⟩, numberOrAbsent_iff.mpr ⟨limit, hlimit⟩⟩
    -- The defaults are in range, so the number that is refused is one that is written.
    · rw [exportAudit_ok_iff, not_and_or] at hok
      rcases hok with hlimit | hstart
      · have hlimit : queryNumber path "limit" 1000 = 0 ∨ 10000 < queryNumber path "limit" 1000 := by
          omega
        exact .inr (.inl ⟨_, written_of_queryNumber rfl (by omega), hlimit⟩)
      · have hstart : store.audit.length < queryNumber path "from" 0 := by omega
        exact .inr (.inr ⟨_, written_of_queryNumber rfl (by omega), hstart⟩)
  · rintro (⟨hfrom, hlimit⟩ | ⟨n, hwritten, hn⟩ | ⟨n, hwritten, hn⟩) hok
    · obtain ⟨start, hstart⟩ := numberOrAbsent_iff.mp hfrom
      obtain ⟨limit, hlimit⟩ := numberOrAbsent_iff.mp hlimit
      obtain ⟨hrange, hwithin⟩ := exportAudit_ok_iff.mp hok
      have hpage : exportAudit path store = ⟨.ok, .auditPage store.audit
          (queryNumber path "from" 0) (min (saturatingAdd (queryNumber path "from" 0)
            (queryNumber path "limit" 1000)) store.audit.length)⟩ := by
        rw [exportAudit, if_neg (by simp; omega), if_neg (by omega)]
      rw [queryNumber_of_requested hstart] at hwithin hpage
      rw [queryNumber_of_requested hlimit] at hrange
      exact ⟨start, limit, _, hstart, hlimit, hrange, hwithin, hpage⟩
    · have hrange := (exportAudit_ok_iff.mp hok).1
      rw [queryNumber_of_written hwritten] at hrange
      omega
    · have hwithin := (exportAudit_ok_iff.mp hok).2
      rw [queryNumber_of_written hwritten] at hwithin
      omega

/-- A start that is no number is taken for the first record. -/
theorem malformed_start_answered : ¬∀ (path : String) (store : Store), ExportRefuses path store := by
  intro h
  obtain ⟨start, limit, stop, ⟨hnone, -⟩ | ⟨value, hvalue, hdecimal⟩, -⟩ :=
    h "/v1/audit/export?from=abc" .empty (by decide +kernel)
  · have hasked : queried "/v1/audit/export?from=abc" "from" = some "abc" := by decide +kernel
    rw [hnone] at hasked
    cases hasked
  · have hasked : queried "/v1/audit/export?from=abc" "from" = some "abc" := by decide +kernel
    obtain rfl := Option.some.inj (hasked.symm.trans hvalue)
    have hparse : parseUnsigned u64Max "abc".toList = none := by decide +kernel
    rw [parseUnsigned_eq_some_iff.mpr hdecimal] at hparse
    cases hparse

end NodeWe.ControlPlane
