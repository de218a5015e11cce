import NodeWe.JsonReader
import NodeWe.ControlPlane.Render

/-!
# JSON texts

The text of a JSON value as the two programs write it: no blanks, and the escapes of `esc`. It is a
text of the grammar (`Value.Fits.denotes`), and so the third-party parser reads it back: a member of
an object that it has read is the one that was written (`jsonField_denotes`).
-/

namespace NodeWe

open Text ControlPlane

/-! ## Texts of values -/

/-- The text of a number. -/
def Number.text : Number → String
  | posInt n => n.repr
  | negInt n => "-" ++ n.repr
  | float literal => literal

mutual

/-- The characters of a value. -/
def Value.chars : Value → List Char
  | .null => "null".toList
  | .bool b => (boolText b).toList
  | .number n => n.text.toList
  | .string s => (quoted s).toList
  | .array items => '[' :: (Value.itemChars items ++ [']'])
  | .object members => '\x7b' :: (Value.memberChars members ++ ['\x7d'])

/-- The characters of the items of an array. -/
def Value.itemChars : List Value → List Char
  | [] => []
  | [v] => v.chars
  | v :: w :: rest => v.chars ++ ',' :: Value.itemChars (w :: rest)

/-- The characters of the members of an object. -/
def Value.memberChars : List (String × Value) → List Char
  | [] => []
  | [m] => (quoted m.1).toList ++ ':' :: m.2.chars
  | m :: m' :: rest =>
    (quoted m.1).toList ++ ':' :: (m.2.chars ++ ',' :: Value.memberChars (m' :: rest))

end

/-- The text of a value. -/
def Value.text (v : Value) : String := String.ofList v.chars

/-- A number that is the reading of its own text. -/
inductive Number.Fits : Number → Prop
  | posInt (n : ℕ) (h : n ≤ u64Max) : Fits (.posInt n)
  | negInt (n : ℕ) (hpos : 0 < n) (h : n ≤ 2^63) : Fits (.negInt n)
  | above (n : ℕ) (h : u64Max < n) : Fits (.float n.repr)
  | below (n : ℕ) (h : 2^63 < n) : Fits (.float ("-" ++ n.repr))

/-- A value whose numbers are readings of their texts, and whose objects have no key twice. -/
inductive Value.Fits : Value → Prop
  | null : Fits .null
  | bool (b : Bool) : Fits (.bool b)
  | number (n : Number) (h : n.Fits) : Fits (.number n)
  | string (s : String) : Fits (.string s)
  | array (items : List Value) (h : ∀ v ∈ items, Fits v) : Fits (.array items)
  | object (members : List (String × Value)) (hkeys : (members.map Prod.fst).Nodup)
      (h : ∀ m ∈ members, Fits m.2) : Fits (.object members)

/-- The reading of an unsigned literal fits. -/
theorem Number.fits_ofNat (n : ℕ) : (Number.ofNat n).Fits := by
  unfold Number.ofNat
  split_ifs with h
  · exact .posInt n h
  · exact .above n (by omega)

/-- The reading of a negative literal fits. -/
theorem Number.fits_ofNeg {n : ℕ} (hpos : 0 < n) : (Number.ofNeg n).Fits := by
  unfold Number.ofNeg
  split_ifs with h
  · exact .negInt n hpos h
  · exact .below n (by omega)

/-- The reading of an integer literal fits. -/
theorem Number.fits_ofInt (n : ℤ) : (Number.ofInt n).Fits := by
  cases n with
  | ofNat n => exact fits_ofNat n
  | negSucc n => exact fits_ofNeg n.succ_pos

/-- An unsigned literal is the text of its reading. -/
theorem Number.text_ofNat (n : ℕ) : (Number.ofNat n).text = n.repr := by
  unfold Number.ofNat
  split_ifs <;> rfl

/-- A negative literal is the text of its reading. -/
theorem Number.text_ofNeg (n : ℕ) : (Number.ofNeg n).text = "-" ++ n.repr := by
  unfold Number.ofNeg
  split_ifs <;> rfl

/-- An integer literal is the text of its reading. -/
theorem Number.text_ofInt (n : ℤ) : (Number.ofInt n).text = n.repr := by
  cases n with
  | ofNat n => exact text_ofNat n
  | negSucc n => exact text_ofNeg (n + 1)

/-! ## The grammar -/

/-- The hexadecimal digits are read back. -/
theorem hexDigitValue_digitChar : ∀ d < 16, hexDigitValue d.digitChar = some d := by decide

/-- A character is escaped as a text of it. -/
theorem denotesChar_escChar (c : Char) : DenotesChar (escChar c) c := by
  unfold escChar
  split_ifs with hquote hslash hfeed hreturn htab hcontrol
  · exact hquote ▸ .letter '"' '"' (by decide)
  · exact hslash ▸ .letter '\\' '\\' (by decide)
  · exact hfeed ▸ .letter 'n' '\n' (by decide)
  · exact hreturn ▸ .letter 'r' '\r' (by decide)
  · exact htab ▸ .letter 't' '\t' (by decide)
  · -- A control character is below 256, so that two digits hold its code.
    have hbound : c.toNat < 256 := by
      simp only [isControl, Bool.or_eq_true, Bool.and_eq_true, decide_eq_true_eq] at hcontrol
      omega
    have hhigh := hexDigitValue_digitChar (c.toNat / 16) (by omega)
    have hlow := hexDigitValue_digitChar (c.toNat % 16) (by omega)
    exact .coded '0' '0' _ _ c 0 0 _ _ rfl rfl hhigh hlow (by omega)
  · refine .plain c ?_ hquote hslash
    simp only [isControl, Bool.or_eq_true, Bool.and_eq_true, decide_eq_true_eq, not_or] at hcontrol
    omega

/-- An escaped string is a text of it. -/
theorem denotesChars_esc (s : List Char) : DenotesChars (s.flatMap escChar) s := by
  induction s with
  | nil => exact .nil
  | cons c s ih => exact .cons (denotesChar_escChar c) ih

/-- The characters of a JSON string. -/
theorem toList_quoted (s : String) :
    (quoted s).toList = '"' :: (s.toList.flatMap escChar ++ ['"']) := by
  simp [quoted, esc]

/-- A JSON string is a text of the string. -/
theorem denotesString_quoted (s : String) : DenotesString (quoted s).toList s := by
  rw [toList_quoted]
  exact .mk (denotesChars_esc s.toList)

/-- A number that is the reading of its own text is an integer. -/
theorem Number.Fits.integer {n : Number} (h : n.Fits) :
    ∃ k : ℤ, n = .ofInt k ∧ n.text.toList = k.repr.toList := by
  cases h with
  | posInt n h => exact ⟨.ofNat n, by rw [Number.ofInt, Number.ofNat, if_pos h], rfl⟩
  | above n h => exact ⟨.ofNat n, by rw [Number.ofInt, Number.ofNat, if_neg (by omega)], rfl⟩
  | negInt n hpos h =>
    obtain ⟨k, rfl⟩ := Nat.exists_eq_succ_of_ne_zero hpos.ne'
    exact ⟨.negSucc k, by rw [Number.ofInt, Number.ofNeg, if_pos h], rfl⟩
  | below n h =>
    obtain ⟨k, rfl⟩ := Nat.exists_eq_succ_of_ne_zero (Nat.ne_zero_of_lt h)
    exact ⟨.negSucc k, by rw [Number.ofInt, Number.ofNeg, if_neg (by omega)], rfl⟩

/-- The items of an array are written as texts of them. -/
theorem Value.denotes_itemChars {items : List Value} (hne : items ≠ [])
    (h : ∀ v ∈ items, Denotes v.chars v) : DenotesItems (Value.itemChars items) items := by
  induction items with
  | nil => exact absurd rfl hne
  | cons v rest ih =>
    rw [List.forall_mem_cons] at h
    cases rest with
    | nil =>
      rw [Value.itemChars]
      exact .last h.1
    | cons w rest =>
      rw [Value.itemChars]
      exact .cons h.1 (ih (List.cons_ne_nil _ _) h.2)

/-- The members of an object are written as texts of them. -/
theorem Value.denotes_memberChars {members : List (String × Value)} (hne : members ≠ [])
    (h : ∀ m ∈ members, Denotes m.2.chars m.2) :
    DenotesMembers (Value.memberChars members) members := by
  induction members with
  | nil => exact absurd rfl hne
  | cons m rest ih =>
    rw [List.forall_mem_cons] at h
    cases rest with
    | nil =>
      rw [Value.memberChars]
      exact .last (denotesString_quoted m.1) h.1
    | cons m' rest =>
      rw [Value.memberChars]
      exact .cons (denotesString_quoted m.1) h.1 (ih (List.cons_ne_nil _ _) h.2)

/-- **A value is written as a text of it.** -/
theorem Value.Fits.denotes {v : Value} (h : v.Fits) : Denotes v.chars v := by
  induction h with
  | null => exact .wordNull
  | bool b => cases b <;> first | exact .wordTrue | exact .wordFalse
  | number n h =>
    obtain ⟨k, hn, htext⟩ := h.integer
    rw [Value.chars, htext, hn]
    exact .number k
  | string s =>
    rw [Value.chars]
    exact .string (denotesString_quoted s)
  | array items h ih =>
    rw [Value.chars]
    by_cases hne : items = []
    · subst hne
      exact .emptyArray
    · exact .array (Value.denotes_itemChars hne ih)
  | object members hkeys h ih =>
    rw [Value.chars]
    by_cases hne : members = []
    · subst hne
      exact .emptyObject
    · exact .object (Value.denotes_memberChars hne ih) hkeys

/-- The text of a value that fits denotes it. -/
theorem Value.Fits.denotes_text {v : Value} (h : v.Fits) : Denotes v.text.toList v := by
  rw [Value.text, String.toList_ofList]
  exact h.denotes

/-- A whole value fits. -/
theorem Value.Whole.fits {v : Value} (h : v.Whole) : v.Fits := by
  induction h with
  | null => exact .null
  | bool b => exact .bool b
  | number n hlow hhigh => exact .number _ (Number.fits_ofInt n)
  | string s => exact .string s
  | array items h ih => exact .array items ih
  | object members hkeys h ih => exact .object members hkeys ih

/-- An unsigned integer within its type is whole. -/
theorem Value.whole_ofNat {n : ℕ} (h : n ≤ u64Max) : (Value.number (.ofNat n)).Whole :=
  .number (.ofNat n) (by simp only [Int.ofNat_eq_natCast]; omega)
    (by simp only [Int.ofNat_eq_natCast]; omega)

/-- The printer that writes as the two programs do. -/
@[reducible] def compactText : SerdeText where
  toText := Value.text

/-- It writes texts of the grammar. -/
theorem lawful_compactText : @LawfulPrinter compactText :=
  @LawfulPrinter.mk compactText fun h => h.fits.denotes_text

/-! ## Reading -/

section Reading

/-- An object that a text denotes has no key twice. -/
theorem nodup_of_denotes {text : List Char} {members : List (String × Value)}
    (h : Denotes text (.object members)) : (members.map Prod.fst).Nodup := by
  cases h with
  | emptyObject => exact List.nodup_nil
  | object h hkeys => exact hkeys

/-- An object of plain members is within the limits of the parser. -/
theorem Value.bounded_object {members : List (String × Value)} (hkeys : (members.map Prod.fst).Nodup)
    (h : ∀ m ∈ members, m.2.Whole ∧ m.2.depth = 0) : (Value.object members).Bounded where
  whole := .object members hkeys fun m hm => (h m hm).1
  depth := by
    have hmembers : Value.membersDepth members ≤ 0 :=
      Value.membersDepth_le.mpr fun m hm => (h m hm).2.le
    rw [Value.depth]
    omega

variable [Serde] [Rfc8259]

/-- A text member is read as it is. -/
theorem bind_asStr_arrange (v : Option Value) :
    (v.map (Value.arrange Rfc8259.order)).bind Value.asStr = v.bind Value.asStr := by
  cases v with
  | none => rfl
  | some v => exact Value.asStr_arrange v

/-- A numeric member is read as it is. -/
theorem bind_asU64_arrange (v : Option Value) :
    (v.map (Value.arrange Rfc8259.order)).bind Value.asU64 = v.bind Value.asU64 := by
  cases v with
  | none => rfl
  | some v => exact Value.asU64_arrange v

variable {text : String} {members : List (String × Value)}

section Denoted

variable (h : Denotes text.toList (.object members)) (hbounded : (Value.object members).Bounded)

include h hbounded

/-- An object is read as an object that has the same keys. -/
theorem fromStr_object :
    ∃ read, Serde.fromStr text = some (.object read) ∧
      ∀ key, (Value.object read).get key =
        ((Value.object members).get key).map (Value.arrange Rfc8259.order) := by
  have hread := Rfc8259.reads h hbounded
  rw [String.ofList_toList] at hread
  have hget := Value.get_arrange Rfc8259.perm_order (nodup_of_denotes h)
  rw [Value.arrange] at hread hget
  exact ⟨_, hread, hget⟩

/-- The control plane takes it for an object. -/
theorem parseJsonObject_denotes :
    ∃ read, parseJsonObject text = some (.object read) ∧
      ∀ key, (Value.object read).get key =
        ((Value.object members).get key).map (Value.arrange Rfc8259.order) := by
  obtain ⟨read, hread, hget⟩ := fromStr_object h hbounded
  refine ⟨read, ?_, hget⟩
  rw [parseJsonObject, hread]

/-- The control plane reads the text members of an object. -/
theorem jsonField_denotes (key : String) :
    jsonField text key = ((Value.object members).get key).bind Value.asStr := by
  obtain ⟨read, hread, hget⟩ := parseJsonObject_denotes h hbounded
  rw [jsonField, hread, Option.bind_some, hget, bind_asStr_arrange]

/-- The control plane reads the numeric members of an object. -/
theorem jsonNumber_denotes (key : String) :
    jsonNumber text key = ((Value.object members).get key).bind Value.asU64 := by
  obtain ⟨read, hread, hget⟩ := parseJsonObject_denotes h hbounded
  rw [jsonNumber, hread, Option.bind_some, hget, bind_asU64_arrange]

/-- The control plane checks the text members of an object. -/
theorem jsonTypesValid_denotes {fields : List (String × String)}
    (hget : ∀ m ∈ fields, (Value.object members).get m.1 = some (.string m.2)) :
    jsonTypesValid text (fields.map Prod.fst) [] [] = true := by
  obtain ⟨read, hread, hread'⟩ := parseJsonObject_denotes h hbounded
  have hstrings : (fields.map Prod.fst).all
      (fun key => ((Value.object read).get key).all Value.isString) = true := by
    refine List.all_eq_true.mpr (List.forall_mem_map.mpr fun m hm => ?_)
    rw [hread', hget m hm]
    rfl
  rw [jsonTypesValid, hread]
  dsimp only
  rw [hstrings]
  rfl

end Denoted

omit [Serde] [Rfc8259] in
/-- A plain value has no members to order. -/
theorem Value.arrange_plain (order : List (String × Value) → List (String × Value)) {v : Value}
    (h : v.depth = 0) : v.arrange order = v := by
  cases v with
  | array | object =>
    rw [Value.depth] at h
    omega
  | null | bool | number | string => rw [Value.arrange] <;> simp

/-- The text of an object of plain members is read as an object that has the same members. -/
theorem parseJsonObject_plain (hkeys : (members.map Prod.fst).Nodup)
    (h : ∀ m ∈ members, m.2.Whole ∧ m.2.depth = 0) :
    ∃ read, parseJsonObject (Value.object members).text = some (.object read) ∧
      ∀ key, (Value.object read).get key = (Value.object members).get key := by
  have hbounded := Value.bounded_object hkeys h
  obtain ⟨read, hread, hget⟩ := parseJsonObject_denotes hbounded.whole.fits.denotes_text hbounded
  refine ⟨read, hread, fun key => ?_⟩
  rw [hget, Value.get, Option.map_map]
  cases hfind : members.find? fun m => m.1 == key with
  | none => rfl
  | some m =>
    rw [Option.map_some, Option.map_some, Function.comp_apply,
      Value.arrange_plain _ (h m (List.mem_of_find?_eq_some hfind)).2]

end Reading

end NodeWe
