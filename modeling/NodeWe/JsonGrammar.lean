import NodeWe.Json

/-!
# The JSON grammar

The texts that RFC 8259 gives a value, as a relation (`Denotes`) that knows nothing of how the two
programs write: a character of a string may be written in every way that the grammar has but for
surrogate pairs. The texts have no blanks between tokens, and their numbers are integers.

What the programs rely on is that the third-party parser reads each of these texts whose value is
within its limits (`Rfc8259`, `Value.Bounded`), and that the third-party printer writes one
(`SerdeText`, `LawfulPrinter`). The parser keeps the members of an object in an order of its own, so
what is read is the value with its members arranged (`Value.arrange`), which looks up the same keys.
-/

namespace NodeWe

open Text

/-! ## Numbers -/

/-- The number that the parser reads an unsigned literal as. Beyond `u64` it is a floating-point
number. -/
def Number.ofNat (n : ℕ) : Number := if n ≤ u64Max then .posInt n else .float n.repr

/-- The number that the parser reads a negative literal as. Below `i64` it is a floating-point
number. -/
def Number.ofNeg (n : ℕ) : Number := if n ≤ 2^63 then .negInt n else .float ("-" ++ n.repr)

/-- The number that the parser reads an integer literal as. -/
def Number.ofInt : ℤ → Number
  | .ofNat n => .ofNat n
  | .negSucc n => .ofNeg (n + 1)

/-! ## Strings -/

/-- The value of a hexadecimal digit. -/
def hexDigitValue (c : Char) : Option ℕ :=
  if c.isDigit then some (c.toNat - 48)
  else if 'a' ≤ c ∧ c ≤ 'f' then some (c.toNat - 87)
  else if 'A' ≤ c ∧ c ≤ 'F' then some (c.toNat - 55)
  else none

/-- The escapes of one letter, with the characters they stand for. -/
def letterEscapes : List (Char × Char) :=
  [('"', '"'), ('\\', '\\'), ('/', '/'), ('b', '\x08'), ('f', '\x0c'), ('n', '\n'), ('r', '\r'),
    ('t', '\t')]

/-- The texts of a character in a string. -/
inductive DenotesChar : List Char → Char → Prop
  /-- A character that is no control character, quote, or backslash stands for itself. -/
  | plain (c : Char) (hcontrol : 0x20 ≤ c.toNat) (hquote : c ≠ '"') (hslash : c ≠ '\\') :
      DenotesChar [c] c
  /-- An escape of one letter. -/
  | letter (c x : Char) (h : (c, x) ∈ letterEscapes) : DenotesChar ['\\', c] x
  /-- An escape of four hexadecimal digits, which are the code of a character. -/
  | coded (c₃ c₂ c₁ c₀ x : Char) (d₃ d₂ d₁ d₀ : ℕ) (h₃ : hexDigitValue c₃ = some d₃)
      (h₂ : hexDigitValue c₂ = some d₂) (h₁ : hexDigitValue c₁ = some d₁)
      (h₀ : hexDigitValue c₀ = some d₀) (hx : x.toNat = ((d₃ * 16 + d₂) * 16 + d₁) * 16 + d₀) :
      DenotesChar ['\\', 'u', c₃, c₂, c₁, c₀] x

/-- The texts of a string without its quotes. -/
inductive DenotesChars : List Char → List Char → Prop
  | nil : DenotesChars [] []
  | cons {text rest : List Char} {c : Char} {cs : List Char} (h : DenotesChar text c)
      (hs : DenotesChars rest cs) : DenotesChars (text ++ rest) (c :: cs)

/-- The texts of a string. -/
inductive DenotesString : List Char → String → Prop
  | mk {text : List Char} {s : String} (h : DenotesChars text s.toList) :
      DenotesString ('"' :: (text ++ ['"'])) s

/-! ## Values -/

mutual

/-- The texts of a value. -/
inductive Denotes : List Char → Value → Prop
  | wordNull : Denotes ['n', 'u', 'l', 'l'] .null
  | wordTrue : Denotes ['t', 'r', 'u', 'e'] (.bool true)
  | wordFalse : Denotes ['f', 'a', 'l', 's', 'e'] (.bool false)
  | number (n : ℤ) : Denotes n.repr.toList (.number (.ofInt n))
  | string {text : List Char} {s : String} (h : DenotesString text s) : Denotes text (.string s)
  | emptyArray : Denotes ['[', ']'] (.array [])
  | array {text : List Char} {items : List Value} (h : DenotesItems text items) :
      Denotes ('[' :: (text ++ [']'])) (.array items)
  | emptyObject : Denotes ['\x7b', '\x7d'] (.object [])
  /-- An object with a key twice has no meaning of its own. -/
  | object {text : List Char} {members : List (String × Value)} (h : DenotesMembers text members)
      (hkeys : (members.map Prod.fst).Nodup) :
      Denotes ('\x7b' :: (text ++ ['\x7d'])) (.object members)

/-- The texts of the items of an array that is not empty. -/
inductive DenotesItems : List Char → List Value → Prop
  | last {text : List Char} {v : Value} (h : Denotes text v) : DenotesItems text [v]
  | cons {text rest : List Char} {v : Value} {items : List Value} (h : Denotes text v)
      (hs : DenotesItems rest items) : DenotesItems (text ++ ',' :: rest) (v :: items)

/-- The texts of the members of an object that is not empty. -/
inductive DenotesMembers : List Char → List (String × Value) → Prop
  | last {key text : List Char} {name : String} {v : Value} (hkey : DenotesString key name)
      (h : Denotes text v) : DenotesMembers (key ++ ':' :: text) [(name, v)]
  | cons {key text rest : List Char} {name : String} {v : Value} {members : List (String × Value)}
      (hkey : DenotesString key name) (h : Denotes text v) (hs : DenotesMembers rest members) :
      DenotesMembers (key ++ ':' :: (text ++ ',' :: rest)) ((name, v) :: members)

end

/-! ## Depths and orders -/

mutual

/-- How deeply a value nests arrays and objects. -/
def Value.depth : Value → ℕ
  | .array items => Value.itemsDepth items + 1
  | .object members => Value.membersDepth members + 1
  | _ => 0

/-- The depth of the deepest item. -/
def Value.itemsDepth : List Value → ℕ
  | [] => 0
  | v :: rest => max v.depth (Value.itemsDepth rest)

/-- The depth of the deepest member. -/
def Value.membersDepth : List (String × Value) → ℕ
  | [] => 0
  | m :: rest => max m.2.depth (Value.membersDepth rest)

end

mutual

/-- A value with the members of its objects in an order. -/
def Value.arrange (order : List (String × Value) → List (String × Value)) : Value → Value
  | .array items => .array (Value.arrangeItems order items)
  | .object members => .object (order (Value.arrangeMembers order members))
  | v => v

/-- Items with the members of their objects in an order. -/
def Value.arrangeItems (order : List (String × Value) → List (String × Value)) :
    List Value → List Value
  | [] => []
  | v :: rest => v.arrange order :: Value.arrangeItems order rest

/-- Members with the members of their objects in an order. -/
def Value.arrangeMembers (order : List (String × Value) → List (String × Value)) :
    List (String × Value) → List (String × Value)
  | [] => []
  | m :: rest => (m.1, m.2.arrange order) :: Value.arrangeMembers order rest

end

/-- A value without floating-point numbers, whose integers are in the ranges of the parser's types and
whose objects have no key twice. -/
inductive Value.Whole : Value → Prop
  | null : Whole .null
  | bool (b : Bool) : Whole (.bool b)
  | number (n : ℤ) (hlow : -2^63 ≤ n) (hhigh : n ≤ u64Max) : Whole (.number (.ofInt n))
  | string (s : String) : Whole (.string s)
  | array (items : List Value) (h : ∀ v ∈ items, Whole v) : Whole (.array items)
  | object (members : List (String × Value)) (hkeys : (members.map Prod.fst).Nodup)
      (h : ∀ m ∈ members, Whole m.2) : Whole (.object members)

/-- A value within the limits of the parser: its numbers are in the ranges of the parser's types, and
it is not nested deeper than the parser goes. -/
structure Value.Bounded (v : Value) : Prop where
  whole : v.Whole
  depth : v.depth ≤ 127

/-! ## The third-party crate -/

/-- The JSON parser: it reads every text of the grammar whose value is within its limits, and has an
order for the members of objects. -/
class Rfc8259 [Serde] where
  order : List (String × Value) → List (String × Value)
  perm_order : ∀ members, (order members).Perm members
  reads : ∀ {text : List Char} {v : Value}, Denotes text v → v.Bounded →
    Serde.fromStr (String.ofList text) = some (v.arrange order)

/-- The third-party printer. -/
class SerdeText where
  /-- `Value::to_string`. -/
  toText : Value → String

/-- The JSON printer writes texts of the grammar. -/
class LawfulPrinter [SerdeText] : Prop where
  prints : ∀ {v : Value}, v.Whole → Denotes (SerdeText.toText v).toList v

/-! ## Arranged values -/

section Arranged

variable {order : List (String × Value) → List (String × Value)}

/-- Items are arranged one by one. -/
theorem Value.arrangeItems_eq_map (items : List Value) :
    Value.arrangeItems order items = items.map (Value.arrange order) := by
  induction items with
  | nil => rw [Value.arrangeItems, List.map_nil]
  | cons v rest ih => rw [Value.arrangeItems, ih, List.map_cons]

/-- Members are arranged one by one. -/
theorem Value.arrangeMembers_eq_map (members : List (String × Value)) :
    Value.arrangeMembers order members = members.map fun m => (m.1, m.2.arrange order) := by
  induction members with
  | nil => rw [Value.arrangeMembers, List.map_nil]
  | cons m rest ih => rw [Value.arrangeMembers, ih, List.map_cons]

/-- A text stays as it is. -/
theorem Value.asStr_arrange (v : Value) : (v.arrange order).asStr = v.asStr := by
  cases v <;> rw [Value.arrange] <;> first | rfl | nofun

/-- A number stays as it is. -/
theorem Value.asU64_arrange (v : Value) : (v.arrange order).asU64 = v.asU64 := by
  cases v <;> rw [Value.arrange] <;> first | rfl | nofun

/-- The depth of some items is bounded by a bound of each. -/
theorem Value.itemsDepth_le {items : List Value} {n : ℕ} :
    Value.itemsDepth items ≤ n ↔ ∀ v ∈ items, v.depth ≤ n := by
  induction items with
  | nil => simp [Value.itemsDepth]
  | cons v rest ih => rw [Value.itemsDepth, max_le_iff, ih, List.forall_mem_cons]

/-- The depth of some members is bounded by a bound of each. -/
theorem Value.membersDepth_le {members : List (String × Value)} {n : ℕ} :
    Value.membersDepth members ≤ n ↔ ∀ m ∈ members, m.2.depth ≤ n := by
  induction members with
  | nil => simp [Value.membersDepth]
  | cons m rest ih => rw [Value.membersDepth, max_le_iff, ih, List.forall_mem_cons]

/-- A key is looked up alike in every order of members without a key twice. -/
theorem Value.get_perm {ms ns : List (String × Value)} (h : ms.Perm ns)
    (hkeys : (ms.map Prod.fst).Nodup) (key : String) :
    (Value.object ms).get key = (Value.object ns).get key := by
  have hone : {m ∈ ms | (m.1 == key) = true}.Subsingleton := by
    intro m hm n hn
    have hsame : m.1 = n.1 := (beq_iff_eq.mp hm.2).trans (beq_iff_eq.mp hn.2).symm
    exact List.inj_on_of_nodup_map hkeys hm.1 hn.1 hsame
  exact congrArg (Option.map Prod.snd) (List.find?_eq_find?_of_perm h hone)

/-- A key is looked up alike in arranged members, and its value is arranged. -/
theorem Value.get_arrange (hperm : ∀ members, (order members).Perm members)
    {members : List (String × Value)} (hkeys : (members.map Prod.fst).Nodup) (key : String) :
    ((Value.object members).arrange order).get key =
      ((Value.object members).get key).map (Value.arrange order) := by
  have hkeys' : ((members.map fun m => (m.1, m.2.arrange order)).map Prod.fst).Nodup := by
    rw [List.map_map]
    exact hkeys
  rw [Value.arrange, Value.arrangeMembers_eq_map, ← Value.get_perm (hperm _).symm hkeys']
  show Option.map Prod.snd (List.find? _ (List.map _ members)) = _
  rw [List.find?_map, Option.map_map]
  exact (Option.map_map (Value.arrange order) Prod.snd _).symm

/-- A whole value is whole in every order. -/
theorem Value.Whole.arrange (hperm : ∀ members, (order members).Perm members) {v : Value}
    (h : v.Whole) : (v.arrange order).Whole := by
  induction h with
  | null => exact .null
  | bool b => exact .bool b
  | number n hlow hhigh => exact .number n hlow hhigh
  | string s => exact .string s
  | array items h ih =>
    rw [Value.arrange, Value.arrangeItems_eq_map]
    exact .array _ (List.forall_mem_map.mpr ih)
  | object members hkeys h ih =>
    rw [Value.arrange, Value.arrangeMembers_eq_map]
    refine .object _ ?_ fun m hm => ?_
    · rw [((hperm _).map Prod.fst).nodup_iff, List.map_map]
      exact hkeys
    · obtain ⟨old, hold, rfl⟩ := List.mem_map.mp ((hperm _).mem_iff.mp hm)
      exact ih old hold

/-- A whole value is as deep in every order. -/
theorem Value.Whole.depth_arrange (hperm : ∀ members, (order members).Perm members) {v : Value}
    (h : v.Whole) : (v.arrange order).depth ≤ v.depth := by
  induction h with
  | null => exact le_rfl
  | bool b => exact le_rfl
  | number n hlow hhigh => exact le_rfl
  | string s => exact le_rfl
  | array items h ih =>
    have hitems := Value.itemsDepth_le.mp (le_refl (Value.itemsDepth items))
    rw [Value.arrange, Value.arrangeItems_eq_map, Value.depth, Value.depth]
    refine Nat.add_le_add_right (Value.itemsDepth_le.mpr (List.forall_mem_map.mpr ?_)) 1
    exact fun v hv => (ih v hv).trans (hitems v hv)
  | object members hkeys h ih =>
    have hmembers := Value.membersDepth_le.mp (le_refl (Value.membersDepth members))
    rw [Value.arrange, Value.arrangeMembers_eq_map, Value.depth, Value.depth]
    refine Nat.add_le_add_right (Value.membersDepth_le.mpr fun m hm => ?_) 1
    obtain ⟨old, hold, rfl⟩ := List.mem_map.mp ((hperm _).mem_iff.mp hm)
    exact (ih old hold).trans (hmembers old hold)

end Arranged

mutual

/-- A value whose members stay where they are is left as it is. -/
theorem Value.arrange_id : ∀ v : Value, v.arrange id = v
  | .null => rfl
  | .bool _ => rfl
  | .number _ => rfl
  | .string _ => rfl
  | .array items => by rw [Value.arrange, Value.arrangeItems_id items]
  | .object members => by rw [Value.arrange, Value.arrangeMembers_id members, id]

/-- Items whose members stay where they are are left as they are. -/
theorem Value.arrangeItems_id : ∀ items : List Value, Value.arrangeItems id items = items
  | [] => rfl
  | v :: rest => by rw [Value.arrangeItems, Value.arrange_id v, Value.arrangeItems_id rest]

/-- Members whose members stay where they are are left as they are. -/
theorem Value.arrangeMembers_id :
    ∀ members : List (String × Value), Value.arrangeMembers id members = members
  | [] => rfl
  | m :: rest => by rw [Value.arrangeMembers, Value.arrange_id m.2, Value.arrangeMembers_id rest]

end

end NodeWe
