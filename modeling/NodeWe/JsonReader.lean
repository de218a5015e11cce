import NodeWe.JsonGrammar

/-!
# A JSON parser

A parser of the kind that the programs rely on: `readJson` reads every text of the grammar as the
value that it denotes, and keeps the members of an object in the order of the text.
-/

namespace NodeWe

open Text

/-! ## A parser -/

/-- The character of an escape of one letter. -/
def escapedChar (c : Char) : Option Char :=
  if c = '"' ∨ c = '\\' ∨ c = '/' then some c
  else if c = 'n' then some '\n'
  else if c = 'r' then some '\r'
  else if c = 't' then some '\t'
  else if c = 'b' then some '\x08'
  else if c = 'f' then some '\x0c'
  else none

/-- The character of an escape of four hexadecimal digits. -/
def codedChar (a b c d : Char) : Option Char := do
  let a ← hexDigitValue a
  let b ← hexDigitValue b
  let c ← hexDigitValue c
  let d ← hexDigitValue d
  let code := ((a * 16 + b) * 16 + c) * 16 + d
  if code.isValidChar then some (Char.ofNat code) else none

/-- Reads a string behind its opening quote. Surrogate escapes are not read. -/
def readString : List Char → Option (List Char × List Char)
  | '"' :: rest => some ([], rest)
  | '\\' :: 'u' :: a :: b :: c :: d :: rest =>
    (codedChar a b c d).bind fun x => (readString rest).map fun (s, rest) => (x :: s, rest)
  | '\\' :: c :: rest =>
    (escapedChar c).bind fun x => (readString rest).map fun (s, rest) => (x :: s, rest)
  | c :: rest => (readString rest).map fun (s, rest) => (c :: s, rest)
  | [] => none

/-- Reads a key and the colon behind it. -/
def readKey (cs : List Char) : Option (String × List Char) :=
  if cs.head? = some '"' then
    (readString cs.tail).bind fun (key, rest) =>
      if rest.head? = some ':' then some (String.ofList key, rest.tail) else none
  else none

/-- Reads the digits of a number, and makes it what `number` says. -/
def readDigits (number : ℕ → Number) (cs : List Char) : Option (Value × List Char) :=
  (parseDigits (cs.takeWhile Char.isDigit)).map fun n =>
    (.number (number n), cs.dropWhile Char.isDigit)

/-- Reads a word and makes it the value. -/
def readWord (word : String) (v : Value) (cs : List Char) : Option (Value × List Char) :=
  if word.toList.isPrefixOf cs then some (v, cs.drop word.length) else none

mutual

/-- Reads a value, with fuel for the characters that are left. -/
def readValue : ℕ → List Char → Option (Value × List Char)
  | 0, _ => none
  | _ + 1, [] => none
  | fuel + 1, c :: rest =>
    if c = '"' then (readString rest).map fun (s, rest) => (.string (String.ofList s), rest)
    else if c = '[' then
      if rest.head? = some ']' then some (.array [], rest.tail)
      else (readItems fuel rest).map fun (items, rest) => (.array items, rest)
    else if c = '\x7b' then
      if rest.head? = some '\x7d' then some (.object [], rest.tail)
      else (readMembers fuel rest).map fun (members, rest) => (.object members, rest)
    else if c = 'n' then readWord "null" .null (c :: rest)
    else if c = 't' then readWord "true" (.bool true) (c :: rest)
    else if c = 'f' then readWord "false" (.bool false) (c :: rest)
    else if c = '-' then readDigits .ofNeg rest
    else readDigits .ofNat (c :: rest)

/-- Reads the items of an array and its closing bracket. -/
def readItems : ℕ → List Char → Option (List Value × List Char)
  | 0, _ => none
  | fuel + 1, cs =>
    (readValue fuel cs).bind fun (v, rest) =>
      if rest.head? = some ',' then
        (readItems fuel rest.tail).map fun (items, rest) => (v :: items, rest)
      else if rest.head? = some ']' then some ([v], rest.tail)
      else none

/-- Reads the members of an object and its closing brace. -/
def readMembers : ℕ → List Char → Option (List (String × Value) × List Char)
  | 0, _ => none
  | fuel + 1, cs =>
    (readKey cs).bind fun (key, rest) => (readValue fuel rest).bind fun (v, rest) =>
      if rest.head? = some ',' then
        (readMembers fuel rest.tail).map fun (members, rest) => ((key, v) :: members, rest)
      else if rest.head? = some '\x7d' then some ([(key, v)], rest.tail)
      else none

end

/-- Reads a text that is one value. -/
def readJson (text : String) : Option Value :=
  match readValue (text.length + 1) text.toList with
  | some (v, []) => some v
  | _ => none

/-! ## Reading the grammar -/

/-- An escape of one letter is read as what it stands for, and is not one of four digits. -/
theorem escapedChar_letter : ∀ e ∈ letterEscapes, e.1 ≠ 'u' ∧ escapedChar e.1 = some e.2 := by
  decide

/-- An escape of four digits is read as the character whose code they are. -/
theorem codedChar_digits {c₃ c₂ c₁ c₀ x : Char} {d₃ d₂ d₁ d₀ : ℕ} (h₃ : hexDigitValue c₃ = some d₃)
    (h₂ : hexDigitValue c₂ = some d₂) (h₁ : hexDigitValue c₁ = some d₁)
    (h₀ : hexDigitValue c₀ = some d₀) (hx : x.toNat = ((d₃ * 16 + d₂) * 16 + d₁) * 16 + d₀) :
    codedChar c₃ c₂ c₁ c₀ = some x := by
  have hvalid : x.toNat.isValidChar := x.valid
  simp only [codedChar, h₃, h₂, h₁, h₀, Option.bind_eq_bind, Option.bind_some, ← hx,
    if_pos hvalid, Char.ofNat_toNat]

/-- A character of a string is read. -/
theorem readString_char {text : List Char} {c : Char} (h : DenotesChar text c) (rest : List Char) :
    readString (text ++ rest) = (readString rest).map fun (s, rest) => (c :: s, rest) := by
  cases h with
  | plain c hcontrol hquote hslash =>
    rw [List.singleton_append, readString.eq_def]
    split <;> simp_all
  | letter l x h =>
    obtain ⟨hcoded, hescaped⟩ := escapedChar_letter _ h
    have hread := readString.eq_3 l rest fun _ _ _ _ _ hl _ => hcoded hl
    rw [hescaped] at hread
    exact hread
  | coded c₃ c₂ c₁ c₀ x d₃ d₂ d₁ d₀ h₃ h₂ h₁ h₀ hx =>
    have hread := readString.eq_2 c₃ c₂ c₁ c₀ rest
    rw [codedChar_digits h₃ h₂ h₁ h₀ hx] at hread
    exact hread

/-- A string is read behind its opening quote. -/
theorem readString_chars {text s : List Char} (h : DenotesChars text s) (rest : List Char) :
    readString (text ++ '"' :: rest) = some (s, rest) := by
  induction h with
  | nil => rfl
  | cons hc hs ih =>
    rw [List.append_assoc, readString_char hc, ih]
    rfl

/-- A key is read with its colon. -/
theorem readKey_string {text : List Char} {key : String} (h : DenotesString text key)
    (rest : List Char) : readKey (text ++ ':' :: rest) = some (key, rest) := by
  obtain ⟨hchars⟩ := h
  rw [List.cons_append, List.append_assoc, List.singleton_append, readKey, List.head?_cons,
    if_pos rfl, List.tail_cons, readString_chars hchars, Option.bind_some]
  dsimp only
  rw [List.head?_cons, if_pos rfl, String.ofList_toList, List.tail_cons]

/-- What follows a value does not go on with its digits. -/
def Delimited (rest : List Char) : Prop := ∀ c ∈ rest.head?, c.isDigit = false

/-- A character that is no digit delimits. -/
theorem delimited_cons {c : Char} (h : c.isDigit = false) (rest : List Char) :
    Delimited (c :: rest) := by
  intro d hd
  rw [← Option.some.inj (Option.mem_def.mp hd)]
  exact h

/-- The digits of a number read back. -/
theorem readDigits_repr (number : ℕ → Number) (n : ℕ) {rest : List Char} (h : Delimited rest) :
    readDigits number (n.repr.toList ++ rest) = some (.number (number n), rest) := by
  have hdigits : ∀ c ∈ n.repr.toList, c.isDigit = true := fun c => isDigit_of_mem_repr
  have hrest : rest.takeWhile Char.isDigit = [] ∧ rest.dropWhile Char.isDigit = rest := by
    cases rest with
    | nil => exact ⟨rfl, rfl⟩
    | cons c rest => simp [h c rfl]
  rw [readDigits, List.takeWhile_append_of_pos hdigits, List.dropWhile_append_of_pos hdigits,
    hrest.1, hrest.2, List.append_nil, parseDigits_repr]
  rfl

/-- A number is read. -/
theorem readValue_number (n : ℤ) {rest : List Char} (hrest : Delimited rest) (fuel : ℕ) :
    readValue (fuel + 1) (n.repr.toList ++ rest) = some (.number (.ofInt n), rest) := by
  cases n with
  | ofNat n =>
    have hread := readDigits_repr .ofNat n hrest
    obtain ⟨c, cs, hcs⟩ := List.exists_cons_of_ne_nil (l := n.repr.toList) (by simp)
    have hdigit : c.isDigit = true := isDigit_of_mem_repr (hcs ▸ List.mem_cons_self)
    have hother : ∀ d, d.isDigit = false → c ≠ d := by
      rintro d hd rfl
      exact Bool.false_ne_true (hd.symm.trans hdigit)
    show readValue (fuel + 1) (n.repr.toList ++ rest) = _
    rw [hcs] at hread ⊢
    rw [List.cons_append, readValue, if_neg (hother _ (by decide)), if_neg (hother _ (by decide)),
      if_neg (hother _ (by decide)), if_neg (hother _ (by decide)), if_neg (hother _ (by decide)),
      if_neg (hother _ (by decide)), if_neg (hother _ (by decide))]
    exact hread
  | negSucc n =>
    show readValue (fuel + 1) (("-" ++ (n + 1).repr).toList ++ rest) = _
    rw [String.toList_append]
    exact readDigits_repr .ofNeg (n + 1) hrest

/-- A number begins with a digit or a sign. -/
theorem head_repr (n : ℤ) :
    ∃ c cs, n.repr.toList = c :: cs ∧ (c.isDigit = true ∨ c = '-') := by
  cases n with
  | ofNat n =>
    obtain ⟨c, cs, hcs⟩ := List.exists_cons_of_ne_nil (l := n.repr.toList) (by simp)
    exact ⟨c, cs, hcs, .inl (isDigit_of_mem_repr (hcs ▸ List.mem_cons_self))⟩
  | negSucc n =>
    refine ⟨'-', (n + 1).repr.toList, ?_, .inr rfl⟩
    show ("-" ++ (n + 1).repr).toList = _
    rw [String.toList_append]
    rfl

/-- A value does not begin with a closing bracket. -/
theorem Denotes.head {text : List Char} {v : Value} (h : Denotes text v) :
    ∃ c cs, text = c :: cs ∧ c ≠ ']' := by
  cases h with
  | wordNull => exact ⟨'n', _, rfl, by decide⟩
  | wordTrue => exact ⟨'t', _, rfl, by decide⟩
  | wordFalse => exact ⟨'f', _, rfl, by decide⟩
  | number n =>
    obtain ⟨c, cs, hcs, hc⟩ := head_repr n
    refine ⟨c, cs, hcs, ?_⟩
    rintro rfl
    simp at hc
  | string h =>
    obtain ⟨-⟩ := h
    exact ⟨'"', _, rfl, by decide⟩
  | emptyArray => exact ⟨'[', _, rfl, by decide⟩
  | array h => exact ⟨'[', _, rfl, by decide⟩
  | emptyObject => exact ⟨'\x7b', _, rfl, by decide⟩
  | object h hkeys => exact ⟨'\x7b', _, rfl, by decide⟩

/-- Items begin as the first one does. -/
theorem DenotesItems.head {text : List Char} {items : List Value} (h : DenotesItems text items) :
    ∃ c cs, text = c :: cs ∧ c ≠ ']' := by
  cases h with
  | last h => exact h.head
  | cons h hs =>
    obtain ⟨c, cs, rfl, hc⟩ := h.head
    exact ⟨c, _, List.cons_append, hc⟩

/-- Members begin with a quote. -/
theorem DenotesMembers.head {text : List Char} {members : List (String × Value)}
    (h : DenotesMembers text members) : ∃ cs, text = '"' :: cs := by
  cases h with
  | last hkey h =>
    obtain ⟨-⟩ := hkey
    exact ⟨_, List.cons_append⟩
  | cons hkey h hs =>
    obtain ⟨-⟩ := hkey
    exact ⟨_, List.cons_append⟩

/-- What is read with a given fuel: values, the items of an array, and the members of an object. -/
structure ReadsAll (fuel : ℕ) : Prop where
  value : ∀ {text v} rest, Denotes text v → Delimited rest → text.length < fuel →
    readValue fuel (text ++ rest) = some (v, rest)
  items : ∀ {text items} rest, DenotesItems text items → text.length + 1 < fuel →
    readItems fuel (text ++ ']' :: rest) = some (items, rest)
  members : ∀ {text members} rest, DenotesMembers text members → text.length + 1 < fuel →
    readMembers fuel (text ++ '\x7d' :: rest) = some (members, rest)

/-- More fuel reads more. -/
theorem ReadsAll.step {fuel : ℕ} (ih : ReadsAll fuel) : ReadsAll (fuel + 1) where
  value := by
    intro text v rest h hrest hlength
    cases h with
    | wordNull => rfl
    | wordTrue => rfl
    | wordFalse => rfl
    | number n => exact readValue_number n hrest fuel
    | string h =>
      obtain ⟨hchars⟩ := h
      rw [List.cons_append, List.append_assoc, readValue, if_pos rfl, List.singleton_append,
        readString_chars hchars]
      simp
    | emptyArray => rfl
    | array h =>
      -- The first item keeps the bracket from closing at once.
      obtain ⟨c, cs, hcs, hc⟩ := h.head
      have hread := ih.items rest h (by simp at hlength; omega)
      rw [hcs, List.cons_append] at hread
      rw [hcs, List.cons_append, List.append_assoc, List.singleton_append, List.cons_append,
        readValue, if_neg (by decide), if_pos rfl, List.head?_cons, if_neg (by simpa using hc),
        hread]
      rfl
    | emptyObject => rfl
    | object h hkeys =>
      obtain ⟨cs, hcs⟩ := h.head
      have hread := ih.members rest h (by simp at hlength; omega)
      rw [hcs, List.cons_append] at hread
      rw [hcs, List.cons_append, List.append_assoc, List.singleton_append, List.cons_append,
        readValue, if_neg (by decide), if_neg (by decide), if_pos rfl, List.head?_cons,
        if_neg (by decide), hread]
      rfl
  items := by
    intro text items rest h hlength
    cases h with
    | last h =>
      rw [readItems, ih.value _ h (delimited_cons rfl rest) (by omega), Option.bind_some]
      rfl
    | cons h hs =>
      rw [List.length_append, List.length_cons] at hlength
      rw [List.append_assoc, List.cons_append, readItems,
        ih.value _ h (delimited_cons rfl _) (by omega), Option.bind_some]
      dsimp only
      rw [List.head?_cons, if_pos rfl, List.tail_cons, ih.items rest hs (by omega)]
      rfl
  members := by
    intro text members rest h hlength
    cases h with
    | last hkey h =>
      rw [List.length_append, List.length_cons] at hlength
      rw [List.append_assoc, List.cons_append, readMembers, readKey_string hkey, Option.bind_some]
      dsimp only
      rw [ih.value _ h (delimited_cons rfl rest) (by omega), Option.bind_some]
      rfl
    | cons hkey h hs =>
      rw [List.length_append, List.length_cons, List.length_append, List.length_cons] at hlength
      rw [List.append_assoc, List.cons_append, List.append_assoc, List.cons_append, readMembers,
        readKey_string hkey, Option.bind_some]
      dsimp only
      rw [ih.value _ h (delimited_cons rfl _) (by omega), Option.bind_some]
      dsimp only
      rw [List.head?_cons, if_pos rfl, List.tail_cons, ih.members rest hs (by omega)]
      rfl

/-- Everything is read, by induction on the fuel. -/
theorem readsAll (fuel : ℕ) : ReadsAll fuel := by
  induction fuel with
  | zero =>
    refine ⟨?_, ?_, ?_⟩
    · intro text v rest _ _ h
      omega
    · intro text items rest _ h
      omega
    · intro text members rest _ h
      omega
  | succ fuel ih => exact ih.step

/-- **The parser reads every text of the grammar.** -/
theorem readJson_denotes {text : List Char} {v : Value} (h : Denotes text v) :
    readJson (String.ofList text) = some v := by
  have hread := (readsAll (text.length + 1)).value [] h (by simp [Delimited]) (by omega)
  rw [List.append_nil] at hread
  rw [readJson, String.length_ofList, String.toList_ofList, hread]

/-- The parser of this module. -/
@[reducible] def compactSerde : Serde where
  fromStr := readJson

/-- The parser of this module is what the programs rely on. -/
@[reducible] def rfc8259_compactSerde : @Rfc8259 compactSerde :=
  @Rfc8259.mk compactSerde id List.Perm.refl fun {_ v} h _ => by
    rw [Value.arrange_id v]
    exact readJson_denotes h

end NodeWe
