import NodeWe.JsonGrammar

/-!
# The syntax of JSON

The texts of RFC 8259, one relation for each production of its grammar: with blanks between tokens,
numbers of every form, and escapes of every code unit. A text is only well formed here or not. What
it means is in `NodeWe.JsonGrammar`, for fewer texts, and all of these are well formed
(`Denotes.valueText`).
-/

namespace NodeWe

open Text

/-! ## Tokens -/

/-- `ws`. -/
def BlankText (text : List Char) : Prop := ∀ c ∈ text, c ∈ [' ', '\t', '\n', '\r']

/-- `1*DIGIT`. -/
def DigitsText (text : List Char) : Prop := text ≠ [] ∧ ∀ c ∈ text, c.isDigit = true

/-- `frac`, which may be absent. -/
inductive FractionText : List Char → Prop
  | absent : FractionText []
  | mk {digits : List Char} (h : DigitsText digits) : FractionText ('.' :: digits)

/-- `exp`, which may be absent. -/
inductive ExponentText : List Char → Prop
  | absent : ExponentText []
  | mk {e : Char} {sign digits : List Char} (he : e = 'e' ∨ e = 'E')
      (hsign : sign = [] ∨ sign = ['+'] ∨ sign = ['-']) (h : DigitsText digits) :
      ExponentText (e :: (sign ++ digits))

/-- `number`. Digits that are more than one do not begin with a zero. -/
inductive NumberText : List Char → Prop
  | mk {sign digits fraction exponent : List Char} (hsign : sign = [] ∨ sign = ['-'])
      (hdigits : DigitsText digits) (hzero : digits.head? = some '0' → digits = ['0'])
      (hfraction : FractionText fraction) (hexponent : ExponentText exponent) :
      NumberText (sign ++ digits ++ fraction ++ exponent)

/-- `char`. -/
inductive CharText : List Char → Prop
  | plain (c : Char) (hcontrol : 0x20 ≤ c.toNat) (hquote : c ≠ '"') (hslash : c ≠ '\\') :
      CharText [c]
  | letter (c : Char) (h : c ∈ letterEscapes.map Prod.fst) : CharText ['\\', c]
  | coded (c₃ c₂ c₁ c₀ : Char) (h : ∀ c ∈ [c₃, c₂, c₁, c₀], (hexDigitValue c).isSome = true) :
      CharText ['\\', 'u', c₃, c₂, c₁, c₀]

/-- `string`. -/
inductive StringText : List Char → Prop
  | mk {chars : List (List Char)} (h : ∀ text ∈ chars, CharText text) :
      StringText ('"' :: (chars.flatten ++ ['"']))

/-! ## Values -/

mutual

/-- `value`. -/
inductive ValueText : List Char → Prop
  | wordNull : ValueText ['n', 'u', 'l', 'l']
  | wordTrue : ValueText ['t', 'r', 'u', 'e']
  | wordFalse : ValueText ['f', 'a', 'l', 's', 'e']
  | number {text : List Char} (h : NumberText text) : ValueText text
  | string {text : List Char} (h : StringText text) : ValueText text
  | emptyArray {blank : List Char} (h : BlankText blank) : ValueText ('[' :: (blank ++ [']']))
  | array {text : List Char} (h : ItemsText text) : ValueText ('[' :: (text ++ [']']))
  | object {text : List Char} (h : ObjectText text) : ValueText text

/-- `object`. -/
inductive ObjectText : List Char → Prop
  | empty {blank : List Char} (h : BlankText blank) : ObjectText ('\x7b' :: (blank ++ ['\x7d']))
  | members {text : List Char} (h : MembersText text) : ObjectText ('\x7b' :: (text ++ ['\x7d']))

/-- The items of an array that is not empty. -/
inductive ItemsText : List Char → Prop
  | last {before text after : List Char} (hbefore : BlankText before) (h : ValueText text)
      (hafter : BlankText after) : ItemsText (before ++ text ++ after)
  | cons {before text after rest : List Char} (hbefore : BlankText before) (h : ValueText text)
      (hafter : BlankText after) (hrest : ItemsText rest) :
      ItemsText (before ++ text ++ after ++ ',' :: rest)

/-- `member`, with the blanks around it. -/
inductive MemberText : List Char → Prop
  | mk {before key behind ahead text after : List Char} (hbefore : BlankText before)
      (hkey : StringText key) (hbehind : BlankText behind) (hahead : BlankText ahead)
      (h : ValueText text) (hafter : BlankText after) :
      MemberText (before ++ key ++ behind ++ ':' :: (ahead ++ text ++ after))

/-- The members of an object that is not empty. -/
inductive MembersText : List Char → Prop
  | last {text : List Char} (h : MemberText text) : MembersText text
  | cons {text rest : List Char} (h : MemberText text) (hrest : MembersText rest) :
      MembersText (text ++ ',' :: rest)

end

/-- `JSON-text` whose value is an object. -/
inductive JsonObject : List Char → Prop
  | mk {before text after : List Char} (hbefore : BlankText before) (h : ObjectText text)
      (hafter : BlankText after) : JsonObject (before ++ text ++ after)

/-- A text is an object where there is nothing or members between its braces, and blanks around. -/
theorem jsonObject_iff {text : List Char} : JsonObject text ↔ ∃ before inner after,
    text = before ++ '\x7b' :: (inner ++ ['\x7d']) ++ after ∧
      BlankText before ∧ (BlankText inner ∨ MembersText inner) ∧ BlankText after := by
  constructor
  · rintro ⟨hbefore, hobject, hafter⟩
    cases hobject with
    | empty h => exact ⟨_, _, _, rfl, hbefore, .inl h, hafter⟩
    | members h => exact ⟨_, _, _, rfl, hbefore, .inr h, hafter⟩
  · rintro ⟨before, inner, after, rfl, hbefore, hinner, hafter⟩
    rcases hinner with h | h
    · exact .mk hbefore (.empty h) hafter
    · exact .mk hbefore (.members h) hafter

/-! ## Texts with a meaning -/

/-- Nothing is blank. -/
theorem blankText_nil : BlankText [] := List.forall_mem_nil _

/-- A text of a character is well formed. -/
theorem DenotesChar.charText {text : List Char} {c : Char} (h : DenotesChar text c) :
    CharText text := by
  cases h with
  | plain c hcontrol hquote hslash => exact .plain c hcontrol hquote hslash
  | letter l x h => exact .letter l (List.mem_map_of_mem h)
  | coded c₃ c₂ c₁ c₀ x d₃ d₂ d₁ d₀ h₃ h₂ h₁ h₀ hx =>
    refine .coded c₃ c₂ c₁ c₀ ?_
    simp [h₃, h₂, h₁, h₀]

/-- The texts of the characters of a string are well formed. -/
theorem DenotesChars.charTexts {text cs : List Char} (h : DenotesChars text cs) :
    ∃ chars : List (List Char), (∀ text ∈ chars, CharText text) ∧ chars.flatten = text := by
  induction h with
  | nil => exact ⟨[], List.forall_mem_nil _, rfl⟩
  | cons hc _ ih =>
    obtain ⟨chars, hchars, rfl⟩ := ih
    exact ⟨_ :: chars, List.forall_mem_cons.mpr ⟨hc.charText, hchars⟩, rfl⟩

/-- A text of a string is well formed. -/
theorem DenotesString.stringText {text : List Char} {s : String} (h : DenotesString text s) :
    StringText text := by
  obtain ⟨h⟩ := h
  obtain ⟨chars, hchars, rfl⟩ := h.charTexts
  exact .mk hchars

/-- The digits of a number do not begin with a zero, but for those of zero. -/
theorem head_digits (n : ℕ) (h : n.repr.toList.head? = some '0') : n.repr.toList = ['0'] := by
  rw [Nat.toList_repr] at h ⊢
  induction n using Nat.strong_induction_on with
  | _ n ih =>
    by_cases hn : n < 10
    · rw [Nat.toDigits_of_lt_base hn] at h ⊢
      rw [Option.some.inj h]
    · -- The digits of a tenth come first, and a tenth is not zero.
      rw [Nat.toDigits_of_base_le (by norm_num) (by omega),
        List.head?_append_of_ne_nil _ Nat.toDigits_ne_nil] at h
      have htenth := calc
        n / 10 = Nat.ofDigitChars 10 (Nat.toDigits 10 (n / 10)) 0 :=
          Nat.ofDigitChars_ten_toDigits.symm
        _ = Nat.ofDigitChars 10 ['0'] 0 := by rw [ih (n / 10) (by omega) h]
        _ = 0 := rfl
      omega

/-- The digits of a number are well formed. -/
theorem digitsText_repr (n : ℕ) : DigitsText n.repr.toList :=
  ⟨by simp, fun _ => isDigit_of_mem_repr⟩

/-- An integer is well formed. -/
theorem numberText_repr (n : ℤ) : NumberText n.repr.toList := by
  have hnat (sign : List Char) (hsign : sign = [] ∨ sign = ['-']) (n : ℕ) :
      NumberText (sign ++ n.repr.toList) := by
    have hnumber := NumberText.mk hsign (digitsText_repr n) (head_digits n) .absent .absent
    rwa [List.append_nil, List.append_nil] at hnumber
  cases n with
  | ofNat n => exact hnat [] (.inl rfl) n
  | negSucc n =>
    show NumberText ("-" ++ (n + 1).repr).toList
    rw [String.toList_append]
    exact hnat ['-'] (.inr rfl) (n + 1)

/-- A member without blanks. -/
theorem MemberText.plain {key text : List Char} (hkey : StringText key) (h : ValueText text) :
    MemberText (key ++ ':' :: text) := by
  have hmember := MemberText.mk blankText_nil hkey blankText_nil blankText_nil h blankText_nil
  rwa [List.nil_append, List.nil_append, List.append_nil, List.append_nil] at hmember

mutual

/-- **A text with a meaning is well formed.** -/
theorem Denotes.valueText {text : List Char} {v : Value} : Denotes text v → ValueText text
  | .wordNull => .wordNull
  | .wordTrue => .wordTrue
  | .wordFalse => .wordFalse
  | .number n => .number (numberText_repr n)
  | .string h => .string h.stringText
  | .emptyArray => .emptyArray blankText_nil
  | .array h => .array h.itemsText
  | .emptyObject => .object (.empty blankText_nil)
  | .object h _ => .object (.members h.membersText)

/-- Items with a meaning are well formed. -/
theorem DenotesItems.itemsText {text : List Char} {items : List Value} :
    DenotesItems text items → ItemsText text
  | .last h => by
    have hlast := ItemsText.last blankText_nil h.valueText blankText_nil
    rwa [List.nil_append, List.append_nil] at hlast
  | .cons h hs => by
    have hcons := ItemsText.cons blankText_nil h.valueText blankText_nil hs.itemsText
    rwa [List.nil_append, List.append_nil] at hcons

/-- Members with a meaning are well formed. -/
theorem DenotesMembers.membersText {text : List Char} {members : List (String × Value)} :
    DenotesMembers text members → MembersText text
  | .last hkey h => .last (.plain hkey.stringText h.valueText)
  | .cons hkey h hs => by
    have hcons := MembersText.cons (.plain hkey.stringText h.valueText) hs.membersText
    rwa [List.append_assoc, List.cons_append] at hcons

end

/-! ## Texts that are not well formed -/

/-- A member has a quote. -/
theorem MemberText.quote_mem {text : List Char} (h : MemberText text) : '"' ∈ text := by
  obtain ⟨-, ⟨-⟩, -, -, -, -⟩ := h
  simp

/-- Members have a quote. -/
theorem MembersText.quote_mem {text : List Char} (h : MembersText text) : '"' ∈ text := by
  cases h with
  | last h => exact h.quote_mem
  | cons h hrest => exact List.mem_append_left _ h.quote_mem

/-- An object without a quote has nothing but blanks between its braces. -/
theorem JsonObject.mem_of_no_quote {text : List Char} (h : JsonObject text) (hquote : '"' ∉ text) :
    ∀ c ∈ text, c ∈ ['\x7b', '\x7d', ' ', '\t', '\n', '\r'] := by
  have hblank {c : Char} (hc : c ∈ [' ', '\t', '\n', '\r']) :
      c ∈ ['\x7b', '\x7d', ' ', '\t', '\n', '\r'] :=
    List.mem_cons_of_mem _ (List.mem_cons_of_mem _ hc)
  obtain ⟨hbefore, hobject, hafter⟩ := h
  cases hobject with
  | empty hinner =>
    intro c hc
    simp only [List.mem_append, List.mem_cons, List.not_mem_nil, or_false] at hc
    rcases hc with (hc | rfl | hc | rfl) | hc
    · exact hblank (hbefore c hc)
    · exact List.mem_cons_self
    · exact hblank (hinner c hc)
    · exact List.mem_cons_of_mem _ List.mem_cons_self
    · exact hblank (hafter c hc)
  | members hmembers =>
    have hmem := hmembers.quote_mem
    refine absurd ?_ hquote
    simp [hmem]

end NodeWe
