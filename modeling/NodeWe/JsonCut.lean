import NodeWe.JsonText

/-!
# Cut JSON texts

A JSON parser that reads from the front does not look behind a value that closes itself, so that a
longer text reads alike with more left over. An object that is cut off is therefore refused: if the
cut text were read, the whole text would have something left.
-/

namespace NodeWe

open Text

/-! ## The third-party crate -/

/-- What the control plane relies on the JSON parser for besides: it refuses an object that is cut
off before its end. -/
class RefusesCut [Serde] : Prop where
  cut (members : List (String × Value)) (h : (Value.object members).Fits) (text : List Char)
    (hcut : text <+: (Value.object members).chars) (hne : text ≠ (Value.object members).chars) :
    Serde.fromStr (String.ofList text) = none

/-! ## Reading more -/

/-- A string that is read is read alike when the text goes on. -/
theorem readString_append {s t rest : List Char} (h : readString s = some (t, rest))
    (more : List Char) : readString (s ++ more) = some (t, rest ++ more) := by
  fun_induction readString s generalizing t rest with
  | case1 left =>
    obtain ⟨rfl, rfl⟩ := Prod.mk.inj (Option.some.inj h)
    rfl
  | case2 a b c d left ih =>
    obtain ⟨x, hcoded, hmap⟩ := Option.bind_eq_some_iff.mp h
    obtain ⟨⟨u, left'⟩, hread, hx⟩ := Option.map_eq_some_iff.mp hmap
    obtain ⟨rfl, rfl⟩ := Prod.mk.inj hx
    have hgoes := readString.eq_2 a b c d (left ++ more)
    rw [hcoded, Option.bind_some, ih hread] at hgoes
    exact hgoes
  | case3 c left hcoded ih =>
    obtain ⟨x, hescaped, hmap⟩ := Option.bind_eq_some_iff.mp h
    obtain ⟨⟨u, left'⟩, hread, hx⟩ := Option.map_eq_some_iff.mp hmap
    obtain ⟨rfl, rfl⟩ := Prod.mk.inj hx
    -- An escape of one letter stays one: that of four digits begins with another letter.
    have hletter : c ≠ 'u' := by
      rintro rfl
      cases hescaped
    have hgoes := readString.eq_3 c (left ++ more) fun _ _ _ _ _ hc _ => hletter hc
    rw [List.cons_append, List.cons_append, hgoes, hescaped, Option.bind_some, ih hread]
    rfl
  | case4 c left hquote hcoded hescape ih =>
    obtain ⟨⟨u, left'⟩, hread, hx⟩ := Option.map_eq_some_iff.mp h
    obtain ⟨rfl, rfl⟩ := Prod.mk.inj hx
    have hplain : c ≠ '\\' := by
      cases left with
      | nil => cases hread
      | cons d left => exact fun hc => hescape d left hc rfl
    have hgoes := readString.eq_4 c (left ++ more) hquote (fun _ _ _ _ _ hc _ => hplain hc)
      fun _ _ hc _ => hplain hc
    rw [List.cons_append, hgoes, ih hread]
    rfl
  | case5 => cases h

/-- What comes first in a text stays first when it goes on. -/
theorem head_append {s : List Char} {c : Char} (h : s.head? = some c) (more : List Char) :
    (s ++ more).head? = some c ∧ (s ++ more).tail = s.tail ++ more := by
  cases s with
  | nil => cases h
  | cons d s => exact ⟨h, rfl⟩

/-- A key that is read is read alike. -/
theorem readKey_append {s rest : List Char} {key : String} (h : readKey s = some (key, rest))
    (more : List Char) : readKey (s ++ more) = some (key, rest ++ more) := by
  unfold readKey at h ⊢
  split_ifs at h with hquote
  obtain ⟨⟨t, left⟩, hread, hcolon⟩ := Option.bind_eq_some_iff.mp h
  have hmore := head_append hquote more
  rw [if_pos hmore.1, hmore.2, readString_append hread more, Option.bind_some]
  dsimp only at hcolon ⊢
  split_ifs at hcolon with hhead
  have hleft := head_append hhead more
  rw [if_pos hleft.1, hleft.2]
  obtain ⟨rfl, rfl⟩ := Prod.mk.inj (Option.some.inj hcolon)
  rfl

/-- Digits that end before the text does are read alike. -/
theorem readDigits_append {number : ℕ → Number} {s rest : List Char} {v : Value}
    (h : readDigits number s = some (v, rest)) (hrest : rest ≠ []) (more : List Char) :
    readDigits number (s ++ more) = some (v, rest ++ more) := by
  obtain ⟨n, hdigits, hread⟩ := Option.map_eq_some_iff.mp h
  obtain ⟨rfl, hleft⟩ := Prod.mk.inj hread
  have hends : (s.takeWhile Char.isDigit).length ≠ s.length := by
    intro hlength
    have hsplit := congrArg List.length (List.takeWhile_append_dropWhile (p := Char.isDigit) (l := s))
    rw [List.length_append, hlength, hleft] at hsplit
    exact hrest (List.length_eq_zero_iff.mp (by omega))
  have hempty : ¬(s.dropWhile Char.isDigit).isEmpty = true := by
    rw [hleft, List.isEmpty_iff]
    exact hrest
  rw [readDigits, List.takeWhile_append, if_neg hends, List.dropWhile_append, if_neg hempty,
    hdigits, hleft]
  rfl

/-- A word that is read is read alike. -/
theorem readWord_append {word : String} {s rest : List Char} {v w : Value}
    (h : readWord word v s = some (w, rest)) (more : List Char) :
    readWord word v (s ++ more) = some (w, rest ++ more) := by
  unfold readWord at h ⊢
  split_ifs at h with hword
  obtain ⟨rfl, rfl⟩ := Prod.mk.inj (Option.some.inj h)
  rw [List.isPrefixOf_iff_prefix] at hword
  have hlength : word.length ≤ s.length := by
    rw [← String.length_toList]
    exact hword.length_le
  rw [if_pos (List.isPrefixOf_iff_prefix.mpr (hword.trans (List.prefix_append s more))),
    List.drop_append_of_le_length hlength]

/-- What is read with a given fuel is read alike with more, when the text goes on: a value that is
delimited or begins as an object, the items of an array, and the members of an object. -/
structure ReadsOn (fuel : ℕ) : Prop where
  value : ∀ {fuel'} (_ : fuel ≤ fuel') {s v rest} (more : List Char),
    readValue fuel s = some (v, rest) → rest ≠ [] ∨ s.head? = some '\x7b' →
      readValue fuel' (s ++ more) = some (v, rest ++ more)
  items : ∀ {fuel'} (_ : fuel ≤ fuel') {s items rest} (more : List Char),
    readItems fuel s = some (items, rest) → readItems fuel' (s ++ more) = some (items, rest ++ more)
  members : ∀ {fuel'} (_ : fuel ≤ fuel') {s members rest} (more : List Char),
    readMembers fuel s = some (members, rest) →
      readMembers fuel' (s ++ more) = some (members, rest ++ more)

/-- Something that begins with a character is not empty. -/
theorem ne_nil_of_head {s : List Char} {c : Char} (h : s.head? = some c) : s ≠ [] := by
  rintro rfl
  cases h

/-- There are no items in nothing. -/
theorem readItems_nil (fuel : ℕ) : readItems fuel [] = none := by
  cases fuel with
  | zero => rfl
  | succ fuel => cases fuel <;> rfl

/-- There are no members in nothing. -/
theorem readMembers_nil (fuel : ℕ) : readMembers fuel [] = none := by
  cases fuel <;> rfl

/-- What does not come first in a text that is not empty does not come first when it goes on. -/
theorem head_append_ne {s : List Char} {c : Char} (hne : s ≠ []) (h : s.head? ≠ some c)
    (more : List Char) : (s ++ more).head? ≠ some c := by
  cases s with
  | nil => exact absurd rfl hne
  | cons d s => exact h

/-- More fuel reads on. -/
theorem ReadsOn.step {fuel : ℕ} (ih : ReadsOn fuel) : ReadsOn (fuel + 1) where
  value := by
    intro fuel' hfuel s v rest more h hends
    obtain ⟨fuel', rfl⟩ : ∃ n, fuel' = n + 1 := ⟨fuel' - 1, by omega⟩
    have hfuel : fuel ≤ fuel' := by omega
    match s, h with
    | c :: s, h =>
      rw [readValue] at h
      rw [List.cons_append, readValue]
      by_cases hstring : c = '"'
      · rw [if_pos hstring] at h ⊢
        obtain ⟨⟨t, left⟩, hread, hx⟩ := Option.map_eq_some_iff.mp h
        obtain ⟨rfl, rfl⟩ := Prod.mk.inj hx
        rw [readString_append hread more]
        rfl
      rw [if_neg hstring] at h ⊢
      by_cases harray : c = '['
      · rw [if_pos harray] at h ⊢
        by_cases hclosed : s.head? = some ']'
        · have hs := head_append hclosed more
          rw [if_pos hclosed] at h
          obtain ⟨rfl, rfl⟩ := Prod.mk.inj (Option.some.inj h)
          rw [if_pos hs.1, hs.2]
        · rw [if_neg hclosed] at h
          obtain ⟨⟨items, left⟩, hread, hx⟩ := Option.map_eq_some_iff.mp h
          obtain ⟨rfl, rfl⟩ := Prod.mk.inj hx
          have hne : s ≠ [] := by
            rintro rfl
            rw [readItems_nil] at hread
            cases hread
          rw [if_neg (head_append_ne hne hclosed more), ih.items hfuel more hread]
          rfl
      rw [if_neg harray] at h ⊢
      by_cases hobject : c = '\x7b'
      · rw [if_pos hobject] at h ⊢
        by_cases hclosed : s.head? = some '\x7d'
        · have hs := head_append hclosed more
          rw [if_pos hclosed] at h
          obtain ⟨rfl, rfl⟩ := Prod.mk.inj (Option.some.inj h)
          rw [if_pos hs.1, hs.2]
        · rw [if_neg hclosed] at h
          obtain ⟨⟨members, left⟩, hread, hx⟩ := Option.map_eq_some_iff.mp h
          obtain ⟨rfl, rfl⟩ := Prod.mk.inj hx
          have hne : s ≠ [] := by
            rintro rfl
            rw [readMembers_nil] at hread
            cases hread
          rw [if_neg (head_append_ne hne hclosed more), ih.members hfuel more hread]
          rfl
      rw [if_neg hobject] at h ⊢
      -- Only a number is read differently when the text goes on, and only at the end of the text.
      have hrest : rest ≠ [] := hends.resolve_right fun hhead => hobject (Option.some.inj hhead)
      split_ifs at h ⊢
      · exact readWord_append h more
      · exact readWord_append h more
      · exact readWord_append h more
      · exact readDigits_append h hrest more
      · exact readDigits_append h hrest more
  items := by
    intro fuel' hfuel s items rest more h
    obtain ⟨fuel', rfl⟩ : ∃ n, fuel' = n + 1 := ⟨fuel' - 1, by omega⟩
    have hfuel : fuel ≤ fuel' := by omega
    rw [readItems] at h ⊢
    obtain ⟨⟨v, left⟩, hread, hthen⟩ := Option.bind_eq_some_iff.mp h
    dsimp only at hthen
    split_ifs at hthen with hcomma hclose
    · have hleft := head_append hcomma more
      obtain ⟨⟨others, left'⟩, hothers, hx⟩ := Option.map_eq_some_iff.mp hthen
      obtain ⟨rfl, rfl⟩ := Prod.mk.inj hx
      rw [ih.value hfuel more hread (.inl (ne_nil_of_head hcomma)), Option.bind_some]
      dsimp only
      rw [if_pos hleft.1, hleft.2, ih.items hfuel more hothers]
      rfl
    · have hleft := head_append hclose more
      obtain ⟨rfl, rfl⟩ := Prod.mk.inj (Option.some.inj hthen)
      rw [ih.value hfuel more hread (.inl (ne_nil_of_head hclose)), Option.bind_some]
      dsimp only
      rw [if_neg (by rw [hleft.1]; decide), if_pos hleft.1, hleft.2]
  members := by
    intro fuel' hfuel s members rest more h
    obtain ⟨fuel', rfl⟩ : ∃ n, fuel' = n + 1 := ⟨fuel' - 1, by omega⟩
    have hfuel : fuel ≤ fuel' := by omega
    rw [readMembers] at h ⊢
    obtain ⟨⟨key, behind⟩, hkey, hvalue⟩ := Option.bind_eq_some_iff.mp h
    obtain ⟨⟨v, left⟩, hread, hthen⟩ := Option.bind_eq_some_iff.mp hvalue
    dsimp only at hthen
    rw [readKey_append hkey more, Option.bind_some]
    dsimp only
    split_ifs at hthen with hcomma hclose
    · have hleft := head_append hcomma more
      obtain ⟨⟨others, left'⟩, hothers, hx⟩ := Option.map_eq_some_iff.mp hthen
      obtain ⟨rfl, rfl⟩ := Prod.mk.inj hx
      rw [ih.value hfuel more hread (.inl (ne_nil_of_head hcomma)), Option.bind_some]
      dsimp only
      rw [if_pos hleft.1, hleft.2, ih.members hfuel more hothers]
      rfl
    · have hleft := head_append hclose more
      obtain ⟨rfl, rfl⟩ := Prod.mk.inj (Option.some.inj hthen)
      rw [ih.value hfuel more hread (.inl (ne_nil_of_head hclose)), Option.bind_some]
      dsimp only
      rw [if_neg (by rw [hleft.1]; decide), if_pos hleft.1, hleft.2]

/-- Everything reads on, by induction on the fuel. -/
theorem readsOn (fuel : ℕ) : ReadsOn fuel := by
  induction fuel with
  | zero =>
    refine ⟨?_, ?_, ?_⟩
    · intro fuel' _ s v rest more h
      rw [readValue] at h
      cases h
    · intro fuel' _ s items rest more h
      rw [readItems] at h
      cases h
    · intro fuel' _ s members rest more h
      rw [readMembers] at h
      cases h
  | succ fuel ih => exact ih.step

/-- **The parser refuses an object that is cut off.** -/
theorem readJson_cut {members : List (String × Value)} (h : (Value.object members).Fits)
    {text : List Char} (hcut : text <+: (Value.object members).chars)
    (hne : text ≠ (Value.object members).chars) : readJson (String.ofList text) = none := by
  obtain ⟨more, hmore⟩ := hcut
  have hlength := congrArg List.length hmore
  rw [List.length_append] at hlength
  unfold readJson
  rw [String.length_ofList, String.toList_ofList]
  split
  · next w hread =>
    have hhead : text.head? = some '\x7b' := by
      cases text with
      | nil =>
        rw [readValue] at hread
        cases hread
      | cons c text =>
        rw [Value.chars, List.cons_append] at hmore
        exact congrArg some (List.cons.inj hmore).1
    -- The whole text would be read with something left, and is read with nothing left.
    have hlonger : readValue ((Value.object members).chars.length + 1) (text ++ more) =
        some (w, [] ++ more) := (readsOn _).value (by omega) more hread (.inr hhead)
    have hwhole := (readsAll ((Value.object members).chars.length + 1)).value [] h.denotes
      (by simp [Delimited]) (by omega)
    rw [hmore] at hlonger
    rw [List.append_nil, hlonger, List.nil_append] at hwhole
    obtain ⟨-, rfl⟩ := Prod.mk.inj (Option.some.inj hwhole)
    rw [List.append_nil] at hmore
    exact absurd hmore hne
  · rfl

/-- The parser of `NodeWe.JsonReader` does so. -/
theorem refusesCut_compactSerde : @RefusesCut compactSerde :=
  @RefusesCut.mk compactSerde fun _ h _ hcut hne => readJson_cut h hcut hne

end NodeWe
