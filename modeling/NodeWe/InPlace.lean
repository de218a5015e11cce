import NodeWe.Text

/-!
# Lists that change in place

A list of records that a program only appends to and updates in place: a record keeps its index,
and each record's history is a chain of updates. `Evolves R xs ys` says that every record of `xs`
is still there in `ys` and has become what `R` allows. `setFirst` is the update of the first
record that a predicate selects.
-/

namespace NodeWe.InPlace

variable {α : Type*}

/-- Every entry of `xs` is in `ys` at the same index, as an entry that `R` relates it to. -/
def Evolves (R : α → α → Prop) (xs ys : List α) : Prop :=
  ∀ (i : ℕ) (x : α), xs[i]? = some x → ∃ y, ys[i]? = some y ∧ R x y

/-- A list evolves into itself. -/
theorem Evolves.refl {R : α → α → Prop} (hR : ∀ x, R x x) (xs : List α) : Evolves R xs xs :=
  fun _ x hx => ⟨x, hx, hR x⟩

/-- Evolutions compose. -/
theorem Evolves.trans {R : α → α → Prop} (hR : ∀ x y z, R x y → R y z → R x z)
    {xs ys zs : List α} (h : Evolves R xs ys) (h' : Evolves R ys zs) : Evolves R xs zs := by
  intro i x hx
  obtain ⟨y, hy, hxy⟩ := h i x hx
  obtain ⟨z, hz, hyz⟩ := h' i y hy
  exact ⟨z, hz, hR x y z hxy hyz⟩

/-- An evolution may relate less closely. -/
theorem Evolves.mono {R S : α → α → Prop} (hRS : ∀ x y, R x y → S x y) {xs ys : List α}
    (h : Evolves R xs ys) : Evolves S xs ys := by
  intro i x hx
  obtain ⟨y, hy, hxy⟩ := h i x hx
  exact ⟨y, hy, hRS x y hxy⟩

/-- Appending keeps every entry. -/
theorem Evolves.append {R : α → α → Prop} (hR : ∀ x, R x x) (xs ys : List α) :
    Evolves R xs (xs ++ ys) := by
  intro i x hx
  obtain ⟨hi, -⟩ := List.getElem?_eq_some_iff.mp hx
  exact ⟨x, by rw [List.getElem?_append_left hi, hx], hR x⟩

/-- Updating one entry. -/
theorem Evolves.set {R : α → α → Prop} (hR : ∀ x, R x x) {xs : List α} {i : ℕ} {x y : α}
    (hx : xs[i]? = some x) (hxy : R x y) : Evolves R xs (xs.set i y) := by
  intro j z hz
  rcases eq_or_ne i j with rfl | hij
  · have hzx : z = x := by rw [hx] at hz; exact (Option.some.inj hz).symm
    obtain ⟨hi, -⟩ := List.getElem?_eq_some_iff.mp hx
    exact ⟨y, by rw [List.getElem?_set_self hi], hzx ▸ hxy⟩
  · exact ⟨z, by rw [List.getElem?_set_ne hij, hz], hR z⟩

/-- Updating every entry by a function. -/
theorem Evolves.map {R : α → α → Prop} {f : α → α} (hf : ∀ x, R x (f x)) (xs : List α) :
    Evolves R xs (xs.map f) := by
  intro i x hx
  exact ⟨f x, by rw [List.getElem?_map, hx]; rfl, hf x⟩

/-- An entry of the evolved list comes from an entry of the list, or was added behind it. -/
theorem Evolves.of_mem {R : α → α → Prop} {xs ys : List α} (h : Evolves R xs ys) {y : α}
    (hy : y ∈ ys) : (∃ x ∈ xs, R x y) ∨ y ∈ ys.drop xs.length := by
  obtain ⟨i, hi⟩ := List.getElem?_of_mem hy
  by_cases hbound : i < xs.length
  · obtain ⟨z, hz, hstep⟩ := h i _ (List.getElem?_eq_getElem hbound)
    rw [hi, Option.some.injEq] at hz
    exact .inl ⟨xs[i], List.getElem_mem hbound, hz ▸ hstep⟩
  · refine .inr (List.mem_of_getElem? (i := i - xs.length) ?_)
    rw [List.getElem?_drop, show xs.length + (i - xs.length) = i by omega, hi]

/-- What the steps keep of each entry, a list of the same length keeps as a whole. -/
theorem Evolves.map_eq {β : Type*} {R : α → α → Prop} {f : α → β} {xs ys : List α}
    (h : Evolves R xs ys) (hf : ∀ x y, R x y → f y = f x) (hlength : ys.length = xs.length) :
    ys.map f = xs.map f := by
  refine List.ext_getElem? fun i => ?_
  rw [List.getElem?_map, List.getElem?_map]
  cases hi : xs[i]? with
  | none =>
    rw [List.getElem?_eq_none_iff, ← hlength] at hi
    rw [List.getElem?_eq_none_iff.mpr hi]
  | some x =>
    obtain ⟨y, hy, hxy⟩ := h i x hi
    rw [hy, Option.map_some, Option.map_some, hf x y hxy]

/-- The list with the first entry that `p` selects replaced. -/
def setFirst (p : α → Bool) (y : α) (xs : List α) : List α := xs.set (xs.findIdx p) y

/-- The entry that `find?` returns is at the index that `findIdx` returns. -/
theorem getElem?_findIdx {p : α → Bool} {xs : List α} {x : α} (h : xs.find? p = some x) :
    xs[xs.findIdx p]? = some x := by
  induction xs with
  | nil => simp at h
  | cons a as ih =>
    rw [List.find?_cons] at h
    cases hp : p a with
    | true => simpa [List.findIdx_cons, hp] using h
    | false =>
      rw [hp] at h
      simpa [List.findIdx_cons, hp] using ih h

/-- Replacing the first selected entry is an update at its index. -/
theorem Evolves.setFirst {R : α → α → Prop} (hR : ∀ x, R x x) {p : α → Bool} {xs : List α}
    {x y : α} (h : xs.find? p = some x) (hxy : R x y) : Evolves R xs (setFirst p y xs) :=
  Evolves.set hR (getElem?_findIdx h) hxy

/-- Replacing the first selected entry by itself. -/
theorem setFirst_self {p : α → Bool} {xs : List α} {x : α} (h : xs.find? p = some x) :
    setFirst p x xs = xs := by
  obtain ⟨hi, hx⟩ := List.getElem?_eq_some_iff.mp (getElem?_findIdx h)
  rw [setFirst, ← hx, List.set_getElem_self]

/-- A replacement that leaves the list as it was replaced the entry by itself. -/
theorem setFirst_eq_self {p : α → Bool} {xs : List α} {x y : α} (h : xs.find? p = some x)
    (hself : setFirst p y xs = xs) : y = x := by
  have hx := getElem?_findIdx h
  have hi := (List.getElem?_eq_some_iff.mp hx).1
  have hy : (setFirst p y xs)[xs.findIdx p]? = some y := List.getElem?_set_self hi
  rw [hself, hx] at hy
  exact (Option.some.inj hy).symm

/-- An entry of an updated list is the new entry or an old one. -/
theorem mem_setFirst {p : α → Bool} {xs : List α} {y z : α} (h : z ∈ setFirst p y xs) :
    z = y ∨ z ∈ xs := (List.mem_or_eq_of_mem_set h).symm

/-- The first selected entry replaced, entry by entry. -/
theorem setFirst_cons (p : α → Bool) (x y : α) (xs : List α) :
    setFirst p y (x :: xs) = if p x then y :: xs else x :: setFirst p y xs := by
  unfold setFirst
  rw [List.findIdx_cons]
  cases p x <;> rfl

/-- A search within a part of the list that has every entry it may find. -/
theorem find?_filter_of_imp {p q : α → Bool} (hpq : ∀ x, p x = true → q x = true)
    (xs : List α) : (xs.filter q).find? p = xs.find? p := by
  rw [List.find?_filter]
  refine congrArg (fun r => xs.find? r) (funext fun x => ?_)
  by_cases hp : p x = true
  · simp [hp, hpq x hp]
  · simp [hp]

/-- A search finds what has become of the entry that it found. -/
theorem Evolves.find? {R : α → α → Prop} {p : α → Bool} {xs ys : List α} (h : Evolves R xs ys)
    (hp : ∀ x y, R x y → p y = p x) {x : α} (hx : xs.find? p = some x) :
    ∃ y, ys.find? p = some y ∧ R x y := by
  obtain ⟨hpx, i, hi, rfl, hbefore⟩ := List.find?_eq_some_iff_getElem.mp hx
  obtain ⟨y, hy, hxy⟩ := h i _ (List.getElem?_eq_getElem hi)
  obtain ⟨hbound, rfl⟩ := List.getElem?_eq_some_iff.mp hy
  refine ⟨ys[i], List.find?_eq_some_iff_getElem.mpr ⟨?_, i, hbound, rfl, fun j hj => ?_⟩, hxy⟩
  · rw [hp _ _ hxy]
    exact hpx
  · obtain ⟨z, hz, hjz⟩ := h j _ (List.getElem?_eq_getElem (hj.trans hi))
    rw [List.getElem?_eq_getElem (hj.trans hbound), Option.some.injEq] at hz
    rw [hz, hp _ _ hjz]
    exact hbefore j hj

/-- A search for what was replaced finds the replacement. -/
theorem find?_setFirst_self {p : α → Bool} {xs : List α} {x y : α} (h : xs.find? p = some x)
    (hy : p y = true) : (setFirst p y xs).find? p = some y := by
  induction xs with
  | nil => cases h
  | cons z xs ih =>
    rw [setFirst_cons]
    by_cases hz : p z = true
    · rw [if_pos hz, List.find?_cons_of_pos hy]
    · rw [List.find?_cons_of_neg hz] at h
      rw [if_neg hz, List.find?_cons_of_neg hz, ih h]

/-- A search for other entries does not see the replacement. -/
theorem find?_setFirst_other {p q : α → Bool} {y : α} (hpq : ∀ x, p x = true → q x = false)
    (hy : q y = false) (xs : List α) : (setFirst p y xs).find? q = xs.find? q := by
  induction xs with
  | nil => rfl
  | cons z xs ih =>
    rw [setFirst_cons]
    by_cases hz : p z = true
    · rw [if_pos hz, List.find?_cons_of_neg (by simp [hy]),
        List.find?_cons_of_neg (by simp [hpq z hz])]
    · rw [if_neg hz, List.find?_cons, List.find?_cons, ih]

/-- Replacing the first selected entry, seen in a part of the list that has every entry that may be
selected, and the new one. -/
theorem filter_setFirst {p q : α → Bool} {y : α} (hpq : ∀ x, p x = true → q x = true)
    (hy : q y = true) (xs : List α) : (setFirst p y xs).filter q = setFirst p y (xs.filter q) := by
  induction xs with
  | nil => rfl
  | cons x xs ih =>
    rw [setFirst_cons]
    by_cases hp : p x = true
    · rw [if_pos hp, List.filter_cons_of_pos hy, List.filter_cons_of_pos (hpq x hp), setFirst_cons,
        if_pos hp]
    · rw [if_neg hp]
      by_cases hq : q x = true
      · rw [List.filter_cons_of_pos hq, List.filter_cons_of_pos hq, setFirst_cons, if_neg hp, ih]
      · rw [List.filter_cons_of_neg hq, List.filter_cons_of_neg hq, ih]

end NodeWe.InPlace
