import NodeWe.Transition

/-!
# Reading a list page by page

A list grows at its end while somebody reads it, a page at a time. A page goes on where the one
before ended, and the last page is one that ends where the list does. The pages put together are the
beginning of the list that the reader has come to (`Sound`), the last page makes them all of it
(`Step.complete`), and a list that no longer grows is read to its end (`exists_run_of_cursor`).
-/

namespace NodeWe.Paging

open Transition

variable {α : Type*}

/-- The page of `limit` entries from `start` on. -/
def page (items : List α) (start limit : ℕ) : List α := (items.take (start + limit)).drop start

/-- Where the page after it begins, unless it is the last one. -/
def next (items : List α) (start limit : ℕ) : Option ℕ :=
  if start + limit < items.length then some (start + limit) else none

/-- A list, where its reader goes on, and the pages that the reader has. -/
structure Reading (α : Type*) where
  items : List α
  cursor : Option ℕ
  pages : List (List α)

/-- What happens: the list grows, or the next page is fetched. -/
inductive Move
  | grown
  | fetched (limit : ℕ)

/-- What happens to a reading. -/
inductive Step : Reading α → Move → Reading α → Prop
  | grown (items items' : List α) (cursor : Option ℕ) (pages : List (List α))
      (h : items <+: items') : Step ⟨items, cursor, pages⟩ .grown ⟨items', cursor, pages⟩
  | fetched (items : List α) (start : ℕ) (pages : List (List α)) (limit : ℕ) (hlimit : 0 < limit) :
      Step ⟨items, some start, pages⟩ (.fetched limit)
        ⟨items, next items start limit, pages ++ [page items start limit]⟩

/-- The pages are what is in front of the cursor; when the reader is done, the list has grown since,
or not. -/
structure Sound (reading : Reading α) : Prop where
  within : ∀ start, reading.cursor = some start →
    start ≤ reading.items.length ∧ reading.pages.flatten = reading.items.take start
  finished : reading.cursor = none → reading.pages.flatten <+: reading.items

/-- A reader starts with nothing at the front. -/
theorem sound_start (items : List α) : Sound ⟨items, some 0, []⟩ := by
  refine ⟨fun start hstart => ?_, fun hdone => by cases hdone⟩
  obtain rfl := Option.some.inj hstart
  exact ⟨Nat.zero_le _, rfl⟩

/-- A page behind what is in front of it. -/
theorem take_append_page (items : List α) (start limit : ℕ) :
    items.take start ++ page items start limit = items.take (start + limit) := by
  rw [page, List.drop_take, Nat.add_sub_cancel_left, List.take_add]

/-- The last page completes what is in front of it. -/
theorem take_append_last {items : List α} {start limit : ℕ} (h : next items start limit = none) :
    items.take start ++ page items start limit = items := by
  have hend : ¬start + limit < items.length := by
    intro hlt
    rw [next, if_pos hlt] at h
    cases h
  rw [take_append_page, List.take_of_length_le (by omega)]

variable {reading reading' : Reading α} {move : Move} {limit : ℕ}

/-- With the last page the reader has the list. -/
theorem Step.complete (h : Step reading (.fetched limit) reading') (hsound : Sound reading)
    (hdone : reading'.cursor = none) : reading'.pages.flatten = reading'.items := by
  cases h with
  | fetched items start pages limit hlimit =>
    obtain ⟨-, hpages⟩ := hsound.within start rfl
    dsimp only at hpages ⊢
    rw [List.flatten_concat, hpages, take_append_last hdone]

/-- Both kinds of steps keep a reading sound. -/
theorem Step.sound (h : Step reading move reading') (hsound : Sound reading) : Sound reading' := by
  cases h with
  | grown items items' cursor pages hgrown =>
    refine ⟨fun start hstart => ?_, fun hdone => (hsound.finished hdone).trans hgrown⟩
    obtain ⟨hwithin, hpages⟩ := hsound.within start hstart
    obtain ⟨more, rfl⟩ := hgrown
    dsimp only at hwithin hpages ⊢
    rw [List.length_append, List.take_append_of_le_length hwithin]
    exact ⟨by omega, hpages⟩
  | fetched items start pages limit hlimit =>
    obtain ⟨-, hpages⟩ := hsound.within start rfl
    refine ⟨fun stop hstop => ?_, fun hdone => ?_⟩
    · have hnext : next items start limit = some stop := hstop
      unfold next at hnext
      split_ifs at hnext with hlt
      obtain rfl := Option.some.inj hnext
      dsimp only at hpages ⊢
      rw [List.flatten_concat, hpages, take_append_page]
      exact ⟨Nat.le_of_lt hlt, rfl⟩
    · have hall := (Step.fetched items start pages limit hlimit).complete hsound hdone
      exact ⟨[], by rw [List.append_nil, hall]⟩

/-- The last page ends a run. -/
theorem run_last {items : List α} {start limit : ℕ} {pages : List (List α)} (hlimit : 0 < limit)
    (hlast : next items start limit = none) (hpages : pages.flatten = items.take start) :
    ∃ pages', Run Step ⟨items, some start, pages⟩ [.fetched limit] ⟨items, none, pages'⟩ ∧
      pages'.flatten = items := by
  have hstep := Step.fetched items start pages limit hlimit
  rw [hlast] at hstep
  refine ⟨_, Run.single hstep, ?_⟩
  rw [List.flatten_concat, hpages, take_append_last hlast]

/-- From a cursor on, a list that no longer grows is read to its end, with at most one page more than
there are entries. -/
theorem exists_run_of_cursor (items : List α) (room : ℕ) {start : ℕ} {pages : List (List α)}
    {limits : ℕ → ℕ} (hroom : items.length - start ≤ room) (hpages : pages.flatten = items.take start)
    (hlimits : ∀ i, 0 < limits i) :
    ∃ k ≤ room + 1, ∃ pages', Run Step ⟨items, some start, pages⟩
      ((List.range k).map fun i => .fetched (limits i)) ⟨items, none, pages'⟩ ∧
        pages'.flatten = items := by
  induction room generalizing start pages limits with
  | zero =>
    have hfirst := hlimits 0
    have hlast : next items start (limits 0) = none := if_neg (by omega)
    exact ⟨1, Nat.le_refl 1, run_last hfirst hlast hpages⟩
  | succ room ih =>
    have hfirst := hlimits 0
    by_cases hlt : start + limits 0 < items.length
    · -- The next page begins further on, so there is less room behind it.
      have hstep := Step.fetched items start pages (limits 0) hfirst
      have hnext : next items start (limits 0) = some (start + limits 0) := if_pos hlt
      rw [hnext] at hstep
      have hfront : (pages ++ [page items start (limits 0)]).flatten =
          items.take (start + limits 0) := by
        rw [List.flatten_concat, hpages, take_append_page]
      have hless : items.length - (start + limits 0) ≤ room := by omega
      obtain ⟨k, hk, pages', hrest, hall⟩ := ih hless hfront fun i => hlimits (i + 1)
      have hlabels : (List.range (k + 1)).map (fun i => Move.fetched (limits i)) =
          [.fetched (limits 0)] ++ (List.range k).map fun i => .fetched (limits (i + 1)) := by
        rw [List.range_succ_eq_map, List.map_cons, List.map_map]
        rfl
      refine ⟨k + 1, by omega, pages', ?_, hall⟩
      rw [hlabels]
      exact (Run.single hstep).trans hrest
    · have hlast : next items start (limits 0) = none := if_neg hlt
      exact ⟨1, by omega, run_last hfirst hlast hpages⟩

end NodeWe.Paging
