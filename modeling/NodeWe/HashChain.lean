import Mathlib.Data.List.Forall2
import Mathlib.Data.List.Induction

/-!
# Hash chains

A chain of records is hashed link by link: the link behind a record is made of the record and the
link before it. Where equal links mean equal links before them, and no link is the first one again,
the last link of a chain tells how long it is, and what its links tell of their records, it tells of
every record.
-/

namespace NodeWe.HashChain

variable {Link Record : Type*}

/-- The link behind the records of a chain. -/
def link (step : Link → Record → Link) (genesis : Link) (records : List Record) : Link :=
  records.foldl step genesis

/-- What is hashed along a chain: each record with the link before it. -/
def hashed (step : Link → Record → Link) (genesis : Link) : List Record → List (Link × Record)
  | [] => []
  | record :: rest => (genesis, record) :: hashed step (step genesis record) rest

variable {step : Link → Record → Link} {genesis : Link} {records records' : List Record}

/-- The link behind no records. -/
theorem link_nil : link step genesis [] = genesis := rfl

/-- The first record makes the link that the rest starts from. -/
theorem link_cons (record : Record) (rest : List Record) :
    link step genesis (record :: rest) = link step (step genesis record) rest := rfl

/-- The link behind one more record. -/
theorem link_snoc (record : Record) :
    link step genesis (records ++ [record]) = step (link step genesis records) record := by
  rw [link, List.foldl_append]
  rfl

/-- One more record is hashed last. -/
theorem hashed_snoc (record : Record) :
    hashed step genesis (records ++ [record]) =
      hashed step genesis records ++ [(link step genesis records, record)] := by
  induction records generalizing genesis with
  | nil => rfl
  | cons first rest ih => exact congrArg ((genesis, first) :: ·) ih

/-- **The last link binds the chain.** Where equal links come from equal links, and from records
that `Q` relates, chains with the same last link are related record by record. -/
theorem forall₂_of_link_eq {Q : Record → Record → Prop}
    (hfresh : ∀ previous record, step previous record ≠ genesis)
    (hbinds : ∀ p ∈ hashed step genesis records, ∀ p' ∈ hashed step genesis records',
      step p.1 p.2 = step p'.1 p'.2 → p.1 = p'.1 ∧ Q p.2 p'.2)
    (hlink : link step genesis records = link step genesis records') :
    List.Forall₂ Q records records' := by
  induction records using List.reverseRecOn generalizing records' with
  | nil =>
    rcases List.eq_nil_or_concat' records' with rfl | ⟨init, record, rfl⟩
    · exact .nil
    · rw [link_snoc] at hlink
      exact absurd hlink.symm (hfresh _ record)
  | append_singleton init record ih =>
    rcases List.eq_nil_or_concat' records' with rfl | ⟨init', record', rfl⟩
    · rw [link_snoc] at hlink
      exact absurd hlink (hfresh _ record)
    · rw [link_snoc, link_snoc] at hlink
      rw [hashed_snoc, hashed_snoc] at hbinds
      -- The last links agree, so that the ones before them do, and the chains go on from there.
      obtain ⟨hbefore, hlast⟩ := hbinds (_, record) (List.mem_append_right _ List.mem_cons_self)
        (_, record') (List.mem_append_right _ List.mem_cons_self) hlink
      have hinit := ih (fun p hp p' hp' => hbinds p (List.mem_append_left _ hp) p'
        (List.mem_append_left _ hp')) hbefore
      exact List.rel_append hinit (.cons hlast .nil)

end NodeWe.HashChain
