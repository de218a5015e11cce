import Mathlib.Data.Set.Function
import NodeWe.InPlace
import NodeWe.Transition

/-!
# Tickets that are spent once

A program keeps a list of tickets, which it appends to and marks in place. Some of its steps issue a
ticket, and some spend one. A `Scheme` says which steps do, and `Scheme.Step` what a step may do to
the list. Over a run, the steps that spend map injectively to the tickets of the list, and each of
these tickets was issued by an earlier step (`Scheme.spent_once`).
-/

namespace NodeWe.Tickets

open InPlace Transition

variable {ι τ : Type*}

/-- The tickets of a system: how they are marked as used, what else may become of them, and which
steps issue and spend them. -/
structure Scheme (ι τ : Type*) where
  used : τ → Bool
  /-- What may become of a ticket. -/
  Keeps : τ → τ → Prop
  /-- A step issues a ticket. -/
  Issues : ι → τ → Prop
  /-- A step spends some ticket. -/
  Spends : ι → Prop
  /-- A ticket, as the step finds it, is what the step has to spend. -/
  Pays : ι → τ → Prop
  keeps_refl : ∀ a, Keeps a a
  keeps_trans : ∀ a b c, Keeps a b → Keeps b c → Keeps a c
  keeps_used : ∀ a b, Keeps a b → used a = true → used b = true

namespace Scheme

variable {S : Scheme ι τ} {labels : List ι} {label : ι} {before after tickets : List τ}

/-- What a step does to the list: the tickets stay at their indices, those behind them are issued,
and a step that spends marks a ticket that was not used. -/
structure Step (S : Scheme ι τ) (before : List τ) (label : ι) (after : List τ) : Prop where
  kept : Evolves S.Keeps before after
  issued : ∀ ticket ∈ after.drop before.length, S.Issues label ticket
  spent : S.Spends label → ∃ (i : ℕ) (old new : τ), before[i]? = some old ∧
    after[i]? = some new ∧ S.Pays label old ∧ S.used old = false ∧ S.used new = true

/-- A step that leaves the tickets alone. -/
theorem Step.same (h : ¬S.Spends label) : S.Step tickets label tickets where
  kept := Evolves.refl S.keeps_refl tickets
  issued := by
    rw [List.drop_length]
    exact List.forall_mem_nil _
  spent := fun hspends => absurd hspends h

/-- A step that issues one ticket. -/
theorem Step.issue {ticket : τ} (h : ¬S.Spends label) (hissues : S.Issues label ticket) :
    S.Step tickets label (tickets ++ [ticket]) where
  kept := Evolves.append S.keeps_refl tickets _
  issued := by
    rw [List.drop_left]
    exact List.forall_mem_singleton.mpr hissues
  spent := fun hspends => absurd hspends h

/-- A step that marks the first ticket that a predicate selects. -/
theorem Step.mark {p : τ → Bool} {old new : τ} (hfound : tickets.find? p = some old)
    (hkeeps : S.Keeps old new)
    (hspent : S.Spends label → S.Pays label old ∧ S.used old = false ∧ S.used new = true) :
    S.Step tickets label (setFirst p new tickets) where
  kept := Evolves.setFirst S.keeps_refl hfound hkeeps
  issued := by
    have hlength : (setFirst p new tickets).length = tickets.length := List.length_set
    rw [← hlength, List.drop_length]
    exact List.forall_mem_nil _
  spent := by
    intro hspends
    have hold := getElem?_findIdx hfound
    have hi := (List.getElem?_eq_some_iff.mp hold).1
    exact ⟨_, old, new, hold, List.getElem?_set_self hi, hspent hspends⟩

/-- What may become of the tickets over a run. -/
theorem kept_of_run (h : Run S.Step before labels after) : Evolves S.Keeps before after := by
  refine h.related (P := fun _ => True) (R := Evolves S.Keeps) ?_ ?_ trivial ?_
  · exact fun tickets _ => Evolves.refl S.keeps_refl tickets
  · exact fun _ _ _ => Evolves.trans S.keeps_trans
  · exact fun _ _ _ _ hstep => ⟨trivial, hstep.kept⟩

/-- A ticket that an earlier step issued. -/
def Issued (S : Scheme ι τ) (labels : List ι) (ticket : τ) : Prop :=
  ∃ (m : ℕ) (issuer : ι) (original : τ), labels[m]? = some issuer ∧ S.Issues issuer original ∧
    S.Keeps original ticket

/-- More steps issue no fewer tickets. -/
theorem Issued.append {ticket : τ} (h : S.Issued labels ticket) (labels' : List ι) :
    S.Issued (labels ++ labels') ticket := by
  obtain ⟨m, issuer, original, hm, hissues, hkeeps⟩ := h
  have hlength := (List.getElem?_eq_some_iff.mp hm).1
  exact ⟨m, issuer, original, by rwa [List.getElem?_append_left hlength], hissues, hkeeps⟩

/-- Every ticket was issued. -/
theorem issued_of_run (h : Run S.Step [] labels tickets) :
    ∀ ticket ∈ tickets, S.Issued labels ticket := by
  refine h.history (P := fun labels tickets => ∀ ticket ∈ tickets, S.Issued labels ticket)
    (List.forall_mem_nil _) ?_
  intro labels before label after ih hstep ticket hticket
  rcases hstep.kept.of_mem hticket with ⟨old, hold, hkeeps⟩ | hnew
  · obtain ⟨m, issuer, original, hm, hissues, horiginal⟩ := (ih old hold).append [label]
    exact ⟨m, issuer, original, hm, hissues, S.keeps_trans _ _ _ horiginal hkeeps⟩
  · exact ⟨labels.length, label, ticket, List.getElem?_concat_length, hstep.issued ticket hnew,
      S.keeps_refl ticket⟩

/-- A ticket was spent at the step `n`: it is used, and before the step it was issued and was what
the step had to spend. -/
structure SpentAt (S : Scheme ι τ) (labels : List ι) (n : ℕ) (label : ι) (ticket : τ) : Prop where
  used : S.used ticket = true
  paid : ∃ old, S.Issued (labels.take n) old ∧ S.Pays label old ∧ S.used old = false ∧
    S.Keeps old ticket

/-- A ticket that was spent stays so. -/
theorem SpentAt.keeps {n : ℕ} {ticket ticket' : τ} (h : S.SpentAt labels n label ticket)
    (hkeeps : S.Keeps ticket ticket') : S.SpentAt labels n label ticket' := by
  obtain ⟨old, hissued, hpays, hunused, hold⟩ := h.paid
  exact ⟨S.keeps_used _ _ hkeeps h.used, old, hissued, hpays, hunused,
    S.keeps_trans _ _ _ hold hkeeps⟩

/-- What the steps of a run have spent: each a ticket of its own. -/
structure Ledger (S : Scheme ι τ) (labels : List ι) (tickets : List τ) (ticketOf : ℕ → ℕ) :
    Prop where
  once : Set.InjOn ticketOf {n | ∃ label, labels[n]? = some label ∧ S.Spends label}
  spent : ∀ (n : ℕ) (label : ι), labels[n]? = some label → S.Spends label →
    ∃ ticket, tickets[ticketOf n]? = some ticket ∧ S.SpentAt labels n label ticket

/-- A step that was taken before the last one. -/
theorem getElem?_of_concat {n : ℕ} {label' : ι} (h : (labels ++ [label])[n]? = some label')
    (hn : n ≠ labels.length) : labels[n]? = some label' ∧ n < labels.length := by
  have hbound := (List.getElem?_eq_some_iff.mp h).1
  rw [List.length_append, List.length_singleton] at hbound
  have hlt : n < labels.length := by omega
  rw [List.getElem?_append_left hlt] at h
  exact ⟨h, hlt⟩

/-- An earlier step has spent what it has, after one more step. -/
theorem Ledger.earlier {ticketOf : ℕ → ℕ} (h : S.Ledger labels before ticketOf)
    (hstep : S.Step before label after) {n : ℕ} {label' : ι} (hn : labels[n]? = some label')
    (hspends : S.Spends label') :
    ∃ old ticket, before[ticketOf n]? = some old ∧ S.used old = true ∧
      after[ticketOf n]? = some ticket ∧ S.SpentAt (labels ++ [label]) n label' ticket := by
  obtain ⟨old, hold, hspent⟩ := h.spent n label' hn hspends
  obtain ⟨ticket, hticket, hkeeps⟩ := hstep.kept _ old hold
  have hlt := (List.getElem?_eq_some_iff.mp hn).1
  have htake : (labels ++ [label]).take n = labels.take n := List.take_append_of_le_length hlt.le
  obtain ⟨hused, hpaid⟩ := hspent.keeps hkeeps
  exact ⟨old, ticket, hold, hspent.used, hticket, hused, by rwa [htake]⟩

/-- A step that spends nothing keeps the ledger. -/
theorem Ledger.skip {ticketOf : ℕ → ℕ} (h : S.Ledger labels before ticketOf)
    (hstep : S.Step before label after) (hnone : ¬S.Spends label) :
    S.Ledger (labels ++ [label]) after ticketOf := by
  have hearlier {n : ℕ} {label' : ι} (hn : (labels ++ [label])[n]? = some label')
      (hspends : S.Spends label') : labels[n]? = some label' := by
    refine (getElem?_of_concat hn ?_).1
    rintro rfl
    rw [List.getElem?_concat_length, Option.some.injEq] at hn
    exact hnone (hn ▸ hspends)
  constructor
  · refine h.once.mono ?_
    rintro n ⟨label', hn, hspends⟩
    exact ⟨label', hearlier hn hspends, hspends⟩
  · intro n label' hn hspends
    obtain ⟨_, ticket, _, _, hticket, hspent⟩ := h.earlier hstep (hearlier hn hspends) hspends
    exact ⟨ticket, hticket, hspent⟩

/-- A step that spends enters its ticket, which none of the earlier steps has spent. -/
theorem Ledger.spend {ticketOf : ℕ → ℕ} (h : S.Ledger labels before ticketOf)
    (hissued : ∀ ticket ∈ before, S.Issued labels ticket) (hstep : S.Step before label after)
    (hspends : S.Spends label) : ∃ ticketOf', S.Ledger (labels ++ [label]) after ticketOf' := by
  obtain ⟨i, old, new, hold, hnew, hpays, hunused, hused⟩ := hstep.spent hspends
  refine ⟨Function.update ticketOf labels.length i, ?_, ?_⟩
  · have hfresh {n : ℕ} {label' : ι} (hn : labels[n]? = some label')
        (hspends : S.Spends label') : ticketOf n ≠ i := by
      rintro rfl
      obtain ⟨old', _, hold', hused', _⟩ := h.earlier hstep hn hspends
      obtain rfl : old = old' := Option.some.inj (hold.symm.trans hold')
      rw [hunused] at hused'
      exact Bool.false_ne_true hused'
    rintro n ⟨first, hn, hfirst⟩ n' ⟨second, hn', hsecond⟩ heq
    by_cases hlast : n = labels.length
    · by_cases hlast' : n' = labels.length
      · rw [hlast, hlast']
      · rw [hlast, Function.update_self, Function.update_of_ne hlast'] at heq
        exact absurd heq.symm (hfresh (getElem?_of_concat hn' hlast').1 hsecond)
    · rw [Function.update_of_ne hlast] at heq
      by_cases hlast' : n' = labels.length
      · rw [hlast', Function.update_self] at heq
        exact absurd heq (hfresh (getElem?_of_concat hn hlast).1 hfirst)
      · rw [Function.update_of_ne hlast'] at heq
        exact h.once ⟨first, (getElem?_of_concat hn hlast).1, hfirst⟩
          ⟨second, (getElem?_of_concat hn' hlast').1, hsecond⟩ heq
  · intro n label' hn hspends'
    by_cases hlast : n = labels.length
    · subst hlast
      rw [List.getElem?_concat_length, Option.some.injEq] at hn
      obtain ⟨new', hnew', hkeeps⟩ := hstep.kept i old hold
      obtain rfl : new = new' := Option.some.inj (hnew.symm.trans hnew')
      rw [Function.update_self, ← hn]
      refine ⟨new, hnew, hused, old, ?_, hpays, hunused, hkeeps⟩
      rw [List.take_left]
      exact hissued old (List.mem_of_getElem? hold)
    · rw [Function.update_of_ne hlast]
      obtain ⟨_, ticket, _, _, hticket, hspent⟩ :=
        h.earlier hstep (getElem?_of_concat hn hlast).1 hspends'
      exact ⟨ticket, hticket, hspent⟩

/-- **Every ticket is spent once.** -/
theorem spent_once (h : Run S.Step [] labels tickets) :
    ∃ ticketOf, S.Ledger labels tickets ticketOf := by
  refine (h.history (P := fun labels tickets => Run S.Step [] labels tickets ∧
    ∃ ticketOf, S.Ledger labels tickets ticketOf) ⟨.start, id, ?_, ?_⟩ ?_).2
  · rintro n ⟨label, hn, -⟩
    cases hn
  · intro n label hn
    cases hn
  · rintro labels before label after ⟨hrun, ticketOf, hledger⟩ hstep
    refine ⟨.snoc labels before after label hrun hstep, ?_⟩
    by_cases hspends : S.Spends label
    · exact hledger.spend (issued_of_run hrun) hstep hspends
    · exact ⟨ticketOf, hledger.skip hstep hspends⟩

end Scheme

end NodeWe.Tickets
