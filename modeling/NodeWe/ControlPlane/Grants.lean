import NodeWe.ControlPlane.Approvals

/-!
# Grants are redeemed once

A grant is a ticket that `create_grant` issues and `redeem_grant` spends. A redemption that fails
behind its last check may leave the grant used without a node. A grant can also be revoked, and is
over at a time of its own. Both are about its code, which no other grant has as long as the random
source does not repeat a value.
-/

namespace NodeWe.ControlPlane

open Text InPlace Transition Tickets

/-! ## What is issued and what is spent -/

/-- What may become of a grant. -/
structure GrantKept (grant grant' : Grant) : Prop where
  same : SameGrant grant grant'
  used : grant.used = true → grant'.used = true
  revoked : grant.revoked = true → grant'.revoked = true

/-- A grant as it was issued. -/
def Grant.asIssued (grant : Grant) : Grant := { grant with used := false, revoked := false }

/-- What may become of a grant leaves it as it was issued. -/
theorem SameGrant.asIssued {grant grant' : Grant} (h : SameGrant grant grant') :
    grant'.asIssued = grant.asIssued := by
  unfold Grant.asIssued
  rw [h.code, h.signature, h.expires_at]

/-- A request issued a grant. -/
inductive RecordsGrant : Event → Grant → Prop
  | recorded (st : State) (env : Env) (actor : Option String) (grant : Grant) :
      RecordsGrant (.handled st env (.createGrant actor) ⟨.created, .grantCreated grant⟩) grant

/-- A request revoked the grant with a code. -/
inductive RevokesGrant : Event → String → Prop
  | revoked (st : State) (env : Env) (path : String) (actor : Option String) (reply : Reply) :
      RevokesGrant (.handled st env (.revokeGrant path actor) ⟨.ok, reply⟩) (revokedGrantCode path)

/-- A request that presents a code enrolled a node. -/
inductive Redeems [Serde] : Event → String → Node → Prop
  | redeemed (st : State) (env : Env) (body : String) (node : Node) (fresh : Bool)
      (credential : String) :
      Redeems (.handled st env (.redeemGrant body)
        ⟨.created, .nodeWithCredential node fresh credential⟩)
        ((jsonField body "grant_code").getD "") node

/-- A grant admits a node: its code and its signature are presented, the signature verifies, and the
grant is neither used nor revoked nor over. -/
inductive Admits [Serde] [Ed25519] : Event → Grant → Prop
  | admitted (st : State) (env : Env) (body : String) (response : Response) (grant : Grant)
      (hcode : grant.code = (jsonField body "grant_code").getD "")
      (hsignature : grant.signature = (jsonField body "grant_signature").getD "")
      (hverified : verifyGrant env grant.code grant.expires_at grant.signature st.grant_secret = true)
      (hunused : grant.used = false) (hunrevoked : grant.revoked = false)
      (hunexpired : env.now (.grantExpiry grant.code) < grant.expires_at) :
      Admits (.handled st env (.redeemGrant body) response) grant

/-- The grants as tickets. -/
def grantScheme [Serde] [Ed25519] : Scheme Event Grant where
  used := Grant.used
  Keeps := GrantKept
  Issues := fun event grant => RecordsGrant event grant ∧ grant.asIssued = grant
  Spends := fun event => ∃ code node, Redeems event code node
  Pays := Admits
  keeps_refl := fun _ => ⟨⟨rfl, rfl, rfl⟩, id, id⟩
  keeps_trans := fun _ _ _ h h' =>
    ⟨⟨h'.same.code.trans h.same.code, h'.same.signature.trans h.same.signature,
      h'.same.expires_at.trans h.same.expires_at⟩,
      fun hused => h'.used (h.used hused), fun hrevoked => h'.revoked (h.revoked hrevoked)⟩
  keeps_used := fun _ _ h => h.used

/-! ## One request -/

section Steps

variable [Serde] [Ed25519] {st : State} {env : Env} {store new : Store} {arm : Arm}
  {response : Response}

/-- A grant that a redemption finds admits the node. -/
theorem admits_of_redeemedBy {body : String} {grant : Grant} (response : Response)
    (h : redeemedBy st env body grant = true) :
    Admits (.handled st env (.redeemGrant body) response) grant := by
  simp only [redeemedBy, redeemable, Bool.and_eq_true, beq_iff_eq, Bool.not_eq_true',
    decide_eq_true_eq, constantTimeEq_iff] at h
  obtain ⟨⟨⟨⟨⟨hcode, hsignature⟩, hverified⟩, hunused⟩, hunrevoked⟩, hunexpired⟩ := h
  exact .admitted st env body response grant hcode hsignature hverified hunused hunrevoked hunexpired

/-- What a request does to the grants. -/
theorem Effect.grantStep (h : Effect st env store arm response new) :
    grantScheme.Step store.grants (.handled st env arm response) new.grants := by
  have hcreated : Status.isSuccess .created = true := by decide
  cases h with
  | unchanged arm response hread hshown =>
    refine .same ?_
    rintro ⟨code, node, hredeems⟩
    cases hredeems
    exact absurd (hread hcreated) Bool.false_ne_true
  | grantCreated actor code signature hdrawn hsigned =>
    refine .issue ?_ ⟨.recorded st env actor _, rfl⟩
    rintro ⟨code, node, hredeems⟩
    cases hredeems
  | grantRevoked path actor grant hfound =>
    refine .mark hfound ⟨⟨rfl, rfl, rfl⟩, id, fun _ => rfl⟩ ?_
    rintro ⟨code, node, hredeems⟩
    cases hredeems
  | grantRedeemed body grant node h hfound =>
    have hadmits : Admits (.handled st env (.redeemGrant body) _) grant :=
      admits_of_redeemedBy
        ⟨.created, .nodeWithCredential node (nodeIsFresh st env node) node.credential⟩
        (List.find?_some hfound)
    refine .mark hfound ⟨⟨rfl, rfl, rfl⟩, fun _ => rfl, id⟩ fun _ => ⟨hadmits, ?_, rfl⟩
    cases hadmits
    assumption
  | redemptionAborted body grant hid hnew hfound hdrawn =>
    refine .mark hfound ⟨⟨rfl, rfl, rfl⟩, fun _ => rfl, id⟩ ?_
    rintro ⟨code, node, hredeems⟩
    cases hredeems
  | taskCreated body actor req approved k h happroved =>
    dsimp only
    rw [(approvalGate_frame happroved).grants]
    refine .same ?_
    rintro ⟨code, node, hredeems⟩
    cases hredeems
  | _ =>
    refine .same ?_
    rintro ⟨code, node, hredeems⟩
    cases hredeems

/-- A step of a run is one of its grants. -/
theorem Happens.grantStep {event : Event} (h : Happens store event new) (hfits : StoreFits store) :
    grantScheme.Step store.grants event new.grants := by
  cases h with
  | handled _ _ _ h =>
    cases h with
    | handled st env arm => exact (arm.run_effect st env store).grantStep
  | reloaded env _ _ h =>
    rw [eq_reloadedStore h, reloadedStore_grants env hfits]
    refine .same ?_
    rintro ⟨code, node, hredeems⟩
    cases hredeems

/-! ## Signatures -/

/-- A step of a run keeps the signatures in hexadecimal. -/
theorem Happens.signatures {event : Event} (h : Happens store event new)
    (hstore : ∀ grant ∈ store.grants, ∃ bs, grant.signature = hexEncodeBytes bs) :
    ∀ grant ∈ new.grants, ∃ bs, grant.signature = hexEncodeBytes bs := by
  intro grant hgrant
  cases h with
  | handled _ _ _ h =>
    cases h with
    | handled st env arm =>
      rcases (arm.run_effect st env store).mem_grants hgrant with ⟨old, hold, hsame⟩ | hissued
      · rw [hsame.signature]
        exact hstore old hold
      · exact signGrant_hex hissued.signed
  | reloaded env _ _ h =>
    rw [eq_reloadedStore h] at hgrant
    obtain ⟨old, hold, hread⟩ := List.mem_filterMap.mp hgrant
    unfold reloadedGrant at hread
    split_ifs at hread
    obtain ⟨bs, hbs⟩ := hstore old hold
    rw [← Option.some.inj hread, hbs]
    exact ⟨bs, clean_of_plain (plain_hexEncodeBytes bs)⟩

/-- In a reachable store `verify_grant` decodes the signature of a grant without a panic. -/
theorem Reachable.signature_decodes (h : Reachable store) {grant : Grant}
    (hgrant : grant ∈ store.grants) : ∃ decoded, hexDecodeBytes grant.signature = .ok decoded := by
  obtain ⟨events, hrun⟩ := h
  have hsignatures := hrun.invariant
    (P := fun store => ∀ grant ∈ store.grants, ∃ bs, grant.signature = hexEncodeBytes bs)
    (List.forall_mem_nil _) fun _ _ _ hs hstep => hstep.signatures hs
  obtain ⟨bs, hbs⟩ := hsignatures grant hgrant
  rw [hexDecodeBytes, hbs, bytes_hexEncodeBytes, hexPairs_flatMap]
  split_ifs
  · exact ⟨none, rfl⟩
  · exact ⟨some bs, rfl⟩

/-! ## Codes -/

/-- The code that a request for a grant draws. -/
def Event.drawnCode : Event → Option String
  | handled _ env (.createGrant _) _ => randomToken env 0
  | _ => none

/-- The random source hands no value to two requests for a grant. -/
def CodesDiffer (events : List Event) : Prop := (events.filterMap Event.drawnCode).Nodup

omit [Serde] [Ed25519] in
/-- Two requests that drew the same code are one. -/
theorem CodesDiffer.unique {events : List Event} (h : CodesDiffer events) {m m' : ℕ}
    {event event' : Event} {code : String} (hm : events[m]? = some event)
    (hm' : events[m']? = some event') (hcode : event.drawnCode = some code)
    (hcode' : event'.drawnCode = some code) : m = m' := by
  have hpairwise := List.pairwise_iff_getElem.mp (List.pairwise_filterMap.mp h)
  obtain ⟨hbound, rfl⟩ := List.getElem?_eq_some_iff.mp hm
  obtain ⟨hbound', rfl⟩ := List.getElem?_eq_some_iff.mp hm'
  rcases lt_trichotomy m m' with hlt | heq | hlt
  · exact absurd rfl (hpairwise m m' hbound hbound' hlt code hcode code hcode')
  · exact heq
  · exact absurd rfl (hpairwise m' m hbound' hbound hlt code hcode' code hcode)

/-- The code of a grant was drawn for it. -/
theorem Happens.drawnCode {event : Event} {grant : Grant} (h : Happens store event new)
    (hrecords : RecordsGrant event grant) : event.drawnCode = some grant.code := by
  cases hrecords with
  | recorded st env actor =>
    cases h with
    | handled _ _ _ h =>
      have hcreated : Status.isSuccess .created = true := by decide
      have heffect := h.effect
      generalize hresponse : (⟨.created, .grantCreated grant⟩ : Response) = response at heffect
      cases heffect with
      | unchanged _ _ hread _ =>
        rw [← hresponse] at hread
        exact absurd (hread hcreated) Bool.false_ne_true
      | grantCreated _ code signature hdrawn hsigned =>
        cases hresponse
        exact hdrawn

/-- A request that answers that it revoked a grant marked the first one with the code. -/
theorem Happens.revokes {event : Event} {code : String} (h : Happens store event new)
    (hrevokes : RevokesGrant event code) :
    ∃ grant, store.grants.find? (fun grant => grant.code == code) = some grant ∧
      new.grants = setFirst (fun grant => grant.code == code) { grant with revoked := true }
        store.grants := by
  cases hrevokes with
  | revoked st env path actor reply =>
    cases h with
    | handled _ _ _ h =>
      have hok : Status.isSuccess .ok = true := by decide
      have heffect := h.effect
      generalize hresponse : (⟨.ok, reply⟩ : Response) = response at heffect
      cases heffect with
      | unchanged _ _ hread _ =>
        rw [← hresponse] at hread
        exact absurd (hread hok) Bool.false_ne_true
      | grantRevoked _ _ grant hfound => exact ⟨grant, hfound, rfl⟩

/-- A request that enrolled a node found a grant that admits it. -/
theorem Happens.redeems {event : Event} {code : String} {node : Node}
    (h : Happens store event new) (hredeems : Redeems event code node) :
    ∃ grant ∈ store.grants, grant.code = code ∧ Admits event grant := by
  cases hredeems with
  | redeemed st env body node fresh credential =>
    cases h with
    | handled _ _ _ h =>
      have hcreated : Status.isSuccess .created = true := by decide
      have heffect := h.effect
      generalize hresponse : (⟨.created, .nodeWithCredential node fresh credential⟩ : Response) =
        response at heffect
      cases heffect with
      | unchanged _ _ hread _ =>
        rw [← hresponse] at hread
        exact absurd (hread hcreated) Bool.false_ne_true
      | grantRedeemed _ grant _ _ hfound =>
        have hadmits (response : Response) :
            Admits (.handled st env (.redeemGrant body) response) grant :=
          admits_of_redeemedBy response (List.find?_some hfound)
        refine ⟨grant, List.mem_of_find?_eq_some hfound, ?_, hadmits _⟩
        cases hadmits ⟨.created, .nodeWithCredential node fresh credential⟩
        assumption
      | redemptionAborted => cases hresponse

/-- No grant is dropped, and one that was not there was just issued. -/
theorem Happens.grants_length {event : Event} (h : Happens store event new)
    (hfits : StoreFits store) :
    new.grants.length = store.grants.length ∨
      ∃ grant, RecordsGrant event grant ∧ new.grants = store.grants ++ [grant] := by
  cases h with
  | handled _ _ _ h =>
    cases h with
    | handled st env arm =>
      have heffect := arm.run_effect st env store
      generalize arm.run st env store = result at heffect ⊢
      obtain ⟨response, new⟩ := result
      dsimp only at heffect ⊢
      cases heffect with
      | grantCreated actor code signature hdrawn hsigned =>
        exact .inr ⟨_, .recorded st env actor _, rfl⟩
      | taskCreated body actor req approved k h happroved =>
        exact .inl (congrArg List.length (approvalGate_frame happroved).grants)
      | grantRevoked path actor grant hfound => exact .inl List.length_set
      | grantRedeemed body grant node h hfound => exact .inl List.length_set
      | redemptionAborted body grant hid hnew hfound hdrawn => exact .inl List.length_set
      | _ => exact .inl rfl
  | reloaded env _ _ h =>
    rw [eq_reloadedStore h, reloadedStore_grants env hfits]
    exact .inl rfl

/-! ## Runs -/

/-- What a store has of the grants so far: their codes were drawn, in order, and as long as the
codes differ, a code that was revoked is that of revoked grants only. -/
structure GrantsTracked (events : List Event) (store : Store) : Prop where
  drawn : (store.grants.map Grant.code).Sublist (events.filterMap Event.drawnCode)
  recorded : ∀ event ∈ events, ∀ grant, RecordsGrant event grant →
    event.drawnCode = some grant.code
  revoked : CodesDiffer events → ∀ event ∈ events, ∀ code, RevokesGrant event code →
    (∃ grant ∈ store.grants, grant.code = code) ∧
      ∀ grant ∈ store.grants, grant.code = code → grant.revoked = true

variable {events : List Event} {event : Event}

omit [Serde] [Ed25519] in
/-- Codes that differ in a run differ in its beginning. -/
theorem CodesDiffer.of_append {labels : List Event} (h : CodesDiffer (events ++ labels)) :
    CodesDiffer events := by
  unfold CodesDiffer at h ⊢
  rw [List.filterMap_append] at h
  exact h.of_append_left

omit [Serde] [Ed25519] in
/-- Grants with the same code are one. -/
theorem GrantsTracked.unique (h : GrantsTracked events store) (hcodes : CodesDiffer events)
    {grant grant' : Grant} (hgrant : grant ∈ store.grants) (hgrant' : grant' ∈ store.grants)
    (heq : grant.code = grant'.code) : grant = grant' :=
  List.inj_on_of_nodup_map (h.drawn.nodup hcodes) hgrant hgrant' heq

/-- A step keeps the codes drawn. -/
theorem GrantsTracked.drawn_step (h : GrantsTracked events store) (hstep : Happens store event new)
    (hfits : StoreFits store) :
    (new.grants.map Grant.code).Sublist ((events ++ [event]).filterMap Event.drawnCode) := by
  rw [List.filterMap_append]
  rcases hstep.grants_length hfits with hlength | ⟨grant, hrecords, hgrants⟩
  · have hkept := (hstep.grantStep hfits).kept
    rw [hkept.map_eq (fun _ _ hkeeps => hkeeps.same.code) hlength]
    exact h.drawn.trans (List.sublist_append_left _ _)
  · rw [hgrants, List.map_append]
    refine List.Sublist.append h.drawn ?_
    rw [List.filterMap_cons_some (hstep.drawnCode hrecords)]
    exact List.Sublist.refl _

/-- A step keeps the marks of the codes that were revoked before it. -/
theorem GrantsTracked.revoked_step (h : GrantsTracked events store)
    (hstep : Happens store event new) (hfits : StoreFits store)
    (hcodes : CodesDiffer (events ++ [event])) {earlier : Event} (hearlier : earlier ∈ events)
    {code : String} (hrevokes : RevokesGrant earlier code) :
    (∃ grant ∈ new.grants, grant.code = code) ∧
      ∀ grant ∈ new.grants, grant.code = code → grant.revoked = true := by
  obtain ⟨⟨old, hold, holdcode⟩, hmarked⟩ := h.revoked hcodes.of_append earlier hearlier code hrevokes
  have hgrants := hstep.grantStep hfits
  constructor
  · obtain ⟨i, hi⟩ := List.getElem?_of_mem hold
    obtain ⟨grant, hgrant, hkeeps⟩ := hgrants.kept i old hi
    exact ⟨grant, List.mem_of_getElem? hgrant, hkeeps.same.code.trans holdcode⟩
  · intro grant hgrant hcode
    rcases hgrants.kept.of_mem hgrant with ⟨before, hbefore, hkeeps⟩ | hnew
    · exact hkeeps.revoked (hmarked before hbefore (hkeeps.same.code.symm.trans hcode))
    · -- The code was drawn before, so it is not drawn again.
      have hdrawn := hstep.drawnCode (hgrants.issued grant hnew).1
      unfold CodesDiffer at hcodes
      rw [List.filterMap_append, List.filterMap_cons_some hdrawn] at hcodes
      have hdrawn' : grant.code ∈ events.filterMap Event.drawnCode := by
        rw [hcode, ← holdcode]
        exact h.drawn.subset (List.mem_map_of_mem hold)
      exact absurd List.mem_cons_self (List.disjoint_of_nodup_append hcodes hdrawn')

/-- A step keeps what a store has of the grants. -/
theorem GrantsTracked.step (h : GrantsTracked events store) (hstep : Happens store event new)
    (hfits : StoreFits store) : GrantsTracked (events ++ [event]) new where
  drawn := h.drawn_step hstep hfits
  recorded := by
    refine List.forall_mem_append.mpr ⟨h.recorded, List.forall_mem_singleton.mpr ?_⟩
    exact fun grant hrecords => hstep.drawnCode hrecords
  revoked := by
    intro hcodes
    refine List.forall_mem_append.mpr ⟨fun earlier hearlier code hrevokes =>
      h.revoked_step hstep hfits hcodes hearlier hrevokes, List.forall_mem_singleton.mpr ?_⟩
    intro code hrevokes
    obtain ⟨grant, hfound, hgrants⟩ := hstep.revokes hrevokes
    have hcode : grant.code = code := by simpa using List.find?_some hfound
    have hbound := (List.getElem?_eq_some_iff.mp (getElem?_findIdx hfound)).1
    have hmarked : { grant with revoked := true } ∈ new.grants := by
      rw [hgrants]
      exact List.mem_of_getElem? (List.getElem?_set_self hbound)
    have hdistinct := (h.drawn_step hstep hfits).nodup hcodes
    refine ⟨⟨_, hmarked, hcode⟩, fun other hother hsame => ?_⟩
    rw [List.inj_on_of_nodup_map hdistinct hother hmarked (hsame.trans hcode.symm)]

variable [Rfc8259]

/-- A run is one of its grants, and keeps what the store has of them. -/
theorem GrantsTracked.of_run (hrun : Run Happens Store.empty events store) (htime : InTime events) :
    Run grantScheme.Step [] events store.grants ∧ GrantsTracked events store ∧
      StoreFits store := by
  refine hrun.history (P := fun events store => InTime events →
    Run grantScheme.Step [] events store.grants ∧ GrantsTracked events store ∧ StoreFits store)
    ?_ ?_ htime
  · exact fun _ => ⟨.start, ⟨.slnil, List.forall_mem_nil _, fun _ => List.forall_mem_nil _⟩,
      storeFits_empty⟩
  · intro events s event t ih hstep htime
    unfold InTime at htime
    rw [List.forall_mem_append, List.forall_mem_singleton] at htime
    obtain ⟨hgrants, htracked, hs⟩ := ih htime.1
    exact ⟨.snoc _ _ _ _ hgrants (hstep.grantStep hs), htracked.step hstep hs,
      hstep.storeFits htime.2 hs⟩

/-- A grant that a node was enrolled with: it is used, it admitted the node, and an earlier request
issued it. -/
structure RedeemedAt (events : List Event) (n : ℕ) (event : Event) (code : String)
    (grant : Grant) : Prop where
  used : grant.used = true
  code : grant.code = code
  admits : Admits event grant.asIssued
  recorded : ∃ m < n, ∃ earlier, events[m]? = some earlier ∧ RecordsGrant earlier grant.asIssued

omit [Rfc8259] in
/-- A ticket that was spent is a grant that the node was enrolled with. -/
theorem redeemedAt_of_spentAt {n : ℕ} {code : String} {node : Node} {grant : Grant}
    (hredeems : Redeems event code node) (h : grantScheme.SpentAt events n event grant) :
    RedeemedAt events n event code grant := by
  obtain ⟨old, ⟨m, earlier, original, hm, ⟨hrecords, hissued⟩, horiginal⟩, hadmits, hunused,
    hkeeps⟩ := h.paid
  have hold : old = grant.asIssued := by
    have hadmits : Admits event old := hadmits
    have hunrevoked : old.revoked = false := by
      cases hadmits
      assumption
    have hunused : old.used = false := hunused
    calc old = ⟨old.code, old.signature, old.expires_at, old.used, old.revoked⟩ := rfl
      _ = old.asIssued := by rw [hunused, hunrevoked, Grant.asIssued]
      _ = grant.asIssued := hkeeps.same.asIssued.symm
  have hcode : old.code = code := by
    cases hredeems
    cases hadmits
    assumption
  refine ⟨h.used, hkeeps.same.code.trans hcode, hold ▸ hadmits, m, ?_, earlier, ?_, ?_⟩
  · have hbound := (List.getElem?_eq_some_iff.mp hm).1
    rw [List.length_take] at hbound
    omega
  · rw [List.getElem?_take] at hm
    split_ifs at hm
    exact hm
  · have hsame : grant.asIssued = original := by
      calc grant.asIssued = old.asIssued := hkeeps.same.asIssued
        _ = original.asIssued := horiginal.same.asIssued
        _ = original := hissued
    rwa [hsame]

/-- What the grants of a run hold to: the redemptions that enrol a node map injectively to the grants
of the store, each to one that admitted the node; and as long as codes differ, no code is redeemed
after it was revoked, or when the clock has reached the end of its grant. -/
structure GrantsHold (events : List Event) (store : Store) : Prop where
  single_use : ∃ grantOf : ℕ → ℕ,
    Set.InjOn grantOf
      {n | ∃ event code node, events[n]? = some event ∧ Redeems event code node} ∧
    ∀ (n : ℕ) (event : Event) (code : String) (node : Node), events[n]? = some event →
      Redeems event code node →
        ∃ grant, store.grants[grantOf n]? = some grant ∧ RedeemedAt events n event code grant
  revocable : CodesDiffer events → ∀ (n : ℕ) (event : Event) (code : String) (node : Node),
    events[n]? = some event → Redeems event code node →
      ∀ k < n, ∀ earlier, events[k]? = some earlier → ¬RevokesGrant earlier code
  expires : CodesDiffer events → ∀ (n : ℕ) (event : Event) (code : String) (node : Node),
    events[n]? = some event → Redeems event code node →
      ∀ (m : ℕ) (issuer : Event) (grant : Grant), events[m]? = some issuer →
        RecordsGrant issuer grant → grant.code = code →
          event.env.now (.grantExpiry code) < grant.expires_at

/-- No code is redeemed after it was revoked: the redemption finds a grant that is not. -/
theorem not_revoked_of_redeems (hrun : Run Happens Store.empty events store) (htime : InTime events)
    (hcodes : CodesDiffer events) {n k : ℕ} {code : String} {node : Node}
    (hn : events[n]? = some event) (hredeems : Redeems event code node) (hk : k < n)
    {earlier : Event} (hearlier : events[k]? = some earlier) : ¬RevokesGrant earlier code := by
  intro hrevokes
  obtain ⟨s, s', hbefore, hstep, -⟩ := hrun.at_index hn
  have hmem : earlier ∈ events.take n := by
    rw [← List.getElem?_take_of_lt hk] at hearlier
    exact List.mem_of_getElem? hearlier
  have hcodes' : CodesDiffer (events.take n) := by
    rw [← List.take_append_drop n events] at hcodes
    exact hcodes.of_append
  obtain ⟨-, htracked, -⟩ :=
    GrantsTracked.of_run hbefore fun e he => htime e (List.mem_of_mem_take he)
  obtain ⟨grant, hgrant, hcode, hadmits⟩ := hstep.redeems hredeems
  have hrevoked := (htracked.revoked hcodes' earlier hmem code hrevokes).2 grant hgrant hcode
  have hunrevoked : grant.revoked = false := by
    cases hadmits
    assumption
  rw [hunrevoked] at hrevoked
  cases hrevoked

omit [Rfc8259] in
/-- The grant that admitted a node is the one that was issued under the code. -/
theorem RedeemedAt.eq_of_code {n m : ℕ} {issuer : Event} {code : String} {grant admitted : Grant}
    (h : RedeemedAt events n event code admitted) (htracked : GrantsTracked events store)
    (hcodes : CodesDiffer events) (hm : events[m]? = some issuer)
    (hrecords : RecordsGrant issuer grant) (hcode : grant.code = code) :
    grant = admitted.asIssued := by
  obtain ⟨m', -, issuer', hm', hrecords'⟩ := h.recorded
  have hdrawn := htracked.recorded issuer (List.mem_of_getElem? hm) grant hrecords
  have hdrawn' := htracked.recorded issuer' (List.mem_of_getElem? hm') _ hrecords'
  have hsame : grant.code = admitted.asIssued.code := hcode.trans h.code.symm
  rw [hsame] at hdrawn
  obtain rfl := hcodes.unique hm hm' hdrawn hdrawn'
  obtain rfl : issuer = issuer' := Option.some.inj (hm.symm.trans hm')
  cases hrecords
  cases hrecords'
  rfl

/-- **Grants are redeemed once, until they are revoked or over.** -/
theorem grants_single_use (hrun : Run Happens Store.empty events store) (htime : InTime events) :
    GrantsHold events store := by
  obtain ⟨hgrants, htracked, hfits⟩ := GrantsTracked.of_run hrun htime
  obtain ⟨grantOf, honce, hspent⟩ := Scheme.spent_once hgrants
  have hredeemed (n : ℕ) (event : Event) (code : String) (node : Node)
      (hn : events[n]? = some event) (hredeems : Redeems event code node) :
      ∃ grant, store.grants[grantOf n]? = some grant ∧ RedeemedAt events n event code grant := by
    obtain ⟨grant, hgrant, hspentAt⟩ := hspent n event hn ⟨code, node, hredeems⟩
    exact ⟨grant, hgrant, redeemedAt_of_spentAt hredeems hspentAt⟩
  constructor
  · refine ⟨grantOf, honce.mono ?_, hredeemed⟩
    rintro n ⟨event, code, node, hn, hredeems⟩
    exact ⟨event, hn, code, node, hredeems⟩
  · intro hcodes n event code node hn hredeems k hk earlier hearlier
    exact not_revoked_of_redeems hrun htime hcodes hn hredeems hk hearlier
  · intro hcodes n event code node hn hredeems m issuer grant hm hrecords hcode
    obtain ⟨admitted, -, hat⟩ := hredeemed n event code node hn hredeems
    rw [hat.eq_of_code htracked hcodes hm hrecords hcode]
    have hadmits := hat.admits
    generalize hasIssued : admitted.asIssued = issued at hadmits
    have hissued : issued.code = code := by
      rw [← hasIssued]
      exact hat.code
    cases hadmits with
    | admitted st env body response _ _ _ _ _ _ hunexpired => rwa [hissued] at hunexpired

end Steps

/-! ## A small run -/

section Example

attribute [local instance] compactSerde rfc8259_compactSerde noKeys

/-- Two codes, and their signatures under the secret of `exampleState`. -/
def exampleGrants : (String × String) × (String × String) :=
  (("000000000000000000000000000000000000000000000000",
    "975ec21af6e3fd525063a975c4e82e4c71f99257610e6bc99ac272d45e69f8d2"),
    ("070707070707070707070707070707070707070707070707",
    "5287cc8dc3455571824e250bf1c89d96893f28e28ff8975ff391ab2882f4e356"))

/-- The body that presents a code and a signature for a node. -/
def redemptionBody (grant : String × String) (node_id : String) : String :=
  "\x7b\"grant_code\":\"" ++ grant.1 ++ "\",\"grant_signature\":\"" ++ grant.2 ++
    "\",\"node_id\":\"" ++ node_id ++ "\"\x7d"

/-- Surroundings that draw another code than those of `exampleEnv`. -/
def otherEnv : Env := { exampleEnv 0 with random := fun _ => some (Vector.replicate 24 7) }

/-- Two grants are created. The second one is revoked, and a node presents it; then two nodes present
the first one. -/
def redeemedCalls : List (Env × Arm) :=
  [(exampleEnv 0, .createGrant none), (otherEnv, .createGrant none),
    (exampleEnv 0, .revokeGrant ("/v1/grants/" ++ exampleGrants.2.1 ++ "/revoke") none),
    (exampleEnv 0, .redeemGrant (redemptionBody exampleGrants.2 "n3")),
    (exampleEnv 0, .redeemGrant (redemptionBody exampleGrants.1 "n1")),
    (exampleEnv 0, .redeemGrant (redemptionBody exampleGrants.1 "n2"))]

/-- The events of these requests, and the store after them. -/
def redeemedRun : List Event × Store := handleAll exampleState redeemedCalls .empty

/-- The codes of the grants differ, and the second grant is revoked before the nodes come. At most one
of the two nodes with the first grant is enrolled, and the third one is not. -/
theorem grants_single_use_revoked :
    CodesDiffer redeemedRun.1 ∧
      (handleAll exampleState (redeemedCalls.take 3) .empty).2.grants.map Grant.revoked =
        [false, true] ∧
      GrantsHold redeemedRun.1 redeemedRun.2 := by
  have hevaluated : (redeemedRun.1.filterMap Event.drawnCode).Nodup ∧
      (handleAll exampleState (redeemedCalls.take 3) .empty).2.grants.map Grant.revoked =
        [false, true] := by
    decide +kernel
  refine ⟨hevaluated.1, hevaluated.2,
    grants_single_use (run_handleAll _ _ _) (inTime_handleAll fun call hcall site => ?_)⟩
  have henv : call.1 = exampleEnv 0 ∨ call.1 = otherEnv := by
    simp only [redeemedCalls, List.mem_cons, List.not_mem_nil, or_false] at hcall
    rcases hcall with rfl | rfl | rfl | rfl | rfl | rfl <;> simp
  have hnow : call.1.now site = 0 := by
    rcases henv with henv | henv <;> rw [henv] <;> rfl
  rw [hnow]
  decide

end Example

end NodeWe.ControlPlane
