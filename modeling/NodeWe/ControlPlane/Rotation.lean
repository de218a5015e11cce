import NodeWe.ControlPlane.Requests

/-!
# Rotation of a credential

A node's credential is a value that the random source gave, and while such values never repeat no
two nodes share one (`Credentials`). So once a rotation has answered, no node has the old value, and
a request that presents it from then on is not authenticated: it reads the public pages or redeems
a grant. A request that was authenticated before the rotation keeps its arm and is handled.
-/

namespace NodeWe.ControlPlane

open Text InPlace Transition

/-! ## Draws -/

/-- A step of the system draws a value from the random source. -/
inductive Action.Draws (token : String) : Action → Prop
  | handled (st : State) (env : Env) (p : Pending) (response : Response) (k : ℕ)
      (h : randomToken env k = some token) : Draws token (.handled st env p response)

/-- A value that is drawn comes from the random source. -/
theorem Action.Draws.random {token : String} {action : Action} (h : action.Draws token) :
    ∃ (env : Env) (k : ℕ), randomToken env k = some token := by
  obtain ⟨_, env, _, _, k, hdrawn⟩ := h
  exact ⟨env, k, hdrawn⟩

/-- No value is drawn in two steps. -/
def NeverRedrawn (actions : List Action) : Prop :=
  actions.Pairwise fun action action' => ∀ token, action.Draws token → ¬action'.Draws token

/-- A value of the random source is plain and has no dots. -/
theorem randomToken_text {env : Env} {k : ℕ} {token : String}
    (h : randomToken env k = some token) : clean token = token ∧ '.' ∉ token.toList := by
  obtain ⟨value, -, rfl⟩ := Option.map_eq_some_iff.mp h
  refine ⟨clean_of_plain (plain_hexEncodeBytes _), fun hdot => ?_⟩
  obtain ⟨n, hn, hdigit⟩ := mem_hexEncodeBytes hdot
  interval_cases n <;> exact absurd hdigit (by decide)

/-- A credential that was drawn comes back from the files as it was. -/
theorem reloadedNode_credential (env : Env) {drawing : Env} {k : ℕ} {node : Node}
    (h : randomToken drawing k = some node.credential) :
    (reloadedNode env node).credential = node.credential :=
  (randomToken_text h).1

/-- A value of the random source is no OIDC token. -/
theorem validateOidcToken_drawn [Serde] {env env' : Env} {k : ℕ} {token : String}
    (h : randomToken env k = some token) (config : OidcConfig) :
    validateOidcToken env' token config = none := by
  have hparts : token.toList.splitOn '.' = [token.toList] :=
    List.splitOn_eq_singleton (randomToken_text h).2
  rw [validateOidcToken, hparts]

/-! ## Credentials -/

section Credentials

variable [Serde]

/-- The node that an arm draws a credential for. -/
def Arm.credentialFor : Arm → Option String
  | createNode body _ => some ((jsonField body "node_id").getD "")
  | redeemGrant body => some ((jsonField body "node_id").getD "")
  | rotateNode id _ => some id
  | _ => none

/-- A step of a node keeps its credential or draws one for it. -/
theorem NodeStep.credential {env : Env} {arm : Arm} {node node' : Node}
    (h : NodeStep env arm node node') :
    node'.credential = node.credential ∨
      arm.credentialFor = some node'.id ∧ randomToken env 0 = some node'.credential := by
  cases h with
  | rotated id actor node credential hid hlive hdrawn => exact .inr ⟨congrArg some hid.symm, hdrawn⟩
  | _ => exact .inl rfl

/-- What holds of the credentials of a store, after the steps that led to it. -/
structure Credentials (actions : List Action) (store : Store) : Prop where
  drawn : ∀ node ∈ store.nodes, ∃ action ∈ actions, action.Draws node.credential
  owner : ∀ node ∈ store.nodes, ∀ node' ∈ store.nodes,
    node.credential = node'.credential → node.id = node'.id

variable [Ed25519] {st : State} {env : Env} {store new : Store} {arm : Arm} {response : Response}

/-- A credential after a request was there before, for the same node, or was drawn for it. -/
theorem Effect.credential (h : Effect st env store arm response new) {node' : Node}
    (hnode' : node' ∈ new.nodes) :
    (∃ node ∈ store.nodes, node.id = node'.id ∧ node.credential = node'.credential) ∨
      arm.credentialFor = some node'.id ∧ randomToken env 0 = some node'.credential := by
  rcases h.mem_nodes hnode' with ⟨node, hnode, hstep⟩ | ⟨body, harm, henrols⟩
  · rcases hstep.credential with hsame | hdrawn
    · exact .inl ⟨node, hnode, hstep.id.symm, hsame.symm⟩
    · exact .inr hdrawn
  · have hid : node'.id = (jsonField body "node_id").getD "" := by rw [henrols.made]; rfl
    rcases harm with ⟨actor, rfl⟩ | rfl
    · exact .inr ⟨congrArg some hid.symm, henrols.drawn⟩
    · exact .inr ⟨congrArg some hid.symm, henrols.drawn⟩

/-- The credentials of every reachable store come from the random source. -/
theorem Reachable.credential (h : Reachable store) : ∀ node ∈ store.nodes,
    ∃ (drawing : Env) (k : ℕ), randomToken drawing k = some node.credential := by
  obtain ⟨events, hrun⟩ := h
  refine hrun.invariant (P := fun store => ∀ node ∈ store.nodes,
    ∃ (drawing : Env) (k : ℕ), randomToken drawing k = some node.credential)
    (List.forall_mem_nil _) fun s event t hs hstep node' hnode' => ?_
  cases hstep with
  | handled _ _ _ h =>
    cases h with
    | handled st env arm =>
      rcases (arm.run_effect st env s).credential hnode' with ⟨node, hnode, -, hsame⟩ | ⟨-, hdrawn⟩
      · rw [← hsame]
        exact hs node hnode
      · exact ⟨env, 0, hdrawn⟩
  | reloaded env _ _ hread =>
    rw [eq_reloadedStore hread] at hnode'
    obtain ⟨node, hnode, rfl⟩ := List.mem_map.mp hnode'
    obtain ⟨drawing, k, hdrawn⟩ := hs node hnode
    rw [reloadedNode_credential env hdrawn]
    exact ⟨drawing, k, hdrawn⟩

/-- A step keeps the credentials apart, if what it draws was not drawn before. -/
theorem Credentials.step {actions : List Action} {s t : System} {action : Action}
    (h : Credentials actions s.store) (hstep : Acts s action t) (hstore : WellFormed s.store)
    (hfresh : ∀ earlier ∈ actions, ∀ token, earlier.Draws token → ¬action.Draws token) :
    Credentials (actions ++ [action]) t.store := by
  have hold {node : Node} (hnode : node ∈ s.store.nodes) :
      ∃ earlier ∈ actions ++ [action], earlier.Draws node.credential := by
    obtain ⟨earlier, hearlier, hdraws⟩ := h.drawn node hnode
    exact ⟨earlier, List.mem_append_left _ hearlier, hdraws⟩
  cases hstep with
  | authenticated st env arrival => exact ⟨fun _ => hold, h.owner⟩
  | handled st env p s hpending =>
    have heffect := p.arm.run_effect st env s.store
    refine ⟨fun node' hnode' => ?_, fun node₁ h₁ node₂ h₂ heq => ?_⟩
    · rcases heffect.credential hnode' with ⟨node, hnode, -, hsame⟩ | ⟨-, hdrawn⟩
      · rw [← hsame]
        exact hold hnode
      · exact ⟨_, List.mem_append_right _ (List.mem_singleton_self _), .handled st env p _ 0 hdrawn⟩
    · -- A credential that was there before is not drawn again.
      have hapart {node node' : Node} (hnode : node ∈ s.store.nodes)
          (hdrawn : randomToken env 0 = some node'.credential) :
          node.credential ≠ node'.credential := by
        intro hsame
        obtain ⟨earlier, hearlier, hdraws⟩ := h.drawn node hnode
        rw [hsame] at hdraws
        exact hfresh earlier hearlier _ hdraws (.handled st env p _ 0 hdrawn)
      rcases heffect.credential h₁ with ⟨old₁, ho₁, hid₁, hc₁⟩ | ⟨hfor₁, hdrawn₁⟩ <;>
        rcases heffect.credential h₂ with ⟨old₂, ho₂, hid₂, hc₂⟩ | ⟨hfor₂, hdrawn₂⟩
      · rw [← hid₁, ← hid₂]
        exact h.owner old₁ ho₁ old₂ ho₂ (hc₁.trans (heq.trans hc₂.symm))
      · exact absurd (hc₁.trans heq) (hapart ho₁ hdrawn₂)
      · exact absurd (hc₂.trans heq.symm) (hapart ho₂ hdrawn₁)
      · exact Option.some.inj (hfor₁.symm.trans hfor₂)
  | restarted env s store hreload =>
    rw [eq_reloadedStore hreload]
    -- A valid identifier and a drawn credential come back from the files as they were.
    have hsame {node : Node} (hnode : node ∈ s.store.nodes) :
        (reloadedNode env node).id = node.id ∧
          (reloadedNode env node).credential = node.credential := by
      obtain ⟨earlier, -, hdraws⟩ := h.drawn node hnode
      obtain ⟨drawing, k, hdrawn⟩ := hdraws.random
      exact ⟨clean_of_valid (hstore.nodes node hnode), reloadedNode_credential env hdrawn⟩
    refine ⟨fun node' hnode' => ?_, fun node₁ h₁ node₂ h₂ heq => ?_⟩
    · obtain ⟨node, hnode, rfl⟩ := List.mem_map.mp hnode'
      rw [(hsame hnode).2]
      exact hold hnode
    · obtain ⟨old₁, ho₁, rfl⟩ := List.mem_map.mp h₁
      obtain ⟨old₂, ho₂, rfl⟩ := List.mem_map.mp h₂
      rw [(hsame ho₁).2, (hsame ho₂).2] at heq
      rw [(hsame ho₁).1, (hsame ho₂).1]
      exact h.owner old₁ ho₁ old₂ ho₂ heq

/-- The credentials of every run are apart, if the random source never repeats a value. -/
theorem Credentials.of_run {actions : List Action} {s : System}
    (hrun : Run Acts System.init actions s) (hfresh : NeverRedrawn actions) :
    Credentials actions s.store := by
  induction hrun with
  | start => exact ⟨List.forall_mem_nil _, List.forall_mem_nil _⟩
  | snoc actions s t action hrun hstep ih =>
    obtain ⟨hpast, -, hlast⟩ := List.pairwise_append.mp hfresh
    refine (ih hpast).step hstep (Acts.reachable hrun).wellFormed fun earlier hearlier => ?_
    exact hlast earlier hearlier action (List.mem_singleton_self action)

end Credentials

/-! ## A credential that no node has -/

section Gone

variable [Serde]

/-- An arm that is open to everyone. -/
def Arm.IsPublic (arm : Arm) : Prop := ∃ method path body, Public method path body arm

/-- An arrival that presents a value of the random source which no node has for its credential, and
which is not the administrator's token, is bound for an arm that is open to everyone. -/
theorem Arrival.isPublic_arm {st : State} {env drawing : Env} {store : Store} {arrival : Arrival}
    {k : ℕ} {credential : String} (hdrawn : randomToken drawing k = some credential)
    (hpresented : arrival.presented = credential) (hadmin : st.admin_token ≠ credential)
    (hgone : ∀ node ∈ store.nodes, node.credential ≠ credential) :
    (arrival.arm st env store).IsPublic := by
  have hrefused (path body : String) : credentialAuthorized store path body credential = false := by
    rw [Bool.eq_false_iff, Ne, credentialAuthorized_iff]
    rintro ⟨node, hnode, -, hcredential, -⟩
    exact hgone node hnode hcredential
  cases arrival with
  | request method path body presented =>
    obtain rfl : presented = credential := hpresented
    have hauth : authenticateRequest st env store path body presented = .default := by
      unfold authenticateRequest
      rw [if_neg (fun h => hadmin (constantTimeEq_iff.mp h).symm),
        if_neg (by rw [hrefused]; exact Bool.false_ne_true)]
      cases st.oidc with
      | none => rfl
      | some config => simp only [validateOidcToken_drawn hdrawn]
    refine ⟨method, path, body, ?_⟩
    simp only [Arrival.arm, hauth]
    exact public_routedArm method path body false none
  | message text expected_node presented =>
    obtain rfl : presented = credential := hpresented
    cases hcall : messageCall st env store text expected_node presented with
    | error envelope =>
      simp only [Arrival.arm, hcall]
      exact ⟨"", "", "", .respond _ rfl rfl⟩
    | ok call =>
      have hauthorized := messageCall_ok hcall
      rw [hrefused] at hauthorized
      cases hauthorized

variable [Ed25519]

/-- An arm that is open to everyone redeems a grant, or changes nothing and shows no task. -/
theorem Arm.IsPublic.run {arm : Arm} (h : arm.IsPublic) (st : State) (env : Env) (store : Store) :
    (∃ body, arm = .redeemGrant body) ∨
      (arm.run st env store).2 = store ∧ (arm.run st env store).1.reply.shownTasks = [] := by
  obtain ⟨method, path, body, h⟩ := h
  cases h with
  | respond response htasks happrovals => exact .inr ⟨rfl, htasks⟩
  | redeemGrant hmethod hpath => exact .inl ⟨body, rfl⟩

/-! ## Every later state -/

/-- Tickets are numbered in the order of arrival. -/
theorem Acts.tickets {actions : List Action} {s : System} (hrun : Run Acts System.init actions s) :
    ∀ q ∈ s.pending, q.ticket < s.arrivals := by
  refine hrun.invariant (P := fun s => ∀ q ∈ s.pending, q.ticket < s.arrivals)
    (List.forall_mem_nil _) fun s action t hs hstep => ?_
  cases hstep with
  | authenticated st env arrival =>
    intro q hq
    rcases List.mem_append.mp hq with hq | hq
    · exact Nat.lt_succ_of_lt (hs q hq)
    · rw [List.mem_singleton.mp hq]
      exact Nat.lt_succ_self _
  | handled st env p s hpending => exact fun q hq => hs q (List.mem_of_mem_filter hq)
  | restarted env s store h => exact List.forall_mem_nil _

/-- A credential is gone: no node has it, and what arrives under it from a ticket on is bound for an
arm that is open to everyone. -/
structure Gone (credential : String) (since : ℕ) (s : System) : Prop where
  nodes : ∀ node ∈ s.store.nodes, node.credential ≠ credential
  pending : ∀ q ∈ s.pending, since ≤ q.ticket → q.arrival.presented = credential → q.arm.IsPublic

/-- A step that does not draw a gone credential leaves it gone. -/
theorem Gone.step {credential : String} {since k : ℕ} {drawing : Env} {actions : List Action}
    {s t : System} {action : Action} (h : Gone credential since s) (hstep : Acts s action t)
    (hcredentials : Credentials actions s.store)
    (hdrawn : randomToken drawing k = some credential) (hfresh : ¬action.Draws credential)
    (hadmin : ∀ st env q, action = .authenticated st env q → st.admin_token ≠ credential) :
    Gone credential since t := by
  cases hstep with
  | authenticated st env arrival =>
    refine ⟨h.nodes, fun q hq hsince hpresented => ?_⟩
    rcases List.mem_append.mp hq with hq | hq
    · exact h.pending q hq hsince hpresented
    · rw [List.mem_singleton.mp hq] at hpresented ⊢
      exact Arrival.isPublic_arm hdrawn hpresented (hadmin st env _ rfl) h.nodes
  | handled st env p s hpending =>
    refine ⟨fun node' hnode' => ?_, fun q hq => h.pending q (List.mem_of_mem_filter hq)⟩
    rcases (p.arm.run_effect st env s.store).credential hnode' with
      ⟨node, hnode, -, hsame⟩ | ⟨-, hnew⟩
    · rw [← hsame]
      exact h.nodes node hnode
    · rintro rfl
      exact hfresh (.handled st env p _ 0 hnew)
  | restarted env s store hreload =>
    refine ⟨fun node' hnode' => ?_, List.forall_mem_nil _⟩
    rw [eq_reloadedStore hreload] at hnode'
    obtain ⟨node, hnode, rfl⟩ := List.mem_map.mp hnode'
    obtain ⟨earlier, -, hdraws⟩ := hcredentials.drawn node hnode
    obtain ⟨_, _, hold⟩ := hdraws.random
    rw [reloadedNode_credential env hold]
    exact h.nodes node hnode

/-- A rotation that answers 200 leaves no node with the old credential. -/
theorem Effect.rotation {st : State} {env : Env} {store new : Store} {id : String}
    {actor : Option String} {response : Response} {actions : List Action} {node : Node}
    (h : Effect st env store (.rotateNode id actor) response new) (hok : response.status = .ok)
    (hstore : WellFormed store) (hcredentials : Credentials actions store)
    (hnode : node ∈ store.nodes) (hid : node.id = id)
    (hfresh : ∀ token, randomToken env 0 = some token → token ≠ node.credential) :
    ∀ node' ∈ new.nodes, node'.credential ≠ node.credential := by
  have hnew := h.wellFormed hstore
  intro node' hnode' hsame
  rcases h.credential hnode' with ⟨old, hold, hold_id, hold_credential⟩ | ⟨-, hdrawn⟩
  · -- Only the rotated node had the old credential, and it has a new one.
    have hnode_id : node'.id = id := by
      rw [← hold_id, hcredentials.owner old hold node hnode (hold_credential.trans hsame), hid]
    cases h with
    | unchanged _ _ hread =>
      rw [hok] at hread
      exact absurd (hread (by decide)) Bool.false_ne_true
    | nodeRotated id actor found credential hdrawn hfound hlive =>
      have hindex := (List.getElem?_eq_some_iff.mp (getElem?_findIdx hfound)).1
      have hmem : { found with credential := credential } ∈
          setFirst (fun node => node.id == id) { found with credential := credential }
            store.nodes := List.mem_of_getElem? (List.getElem?_set_self hindex)
      have hfound_id : found.id = id := by simpa using List.find?_some hfound
      obtain rfl := List.inj_on_of_nodup_map hnew.distinct hnode' hmem
        (hnode_id.trans hfound_id.symm)
      exact hfresh credential hdrawn hsame
  · exact hfresh _ hdrawn hsame

/-- **Rotation takes effect.** After a rotation of a node has answered 200, a request that presents
the old credential and is authenticated from then on redeems a grant, or changes nothing and is
handed no task. -/
theorem rotated_credential_refused {past later : List Action} {before rotated now next : System}
    {st st' : State} {env env' : Env} {p q : Pending} {response response' : Response}
    {id : String} {actor : Option String} {node : Node}
    (hpast : Run Acts System.init past before)
    (hrotate : Acts before (.handled st env p response) rotated)
    (harm : p.arm = .rotateNode id actor) (hok : response.status = .ok)
    (hnode : node ∈ before.store.nodes) (hid : node.id = id)
    (hlater : Run Acts rotated later now)
    (hfresh : NeverRedrawn (past ++ [.handled st env p response] ++ later))
    (hadmin : ∀ st env q, .authenticated st env q ∈ later → st.admin_token ≠ node.credential)
    (hstep : Acts now (.handled st' env' q response') next)
    (hticket : rotated.arrivals ≤ q.ticket)
    (hpresented : q.arrival.presented = node.credential) :
    (∃ body, q.arm = .redeemGrant body) ∨
      next.store = now.store ∧ response'.reply.shownTasks = [] := by
  have hrotated := hpast.trans (.single hrotate)
  obtain ⟨hfront, -, hapart⟩ := List.pairwise_append.mp hfresh
  obtain ⟨hfresh_past, -, hapart_rotation⟩ := List.pairwise_append.mp hfront
  have hcredentials := Credentials.of_run hpast hfresh_past
  obtain ⟨earlier, hearlier, hdraws⟩ := hcredentials.drawn node hnode
  obtain ⟨drawing, k, hdrawn⟩ := hdraws.random
  -- By induction over what comes later: no node has the credential, and no request that arrived
  -- after the rotation was let in with it.
  have hgone : Gone node.credential rotated.arrivals now := by
    clear hstep hticket hpresented
    induction hlater with
    | start =>
      have heffect := hrotate.effect
      rw [harm] at heffect
      refine ⟨heffect.rotation hok (Acts.reachable hpast).wellFormed hcredentials hnode hid ?_,
        fun q hq hsince => ?_⟩
      · rintro token htoken rfl
        exact hapart_rotation earlier hearlier _ (List.mem_singleton_self _) _ hdraws
          (.handled st env p response 0 htoken)
      · exact absurd (Acts.tickets hrotated q hq) (by omega)
    | snoc later s t action hrun hstep ih =>
      rw [← List.append_assoc] at hfresh
      have hfresh_later := (List.pairwise_append.mp hfresh).1
      refine Gone.step (ih hfresh_later (fun st env q hq => hadmin st env q
        (List.mem_append_left _ hq)) (List.pairwise_append.mp hfresh_later).2.2) hstep
        (Credentials.of_run (hrotated.trans hrun) hfresh_later) hdrawn ?_ ?_
      · exact hapart earlier (List.mem_append_left _ hearlier) action
          (List.mem_append_right _ (List.mem_singleton_self _)) _ hdraws
      · rintro st env q rfl
        exact hadmin st env q (List.mem_append_right _ (List.mem_singleton_self _))
  cases hstep with
  | handled st env q s hpending =>
    exact (hgone.pending q hpending hticket hpresented).run _ _ _

end Gone

/-! ## A request in flight -/

/-- The value that a step draws first. -/
def Action.firstDraw : Action → Option String
  | authenticated _ _ _ => none
  | handled _ env _ _ => randomToken env 0
  | restarted _ => none

/-- Steps that draw at most one value each, and no two the same. -/
theorem neverRedrawn_of_firstDraw {actions : List Action}
    (hone : ∀ action ∈ actions, ∀ token, action.Draws token → action.firstDraw = some token)
    (hnodup : (actions.filterMap Action.firstDraw).Nodup) : NeverRedrawn actions := by
  induction actions with
  | nil => exact .nil
  | cons action rest ih =>
    rw [List.forall_mem_cons] at hone
    rw [List.filterMap_cons] at hnodup
    refine .cons (fun later hlater token hdraws hdraws' => ?_) (ih hone.2 ?_)
    · rw [hone.1 token hdraws] at hnodup
      exact (List.nodup_cons.mp hnodup).1
        (List.mem_filterMap.mpr ⟨later, hlater, hone.2 later hlater token hdraws'⟩)
    · cases hfirst : action.firstDraw with
      | none => rwa [hfirst] at hnodup
      | some token =>
        rw [hfirst] at hnodup
        exact (List.nodup_cons.mp hnodup).2

/-- A step in surroundings with one random value draws that value first. -/
theorem firstDraw_drawingEnv {st : State} {value : UInt8} {p : Pending} {response : Response}
    {token : String} (h : (Action.handled st (drawingEnv value) p response).Draws token) :
    (Action.handled st (drawingEnv value) p response).firstDraw = some token := by
  obtain ⟨_, _, _, _, k, hdrawn⟩ := h
  obtain ⟨rfl, -⟩ := randomToken_drawingEnv hdrawn
  exact hdrawn

section Example

attribute [local instance] exampleParser noKeys

/-- The administrator's request that rotates the credential. -/
def rotationRequest : Arrival := .request "POST" "/v1/nodes/n1/rotate" "" "root"

/-- A poll of `n1` is authenticated, and then the administrator's rotation. -/
def polling : System :=
  (busy.authenticate exampleState (drawingEnv 3) pollRequest).authenticate exampleState
    (drawingEnv 3) rotationRequest

/-- The rotation as it waits. -/
def waitingRotation : Pending :=
  (busy.authenticate exampleState (drawingEnv 3) pollRequest).ticketed exampleState (drawingEnv 3)
    rotationRequest

/-- The rotation is handled. -/
def rotatedSystem : System := polling.handle exampleState (drawingEnv 3) waitingRotation

/-- The rotation waits behind the poll. -/
theorem run_polling : ∃ past, Run Acts System.init past polling ∧
    ∀ rotation : Response, NeverRedrawn
      (past ++ [.handled exampleState (drawingEnv 3) waitingRotation rotation]) := by
  obtain ⟨r₁, r₂, hbusy⟩ := run_busy
  refine ⟨_, .snoc _ _ _ _ hbusy
    (.authenticated exampleState (drawingEnv 3) rotationRequest _), fun rotation => ?_⟩
  have hdrawn (value : UInt8) : randomToken (drawingEnv value) 0 =
      some (hexEncodeBytes (List.replicate 24 value)) := rfl
  refine neverRedrawn_of_firstDraw ?_ ?_
  · simp only [List.cons_append, List.nil_append, List.forall_mem_cons, List.not_mem_nil,
      false_imp_iff, implies_true, and_true]
    refine ⟨nofun, fun _ => firstDraw_drawingEnv, nofun, fun _ => firstDraw_drawingEnv, nofun, nofun,
      fun _ => firstDraw_drawingEnv⟩
  · simp only [List.cons_append, List.nil_append, List.filterMap_cons, List.filterMap_nil,
      Action.firstDraw, hdrawn]
    decide

/-- The rotation is handled and answers 200, and its arm is the rotation of `n1`. -/
theorem rotation_polling :
    Acts polling (.handled exampleState (drawingEnv 3) waitingRotation
        (waitingRotation.arm.run exampleState (drawingEnv 3) polling.store).1) rotatedSystem ∧
      waitingRotation.arm = .rotateNode "n1" (some "admin") ∧
      (waitingRotation.arm.run exampleState (drawingEnv 3) polling.store).1.status = .ok :=
  ⟨.handled exampleState (drawingEnv 3) waitingRotation polling
    (List.mem_append_right _ (List.mem_singleton_self _)), by rfl, by decide +kernel⟩

/-- The node `n1` before the rotation. -/
theorem node_polling : ∃ node ∈ polling.store.nodes, node.id = "n1" ∧
    node.credential = oldCredential := by decide +kernel

/-- A poll under the old credential that arrives after the rotation. -/
theorem rotated_credential_refused_poll :
    ((rotatedSystem.authenticate exampleState (drawingEnv 4) pollRequest).handle exampleState
      (drawingEnv 4) (rotatedSystem.ticketed exampleState (drawingEnv 4) pollRequest)).store =
      rotatedSystem.store := by
  obtain ⟨past, hpast, hfresh⟩ := run_polling
  obtain ⟨hrotate, harm, hok⟩ := rotation_polling
  obtain ⟨node, hnode, hid, hcredential⟩ := node_polling
  have hlater : Run Acts rotatedSystem _ _ :=
    .single (.authenticated exampleState (drawingEnv 4) pollRequest rotatedSystem)
  have hstep := Acts.handled exampleState (drawingEnv 4)
    (rotatedSystem.ticketed exampleState (drawingEnv 4) pollRequest)
    (rotatedSystem.authenticate exampleState (drawingEnv 4) pollRequest)
    (List.mem_append_right rotatedSystem.pending (List.mem_singleton_self _))
  have hfresh' : NeverRedrawn (past ++ [.handled exampleState (drawingEnv 3) waitingRotation
      (waitingRotation.arm.run exampleState (drawingEnv 3) polling.store).1] ++
      [.authenticated exampleState (drawingEnv 4)
        (rotatedSystem.ticketed exampleState (drawingEnv 4) pollRequest)]) := by
    refine List.pairwise_append.mpr ⟨hfresh _, List.pairwise_singleton _ _, ?_⟩
    intro action _ later hlater token _
    rw [List.mem_singleton.mp hlater]
    exact nofun
  have hadmin : exampleState.admin_token ≠ node.credential := by
    rw [hcredential]
    decide
  rcases rotated_credential_refused hpast hrotate harm hok hnode hid hlater hfresh'
      (fun st env q hq => by cases List.mem_singleton.mp hq; exact hadmin) hstep le_rfl
      hcredential.symm with ⟨body, hredeem⟩ | ⟨hstore, -⟩
  · have hpoll : (rotatedSystem.ticketed exampleState (drawingEnv 4) pollRequest).arm =
        .respond (failure .unauthorized "unauthenticated") := by rfl
    rw [hpoll] at hredeem
    cases hredeem
  · exact hstore

/-- A poll that was authenticated before the rotation is handed the task after it. -/
theorem rotated_credential_served :
    ¬ ∀ (past later : List Action) (before rotated now next : System) (st st' : State)
        (env env' : Env) (p q : Pending) (response response' : Response) (id : String)
        (actor : Option String) (node : Node),
        Run Acts System.init past before →
        Acts before (.handled st env p response) rotated →
        p.arm = .rotateNode id actor → response.status = .ok →
        node ∈ before.store.nodes → node.id = id → Run Acts rotated later now →
        NeverRedrawn (past ++ [.handled st env p response] ++ later) →
        Acts now (.handled st' env' q response') next →
        q.arrival.presented = node.credential →
        next.store = now.store ∧ response'.reply.shownTasks = [] := by
  intro h
  obtain ⟨past, hpast, hfresh⟩ := run_polling
  obtain ⟨hrotate, harm, hok⟩ := rotation_polling
  obtain ⟨node, hnode, hid, hcredential⟩ := node_polling
  have hpending : busy.ticketed exampleState (drawingEnv 3) pollRequest ∈ rotatedSystem.pending :=
    List.mem_filter.mpr ⟨List.mem_append_left _ (List.mem_append_right _
      (List.mem_singleton_self _)), by decide⟩
  have hshown := (h past [] polling rotatedSystem rotatedSystem _ exampleState exampleState
    (drawingEnv 3) (drawingEnv 4) waitingRotation _ _ _ "n1" (some "admin") node hpast hrotate
    harm hok hnode hid .start (by rw [List.append_nil]; exact hfresh _)
    (.handled exampleState (drawingEnv 4) _ rotatedSystem hpending) hcredential.symm).2
  have hlength : ((busy.ticketed exampleState (drawingEnv 3) pollRequest).arm.run exampleState
      (drawingEnv 4) rotatedSystem.store).1.reply.shownTasks.length = 1 := by decide +kernel
  rw [hshown] at hlength
  exact absurd hlength (by decide)

end Example

end NodeWe.ControlPlane
