import NodeWe.ControlPlane.Fencing
import NodeWe.ControlPlane.Durability

/-!
# Control planes on one database

A control plane with the PostgreSQL backend reads the row of `nodewe_state` once, when it starts, and
then writes its whole in-memory store into it with every request that changes the store. The lock
that keeps a second writer away is a file in the data directory, which each process has for itself.
So a process may overwrite what another one has acknowledged (`update_lost`). No update is lost as
long as every process that writes has started after all writes of the others (`no_lost_update`).
-/

namespace NodeWe.ControlPlane

open Text InPlace Transition

/-! ## The database -/

/-- `load_postgres_store`, on the snapshot in the row of `nodewe_state`, where there is one. -/
def loadPostgresStore [Aead] [Serde] (store_key : Option (Vector UInt8 32)) (env : Env)
    (row : Option (List UInt8)) : Option Store :=
  match row with
  | none => some .empty
  | some snapshot =>
    (decodeStoreBytes store_key snapshot).bind fun plaintext =>
      (String.fromUTF8? ⟨plaintext.toArray⟩).bind fun text =>
        match parseSnapshot env text with
        | .ok store => store
        | .error _ => none

/-- The snapshot that `PostgresBackend::persist` writes. -/
def postgresSnapshot [Aead] (store_key : Option (Vector UInt8 32)) (nonce : Vector UInt8 nonceLen)
    (store : Store) : List UInt8 :=
  encodeStoreBytes store_key nonce (bytes (snapshotText store))

/-- The snapshot of a store that is sealed under one key opens under another as what it was, or not
at all. -/
def OpensOnly [Aead] (key key' : Vector UInt8 32) (nonce : Vector UInt8 nonceLen) (store : Store) :
    Prop :=
  ∀ opened, Aead.opened key' nonce.toList
    (Aead.sealed key nonce.toList (bytes (snapshotText store))) = some opened →
      opened = bytes (snapshotText store)

/-- The row of `nodewe_state`, and the in-memory store of each process that has started. -/
structure Cluster (π : Type) where
  row : Option (List UInt8)
  memory : π → Option Store

/-- A process starts, or handles a request. -/
inductive Deed (π : Type)
  | started (p : π) (env : Env)
  | handled (p : π) (nonce : Vector UInt8 nonceLen) (m : Moment)

/-- The event that the store of the process goes through. -/
def Deed.event [Serde] [Ed25519] {π : Type} : Deed π → Event
  | started _ env => .reloaded env
  | handled _ _ m => .handled m.st m.env m.arm m.response

section Cluster

variable [Aead] [Serde] [Ed25519]

/-- A request writes its store into the row: it changes the store and is acknowledged, which it is
only where the backend has persisted the change. -/
def Moment.Writes (m : Moment) : Prop :=
  m.response.status.isSuccess = true ∧ m.after ≠ m.before

instance (m : Moment) : Decidable m.Writes := inferInstanceAs (Decidable (_ ∧ _))

variable {π : Type} [DecidableEq π] (store_key : π → Option (Vector UInt8 32))

/-- What happens to the database and the processes. Requests to one process take its lock one after
the other, and the row is written in one transaction. -/
inductive Shares : Cluster π → Deed π → Cluster π → Prop
  | started (c : Cluster π) (p : π) (env : Env) (store : Store)
      (hload : loadPostgresStore (store_key p) env c.row = some store) :
      Shares c (.started p env) { c with memory := Function.update c.memory p (some store) }
  | handled (c : Cluster π) (p : π) (nonce : Vector UInt8 nonceLen) (m : Moment)
      (hmemory : c.memory p = some m.before) :
      Shares c (.handled p nonce m)
        { row := if m.Writes then some (postgresSnapshot (store_key p) nonce m.after) else c.row
          memory := Function.update c.memory p (some m.after) }

/-- What the program relies on the cipher for as authenticated encryption: what a process writes
under its key opens for each process, which tries its own key, as what it was, or not at all. -/
def AuthenticAead (deeds : List (Deed π)) : Prop :=
  ∀ p nonce m q, .handled p nonce m ∈ deeds → m.Writes →
    ∀ key ∈ store_key p, ∀ key' ∈ store_key q, OpensOnly key key' nonce m.after

/-! ## What must not be lost -/

/-- The row has the snapshot of a store. -/
def Holds (c : Cluster π) (store : Store) : Prop :=
  ∃ p nonce, c.row = some (postgresSnapshot (store_key p) nonce store)

/-- Some of the later deeds, in order, lead from one store to another. -/
def Leads (store : Store) (later : List (Deed π)) (store' : Store) : Prop :=
  ∃ events, events.Sublist (later.map Deed.event) ∧ Run Happens store events store'

/-- No acknowledged change is lost: the row has the snapshot of what later deeds made of the store
that the request left behind. -/
def NoLostUpdate (deeds : List (Deed π)) (c : Cluster π) : Prop :=
  ∀ past p nonce m later, deeds = past ++ .handled p nonce m :: later → m.Writes →
    ∃ store, Leads m.after later store ∧ Holds store_key c store

omit [Aead] [DecidableEq π] in
/-- Only one process has written since it started. -/
def WritesAlone (deeds : List (Deed π)) (p : π) : Prop :=
  ∃ past env since, deeds = past ++ .started p env :: since ∧
    ∀ q nonce m, .handled q nonce m ∈ since → m.Writes → q = p

/-- Every process that writes has started after all writes of the others. -/
def WritersApart (deeds : List (Deed π)) : Prop :=
  ∀ past p nonce m later, deeds = past ++ .handled p nonce m :: later → m.Writes →
    WritesAlone past p

/-! ## Reading the row -/

omit [Serde] [Ed25519] in
/-- Whatever a stored snapshot decodes to is the text of the store. -/
theorem decode_postgresSnapshot {key key' : Option (Vector UInt8 32)}
    {nonce : Vector UInt8 nonceLen} {store : Store} {plaintext : List UInt8}
    (hauthentic : ∀ k ∈ key, ∀ k' ∈ key', OpensOnly k k' nonce store)
    (h : decodeStoreBytes key' (postgresSnapshot key nonce store) = some plaintext) :
    plaintext = bytes (snapshotText store) := by
  have hlegible : storeMagic.isPrefixOf (bytes (snapshotText store)) = false :=
    (legible_snapshot none store).resolve_left (by decide)
  unfold decodeStoreBytes postgresSnapshot encodeStoreBytes at h
  cases key with
  | none =>
    dsimp only at h
    rw [hlegible, if_neg Bool.false_ne_true] at h
    exact (Option.some.inj h).symm
  | some key =>
    dsimp only at h
    have hmagic : storeMagic.isPrefixOf (encryptStore (bytes (snapshotText store)) key nonce) =
        true := by
      rw [List.isPrefixOf_iff_prefix, encryptStore, List.append_assoc]
      exact List.prefix_append _ _
    rw [if_pos hmagic] at h
    obtain ⟨other, hother, hopened⟩ := Option.bind_eq_some_iff.mp h
    rw [decryptStore_sealed] at hopened
    exact hauthentic key rfl other hother plaintext hopened

omit [Ed25519] in
/-- A process that starts from a stored snapshot reads the store back. -/
theorem parse_of_load {key key' : Option (Vector UInt8 32)}
    {nonce : Vector UInt8 nonceLen} {env : Env} {store loaded : Store}
    (hauthentic : ∀ k ∈ key, ∀ k' ∈ key', OpensOnly k k' nonce store)
    (h : loadPostgresStore key' env (some (postgresSnapshot key nonce store)) = some loaded) :
    parseSnapshot env (snapshotText store) = .ok (some loaded) := by
  unfold loadPostgresStore at h
  dsimp only at h
  obtain ⟨plaintext, hdecoded, htext⟩ := Option.bind_eq_some_iff.mp h
  rw [decode_postgresSnapshot hauthentic hdecoded] at htext
  obtain ⟨text, hread, hparsed⟩ := Option.bind_eq_some_iff.mp htext
  rw [fromUTF8_bytes, Option.some.injEq] at hread
  rw [← hread] at hparsed
  split at hparsed
  · next parsed hok => rw [hok, hparsed]
  · cases hparsed

omit [Ed25519] in
/-- A process that starts reads back what was written under its key. -/
theorem loadPostgresStore_snapshot [Rfc8259] [LawfulAead] (key : Option (Vector UInt8 32))
    (nonce : Vector UInt8 nonceLen) (env : Env) {store : Store} (h : TimesFit store.audit) :
    loadPostgresStore key env (some (postgresSnapshot key nonce store)) =
      some (reloadedStore env store) := by
  have hread := @readStoreText_written _ key (fun _ => some (postgresSnapshot key nonce store))
    "store.snapshot" _ nonce (snapshotText store) rfl
  rw [if_pos (legible_snapshot key store), readStoreText, Option.bind_some] at hread
  obtain ⟨plaintext, hdecoded, htext⟩ := Option.bind_eq_some_iff.mp hread
  unfold loadPostgresStore
  dsimp only
  rw [hdecoded, Option.bind_some, htext, Option.bind_some, parseSnapshot_fits env h]

/-! ## Leading from one store to another -/

omit [Aead] [DecidableEq π] in
/-- What later deeds lead to, deeds after these lead on. -/
theorem Leads.trans {a b c : Store} {first second : List (Deed π)} (h : Leads a first b)
    (h' : Leads b second c) : Leads a (first ++ second) c := by
  obtain ⟨events, hsub, hrun⟩ := h
  obtain ⟨events', hsub', hrun'⟩ := h'
  refine ⟨events ++ events', ?_, hrun.trans hrun'⟩
  rw [List.map_append]
  exact hsub.append hsub'

omit [Aead] [DecidableEq π] in
/-- One deed leads to what its event leads to. -/
theorem Leads.single {a b : Store} {deed : Deed π} (h : Happens a deed.event b) :
    Leads a [deed] b :=
  ⟨[deed.event], List.Sublist.refl _, .single h⟩

omit [Aead] [DecidableEq π] in
/-- A deed that is passed over leads nowhere. -/
theorem Leads.skip {a b : Store} {deeds : List (Deed π)} (h : Leads a deeds b) (deed : Deed π) :
    Leads a (deeds ++ [deed]) b := by
  obtain ⟨events, hsub, hrun⟩ := h
  refine ⟨events, ?_, hrun⟩
  rw [List.map_append]
  exact hsub.trans (List.sublist_append_left _ _)

omit [Aead] [DecidableEq π] in
/-- A store leads to itself. -/
theorem Leads.refl (a : Store) (deeds : List (Deed π)) : Leads a deeds a :=
  ⟨[], List.nil_sublist _, .start⟩

omit [Aead] in
/-- A request leads from the store that it finds to the one that it leaves behind. -/
theorem Moment.happens (m : Moment) :
    Happens m.before (.handled m.st m.env m.arm m.response) m.after :=
  .handled _ _ _ (.handled m.st m.env m.arm m.before)

omit [Aead] [DecidableEq π] in
/-- A process that writes alone after one more deed wrote alone before it, unless it just started,
and the deed is no write of another process. -/
theorem WritesAlone.of_snoc {deeds : List (Deed π)} {deed : Deed π} {p : π}
    (h : WritesAlone (deeds ++ [deed]) p) :
    (∃ env, deed = .started p env) ∨ WritesAlone deeds p ∧
      ∀ q nonce m, deed = .handled q nonce m → m.Writes → q = p := by
  obtain ⟨past, env, since, hsplit, halone⟩ := h
  rcases snoc_split hsplit with ⟨-, hstarted, -⟩ | ⟨since', hsince, hdeeds⟩
  · exact .inl ⟨env, hstarted⟩
  · rw [hsince] at halone
    refine .inr ⟨⟨past, env, since', hdeeds, fun q nonce m hmem => ?_⟩, fun q nonce m hdeed => ?_⟩
    · exact halone q nonce m (List.mem_append_left _ hmem)
    · exact halone q nonce m (List.mem_append_right _ (List.mem_singleton.mpr hdeed.symm))

/-! ## The invariant -/

/-- The row has the snapshot of a store since the last write: every write before leads to that store,
and from it the deeds since lead to the memory of each process that writes alone. -/
structure Linked (upto since : List (Deed π)) (c : Cluster π) (stored : Store) : Prop where
  written : ∃ p nonce m, .handled p nonce m ∈ upto ∧ m.Writes ∧ m.after = stored ∧
    c.row = some (postgresSnapshot (store_key p) nonce stored)
  kept : ∀ past p nonce m later, upto = past ++ .handled p nonce m :: later → m.Writes →
    Leads m.after later stored
  current : ∀ p, WritesAlone (upto ++ since) p → ∀ store, c.memory p = some store →
    Leads stored since store

/-- What a run has come to: nothing is written yet, or the row is linked to what was. -/
def Traced (deeds : List (Deed π)) (c : Cluster π) : Prop :=
  ∃ upto since, deeds = upto ++ since ∧
    (∀ p nonce m, .handled p nonce m ∈ since → ¬m.Writes) ∧
    (upto = [] ∨ ∃ stored, Linked store_key upto since c stored)

/-! ## One deed -/

variable {store_key} {upto since deeds : List (Deed π)} {c : Cluster π} {stored : Store} {p : π}
  {nonce : Vector UInt8 nonceLen} {m : Moment}

omit [DecidableEq π] in
/-- The row has what is stored. -/
theorem Linked.holds (h : Linked store_key upto since c stored) : Holds store_key c stored := by
  obtain ⟨p, nonce, -, -, -, -, hrow⟩ := h.written
  exact ⟨p, nonce, hrow⟩

/-- A process that starts reads what is stored. -/
theorem Linked.started {env : Env} {loaded : Store} (h : Linked store_key upto since c stored)
    (hauthentic : AuthenticAead store_key (upto ++ since))
    (hload : loadPostgresStore (store_key p) env c.row = some loaded) :
    Linked store_key upto (since ++ [.started p env])
      { c with memory := Function.update c.memory p (some loaded) } stored where
  written := h.written
  kept := h.kept
  current := by
    intro q hq store hmemory
    have hmemory : Function.update c.memory p (some loaded) q = some store := hmemory
    rw [← List.append_assoc] at hq
    by_cases hqp : q = p
    · rw [hqp, Function.update_self, Option.some.injEq] at hmemory
      obtain ⟨writer, nonce, m, hmem, hwrites, hafter, hrow⟩ := h.written
      have hopens := hauthentic writer nonce m p (List.mem_append_left _ hmem) hwrites
      rw [hafter] at hopens
      rw [hrow] at hload
      have hread := Happens.reloaded _ _ _ (parse_of_load hopens hload)
      rw [← hmemory]
      exact (Leads.refl stored since).trans (.single hread)
    · rw [Function.update_of_ne hqp] at hmemory
      rcases hq.of_snoc with ⟨env', hstarted⟩ | ⟨halone, -⟩
      · cases hstarted
        exact absurd rfl hqp
      · exact (h.current q halone store hmemory).skip _

/-- A request that does not write leaves the row as it is. -/
theorem Linked.handled (h : Linked store_key upto since c stored)
    (hmemory : c.memory p = some m.before) :
    Linked store_key upto (since ++ [.handled p nonce m])
      { c with memory := Function.update c.memory p (some m.after) } stored where
  written := h.written
  kept := h.kept
  current := by
    intro q hq store hstore
    have hstore : Function.update c.memory p (some m.after) q = some store := hstore
    rw [← List.append_assoc] at hq
    rcases hq.of_snoc with ⟨env', hstarted⟩ | ⟨halone, -⟩
    · cases hstarted
    · by_cases hqp : q = p
      · rw [hqp] at halone
        rw [hqp, Function.update_self, Option.some.injEq] at hstore
        have hbefore := h.current p halone m.before hmemory
        have hstep : Leads m.before [.handled p nonce m] m.after := .single m.happens
        rw [← hstore]
        exact hbefore.trans hstep
      · rw [Function.update_of_ne hqp] at hstore
        exact (h.current q halone store hstore).skip _

/-- A request that writes keeps what was written before, where its process writes alone. -/
theorem Traced.writes (h : Traced store_key deeds c) (nonce : Vector UInt8 nonceLen)
    (halone : WritesAlone deeds p) (hmemory : c.memory p = some m.before) (hwrites : m.Writes) :
    Linked store_key (deeds ++ [.handled p nonce m]) []
      { row := some (postgresSnapshot (store_key p) nonce m.after)
        memory := Function.update c.memory p (some m.after) } m.after where
  written := ⟨p, nonce, m, List.mem_append_right _ List.mem_cons_self, hwrites, rfl, rfl⟩
  kept := by
    intro past q nonce' m' later hsplit hwrites'
    obtain ⟨upto, since, hdeeds, hquiet, hlinked⟩ := h
    rcases snoc_split hsplit with ⟨-, hlast, hlater⟩ | ⟨later', hlater, hearlier⟩
    · cases hlast
      exact Leads.refl m.after later
    · -- The write is before what happened since the last one.
      rw [hdeeds] at hearlier
      obtain ⟨later'', hlater', hupto⟩ :=
        append_split hearlier fun hmem => hquiet q nonce' m' hmem hwrites'
      rcases hlinked with hempty | ⟨stored, hlinked⟩
      · rw [hempty] at hupto
        exact absurd hupto.symm (by simp)
      · rw [hdeeds] at halone
        have hkept := hlinked.kept past q nonce' m' later'' hupto hwrites'
        have hbefore := hlinked.current p halone m.before hmemory
        have hstep : Leads m.before [.handled p nonce m] m.after := .single m.happens
        rw [hlater, hlater']
        exact (hkept.trans hbefore).trans hstep
  current := by
    intro q hq store hstore
    have hstore : Function.update c.memory p (some m.after) q = some store := hstore
    rw [List.append_nil] at hq
    rcases hq.of_snoc with ⟨env', hstarted⟩ | ⟨-, hothers⟩
    · cases hstarted
    · have hqp : p = q := hothers p nonce m rfl hwrites
      rw [← hqp, Function.update_self, Option.some.injEq] at hstore
      rw [← hstore]
      exact Leads.refl m.after []

/-- What a run has come to, a deed keeps. -/
theorem Traced.step {c' : Cluster π} {deed : Deed π} (h : Traced store_key deeds c)
    (hauthentic : AuthenticAead store_key deeds) (hstep : Shares store_key c deed c')
    (halone : ∀ p nonce m, deed = .handled p nonce m → m.Writes → WritesAlone deeds p) :
    Traced store_key (deeds ++ [deed]) c' := by
  cases hstep with
  | started p env store hload =>
    obtain ⟨upto, since, hdeeds, hquiet, hlinked⟩ := h
    refine ⟨upto, since ++ [.started p env], ?_, fun q nonce m hmem => ?_, ?_⟩
    · rw [hdeeds, List.append_assoc]
    · rcases List.mem_append.mp hmem with hold | hnew
      · exact hquiet q nonce m hold
      · cases List.mem_singleton.mp hnew
    · rw [hdeeds] at hauthentic
      exact hlinked.imp_right fun ⟨stored, hstored⟩ => ⟨stored, hstored.started hauthentic hload⟩
  | handled p nonce m hmemory =>
    by_cases hwrites : m.Writes
    · rw [if_pos hwrites]
      have hlinked := Traced.writes h nonce (halone p nonce m rfl hwrites) hmemory hwrites
      refine ⟨_, [], (List.append_nil _).symm, fun q nonce m hmem => ?_, .inr ⟨m.after, hlinked⟩⟩
      cases hmem
    · rw [if_neg hwrites]
      obtain ⟨upto, since, hdeeds, hquiet, hlinked⟩ := h
      refine ⟨upto, since ++ [.handled p nonce m], ?_, fun q nonce' m' hmem => ?_, ?_⟩
      · rw [hdeeds, List.append_assoc]
      · rcases List.mem_append.mp hmem with hold | hnew
        · exact hquiet q nonce' m' hold
        · cases List.mem_singleton.mp hnew
          exact hwrites
      · exact hlinked.imp_right fun ⟨stored, hstored⟩ => ⟨stored, hstored.handled hmemory⟩

/-! ## Runs -/

/-- Processes that have not started. -/
def idleCluster (π : Type) (row : Option (List UInt8)) : Cluster π := ⟨row, fun _ => none⟩

omit [Aead] [DecidableEq π] in
/-- Writers that are apart in a run are apart in its beginning. -/
theorem WritersApart.of_snoc {deed : Deed π} (h : WritersApart (deeds ++ [deed])) :
    WritersApart deeds := by
  intro past p nonce m later hsplit hwrites
  refine h past p nonce m (later ++ [deed]) ?_ hwrites
  rw [hsplit, List.append_assoc, List.cons_append]

omit [DecidableEq π] in
/-- What opens as it was in a run does so in its beginning. -/
theorem AuthenticAead.of_snoc {deed : Deed π} (h : AuthenticAead store_key (deeds ++ [deed])) :
    AuthenticAead store_key deeds :=
  fun p nonce m q hmem => h p nonce m q (List.mem_append_left _ hmem)

/-- Every run whose writers are apart is traced. -/
theorem Traced.of_run {row : Option (List UInt8)}
    (hrun : Run (Shares store_key) (idleCluster π row) deeds c)
    (hauthentic : AuthenticAead store_key deeds) (hapart : WritersApart deeds) :
    Traced store_key deeds c := by
  refine hrun.history (P := fun deeds c => AuthenticAead store_key deeds → WritersApart deeds →
    Traced store_key deeds c) ?_ ?_ hauthentic hapart
  · exact fun _ _ => ⟨[], [], rfl, fun p nonce m hmem => absurd hmem List.not_mem_nil, .inl rfl⟩
  · intro deeds c deed c' ih hstep hauthentic hapart
    refine (ih hauthentic.of_snoc hapart.of_snoc).step hauthentic.of_snoc hstep
      fun p nonce m hdeed hwrites => ?_
    exact hapart deeds p nonce m [] (by rw [hdeed]) hwrites

/-- **No update is lost as long as the writers are apart.** In every run of processes on one database
in which every process that writes has started after all writes of the others, the row has the
snapshot of what later deeds made of each acknowledged change. -/
theorem no_lost_update {row : Option (List UInt8)}
    (hrun : Run (Shares store_key) (idleCluster π row) deeds c)
    (hauthentic : AuthenticAead store_key deeds) (hapart : WritersApart deeds) :
    NoLostUpdate store_key deeds c := by
  intro past p nonce m later hsplit hwrites
  obtain ⟨upto, since, hdeeds, hquiet, hlinked⟩ := Traced.of_run hrun hauthentic hapart
  rw [hdeeds] at hsplit
  obtain ⟨later', hlater, hupto⟩ := append_split hsplit fun hmem => hquiet p nonce m hmem hwrites
  rcases hlinked with hempty | ⟨stored, hlinked⟩
  · rw [hempty] at hupto
    exact absurd hupto.symm (by simp)
  · refine ⟨stored, ?_, hlinked.holds⟩
    rw [hlater]
    exact (hlinked.kept past p nonce m later' hupto hwrites).trans (Leads.refl stored since)

end Cluster

/-! ## Two processes -/

section Nodes

variable [Serde] [Ed25519] {s t : Store} {events : List Event}

/-- A node keeps its place and its identifier. -/
theorem Happens.node_at {event : Event} (h : Happens s event t) {i : ℕ} {node : Node}
    (hnode : s.nodes[i]? = some node) (hid : validNodeId node.id = true) :
    ∃ node', t.nodes[i]? = some node' ∧ node'.id = node.id := by
  cases h with
  | handled _ _ _ h =>
    cases h with
    | handled st env arm =>
      obtain ⟨node', hnode', hstep⟩ := (arm.run_effect st env s).nodes_evolve i node hnode
      exact ⟨node', hnode', hstep.id⟩
  | reloaded env _ _ h =>
    rw [eq_reloadedStore h]
    refine ⟨reloadedNode env node, ?_, clean_of_valid hid⟩
    unfold reloadedStore
    dsimp only
    rw [List.getElem?_map, hnode, Option.map_some]

/-- A node keeps its place and its identifier over a run. -/
theorem node_at_of_run (hrun : Run Happens s events t) {i : ℕ} {node : Node}
    (hnode : s.nodes[i]? = some node) (hid : validNodeId node.id = true) :
    ∃ node', t.nodes[i]? = some node' ∧ node'.id = node.id := by
  refine hrun.invariant (P := fun t => ∃ node', t.nodes[i]? = some node' ∧ node'.id = node.id)
    ⟨node, hnode, rfl⟩ ?_
  rintro s event t ⟨node', hnode', hsame⟩ hstep
  obtain ⟨node'', hnode'', hsame'⟩ := hstep.node_at hnode' (by rwa [hsame])
  exact ⟨node'', hnode'', hsame'.trans hsame⟩

end Nodes

section Example

attribute [local instance] clearCipher lawful_clearCipher compactSerde rfc8259_compactSerde noKeys

/-- The enrolment of the node `n1` on an empty store. -/
def firstEnrolment : Moment := ⟨.empty, exampleState, exampleEnv 0, .createNode exampleBodies.1 none⟩

/-- The enrolment of the node `n2` on an empty store. -/
def secondEnrolment : Moment :=
  ⟨.empty, exampleState, exampleEnv 0, .createNode "\x7b\"node_id\":\"n2\"\x7d" none⟩

/-- A nonce. -/
def zeroNonce : Vector UInt8 nonceLen := Vector.replicate nonceLen 0

/-- Two processes without a key start on an empty database, and each enrols a node. -/
def raceDeeds : List (Deed Bool) :=
  [.started false (exampleEnv 0), .started true (exampleEnv 0),
    .handled false zeroNonce firstEnrolment, .handled true zeroNonce secondEnrolment]

/-- The database and the processes after that. -/
def raceCluster : Cluster Bool where
  row := some (postgresSnapshot none zeroNonce secondEnrolment.after)
  memory := fun p => some (if p then secondEnrolment.after else firstEnrolment.after)

/-- Both enrolments write. -/
theorem enrolments_write : firstEnrolment.Writes ∧ secondEnrolment.Writes := by
  decide +kernel

/-- The deeds are a run. -/
theorem run_race : Run (Shares fun _ => none) (idleCluster Bool none) raceDeeds raceCluster := by
  have hrun : Run (Shares fun _ => none) (idleCluster Bool none) [] (idleCluster Bool none) := .start
  have hfirst := hrun.snoc _ _ _ _ (.started _ false (exampleEnv 0) .empty rfl)
  have hsecond := hfirst.snoc _ _ _ _ (.started _ true (exampleEnv 0) .empty rfl)
  have hthird := hsecond.snoc _ _ _ _ (.handled _ false zeroNonce firstEnrolment rfl)
  have hfourth := hthird.snoc _ _ _ _ (.handled _ true zeroNonce secondEnrolment rfl)
  rw [if_pos enrolments_write.2] at hfourth
  have hmemory : raceCluster.memory = Function.update (Function.update (Function.update
      (Function.update (fun _ => none) false (some .empty)) true (some .empty)) false
      (some firstEnrolment.after)) true (some secondEnrolment.after) := by
    funext p
    cases p <;> rfl
  have hcluster : raceCluster = ⟨raceCluster.row, raceCluster.memory⟩ := rfl
  rw [hcluster, hmemory]
  exact hfourth

/-- **Two processes lose an update**: the enrolment of `n1` was acknowledged, and no later request
touches it, but the row has the node `n2` only. -/
theorem update_lost :
    Run (Shares fun _ => none) (idleCluster Bool none) raceDeeds raceCluster ∧
      ¬NoLostUpdate (fun _ => none) raceDeeds raceCluster := by
  refine ⟨run_race, fun hkept => ?_⟩
  obtain ⟨store, ⟨events, -, hrun⟩, writer, nonce, hrow⟩ :=
    hkept [.started false (exampleEnv 0), .started true (exampleEnv 0)] false zeroNonce
      firstEnrolment [.handled true zeroNonce secondEnrolment] rfl enrolments_write.1
  have htext : snapshotText secondEnrolment.after = snapshotText store :=
    bytes_inj.mp (Option.some.inj hrow)
  have htimes : TimesFit secondEnrolment.after.audit :=
    secondEnrolment.effect.timesFit (fun _ => Nat.zero_le _) (List.forall_mem_nil _)
  have hread := parseSnapshot_fits (exampleEnv 0) htimes
  -- What is read back has `n2` where the store that was led to has `n1`.
  have hfirst : (firstEnrolment.after.nodes[0]?).map Node.id = some "n1" := by decide +kernel
  have hsecond : (secondEnrolment.after.nodes[0]?).map Node.id = some "n2" := by decide +kernel
  obtain ⟨node, hnode, hid⟩ := Option.map_eq_some_iff.mp hfirst
  obtain ⟨other, hother, hotherid⟩ := Option.map_eq_some_iff.mp hsecond
  obtain ⟨kept, hkeptnode, hkeptid⟩ := node_at_of_run hrun hnode (by rw [hid]; decide)
  have hloaded := Happens.reloaded _ _ _ hread
  obtain ⟨loaded, hloadednode, hloadedid⟩ := hloaded.node_at hother (by rw [hotherid]; decide)
  rw [htext] at hread
  obtain ⟨same, hsame, hsameid⟩ := (Happens.reloaded _ _ _ hread).node_at hkeptnode
    (by rw [hkeptid, hid]; decide)
  rw [hloadednode, Option.some.injEq] at hsame
  rw [← hsame, hloadedid, hotherid, hkeptid, hid] at hsameid
  exact absurd hsameid (by decide)

/-- The second process starts after that, and enrols the node `n2` on what it has read. -/
def laterEnrolment : Moment :=
  ⟨reloadedStore (exampleEnv 0) firstEnrolment.after, exampleState, exampleEnv 0,
    .createNode "\x7b\"node_id\":\"n2\"\x7d" none⟩

/-- A store key. -/
def zeroKey : Bool → Option (Vector UInt8 32) := fun _ => some (Vector.replicate 32 0)

/-- Two processes with one key: the second one starts after the first one has enrolled a node, and
enrols another one. -/
def relayDeeds : List (Deed Bool) :=
  [.started false (exampleEnv 0), .handled false zeroNonce firstEnrolment,
    .started true (exampleEnv 0), .handled true zeroNonce laterEnrolment]

/-- The database and the processes after that. -/
def relayCluster : Cluster Bool where
  row := some (postgresSnapshot (zeroKey true) zeroNonce laterEnrolment.after)
  memory := Function.update (Function.update (Function.update (Function.update (fun _ => none) false
    (some .empty)) false (some firstEnrolment.after)) true (some laterEnrolment.before)) true
    (some laterEnrolment.after)

/-- The second one writes, too, on a store with `n1`. -/
theorem laterEnrolment_writes :
    laterEnrolment.Writes ∧ laterEnrolment.after.nodes.map Node.id = ["n1", "n2"] := by
  decide +kernel

/-- The deeds are a run. -/
theorem run_relay : Run (Shares zeroKey) (idleCluster Bool none) relayDeeds relayCluster := by
  have hrun : Run (Shares zeroKey) (idleCluster Bool none) [] (idleCluster Bool none) := .start
  have hfirst := hrun.snoc _ _ _ _ (.started _ false (exampleEnv 0) .empty rfl)
  have hsecond := hfirst.snoc _ _ _ _ (.handled _ false zeroNonce firstEnrolment rfl)
  rw [if_pos enrolments_write.1] at hsecond
  have htimes : TimesFit firstEnrolment.after.audit :=
    firstEnrolment.effect.timesFit (fun _ => Nat.zero_le _) (List.forall_mem_nil _)
  have hthird := hsecond.snoc _ _ _ _ (.started _ true (exampleEnv 0) _
    (loadPostgresStore_snapshot (zeroKey true) zeroNonce (exampleEnv 0) htimes))
  have hfourth := hthird.snoc _ _ _ _ (.handled _ true zeroNonce laterEnrolment rfl)
  rw [if_pos laterEnrolment_writes.1] at hfourth
  exact hfourth

/-- The second one starts after the write of the first one. -/
theorem apart_relay : WritersApart relayDeeds := by
  intro past p nonce m later hsplit hwrites
  unfold relayDeeds at hsplit
  rcases past with _ | ⟨_, _ | ⟨_, _ | ⟨_, _ | ⟨_, past⟩⟩⟩⟩
  · cases hsplit
  · cases hsplit
    exact ⟨[], exampleEnv 0, [], rfl, fun q nonce m hmem => absurd hmem List.not_mem_nil⟩
  · cases hsplit
  · cases hsplit
    exact ⟨relayDeeds.take 2, exampleEnv 0, [], rfl,
      fun q nonce m hmem => absurd hmem List.not_mem_nil⟩
  · cases past <;> cases hsplit

/-- The second process starts after the first one has written, and writes too: nothing is lost. -/
theorem no_lost_update_relay : NoLostUpdate zeroKey relayDeeds relayCluster := by
  refine no_lost_update run_relay ?_ apart_relay
  -- The cipher of this example opens what was sealed, under whatever key.
  rintro p nonce m q - - key hkey key' hkey' opened hopened
  exact (Option.some.inj hopened).symm

end Example

end NodeWe.ControlPlane
