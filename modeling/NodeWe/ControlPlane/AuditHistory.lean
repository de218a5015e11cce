import NodeWe.ControlPlane.Fields

/-!
# The audit chain over a run

The hashes of the chain are computed anew for every export and every snapshot. They stay the same
because no request touches a record that is there, and because a record that is written to a
snapshot and read back is the sealed one, which seals to itself. The readings of the clock are the
only assumption: they are `u64`, the type of `now`.
-/

namespace NodeWe.ControlPlane

open Text InPlace Transition

/-! ## What is served -/

/-- What `GET /v1/audit` and the export serve, record by record. -/
def servedAudit (store : Store) : List String :=
  (List.range store.audit.length).map (sealedActivityJson store.audit)

/-- The records that are served at one time stay in place until another time. -/
structure AppendOnly (store store' : Store) : Prop where
  records : sealedRecords store.audit <+: sealedRecords store'.audit
  served : servedAudit store <+: servedAudit store'

/-- The sealed records are all that is served. -/
theorem AppendOnly.of_records {store store' : Store}
    (h : sealedRecords store.audit <+: sealedRecords store'.audit) : AppendOnly store store' := by
  refine ⟨h, ?_⟩
  have hmap := h.map sealedText
  rwa [← served_eq_sealedTexts, ← served_eq_sealedTexts] at hmap

/-! ## Steps -/

/-- The readings of the clock during an event are within the type of `now`. -/
def Event.InRange (event : Event) : Prop :=
  match event with
  | handled _ env _ _ | reloaded env => ∀ site, env.now site ≤ u64Max

section Steps

variable [Serde] [Ed25519] {st : State} {env : Env} {store new : Store} {arm : Arm}
  {response : Response}

/-- An effect keeps the times of the records within their type. -/
theorem Effect.timesFit (h : Effect st env store arm response new)
    (hclock : ∀ site, env.now site ≤ u64Max) (hstore : TimesFit store.audit) :
    TimesFit new.audit := by
  intro item hitem
  rcases h.mem_audit hitem with hold | ⟨k, event, node_id, task_id, actor, rfl⟩
  · exact hstore item hold
  · exact hclock (.timestamp k)

/-- What a step keeps: the times within their type, and the sealed records of an earlier store as
they are. -/
structure Keeps (earlier store : Store) : Prop where
  times : TimesFit store.audit
  records : sealedRecords earlier.audit <+: sealedRecords store.audit

variable [Rfc8259]

/-- A step keeps the sealed records. -/
theorem Keeps.step {earlier store' : Store} {event : Event} (h : Keeps earlier store)
    (hclock : event.InRange) (hstep : Happens store event store') : Keeps earlier store' := by
  cases hstep with
  | handled _ _ _ hhandles =>
    cases hhandles with
    | handled st env arm =>
      have heffect := arm.run_effect st env store
      have hgrows := sealedRecords_prefix heffect.audit_prefix
      exact ⟨heffect.timesFit hclock h.times, h.records.trans hgrows⟩
  | reloaded env _ _ hread =>
    have hloaded : store'.audit = sealedRecords store.audit := by
      rw [eq_reloadedStore hread, reloadedStore_audit env h.times]
    have hsealed : sealedRecords store'.audit = sealedRecords store.audit := by
      rw [hloaded]
      exact sealedFromLink_idem "GENESIS" store.audit
    refine ⟨?_, ?_⟩
    · rw [hloaded]
      exact h.times.sealed "GENESIS"
    · rw [hsealed]
      exact h.records

/-! ## Runs -/

/-- A run keeps the sealed records of its first store. -/
theorem Keeps.of_run {later : List Event} {store' : Store} (hstore : TimesFit store.audit)
    (hrun : Run Happens store later store') (hclock : ∀ event ∈ later, event.InRange) :
    Keeps store store' :=
  hrun.invariant_where ⟨hstore, List.prefix_rfl⟩
    (fun _ _ _ hevent hs hstep => hs.step hevent hstep) hclock

/-- **The audit chain is append-only.** What is served at one time is a prefix of what is served at
a later time, whatever requests and restarts come in between, and every snapshot is accepted and
brings the same chain back. -/
theorem audit_append_only {past later : List Event} {store store' : Store}
    (hpast : Run Happens Store.empty past store) (hlater : Run Happens store later store')
    (hclock : ∀ event ∈ past ++ later, event.InRange) :
    AppendOnly store store' ∧
      ∀ env : Env, ∃ loaded, parseSnapshot env (snapshotText store') = .ok (some loaded) ∧
        auditChainValid loaded.audit = true ∧
        sealedRecords loaded.audit = sealedRecords store'.audit := by
  rw [List.forall_mem_append] at hclock
  have hfirst : Keeps Store.empty store :=
    Keeps.of_run (List.forall_mem_nil _) hpast hclock.1
  have hthen : Keeps store store' := Keeps.of_run hfirst.times hlater hclock.2
  refine ⟨.of_records hthen.records, fun env => ?_⟩
  have haudit := reloadedStore_audit env hthen.times
  refine ⟨reloadedStore env store', parseSnapshot_fits env hthen.times, ?_, ?_⟩
  · rw [haudit]
    exact chainValidFrom_sealed "GENESIS" store'.audit
  · rw [haudit]
    exact sealedFromLink_idem "GENESIS" store'.audit

end Steps

section Example

attribute [local instance] compactSerde rfc8259_compactSerde noKeys

/-- The store after a node is enrolled. -/
def namedStore : Store :=
  ((Arm.createNode exampleBodies.1 none).run exampleState (exampleEnv 0) .empty).2

/-- A node is enrolled, and the process restarts. -/
theorem audit_append_only_restart :
    AppendOnly namedStore (reloadedStore (exampleEnv 0) namedStore) ∧
      ∀ env : Env, ∃ loaded,
        parseSnapshot env (snapshotText (reloadedStore (exampleEnv 0) namedStore)) =
          .ok (some loaded) ∧ auditChainValid loaded.audit = true ∧
        sealedRecords loaded.audit =
          sealedRecords (reloadedStore (exampleEnv 0) namedStore).audit := by
  have hclock (site : Site) : (exampleEnv 0).now site ≤ u64Max := Nat.zero_le _
  have hhandles : Handles Store.empty (.handled exampleState (exampleEnv 0)
      (.createNode exampleBodies.1 none) _) namedStore := .handled _ _ _ _
  have htimes : TimesFit namedStore.audit :=
    hhandles.effect.timesFit hclock (List.forall_mem_nil _)
  have hloaded := parseSnapshot_fits (exampleEnv 0) htimes
  refine audit_append_only (.single (.handled _ _ _ hhandles))
    (.single (.reloaded (exampleEnv 0) _ _ hloaded)) ?_
  rw [List.forall_mem_append, List.forall_mem_singleton, List.forall_mem_singleton]
  exact ⟨hclock, hclock⟩

end Example

end NodeWe.ControlPlane
