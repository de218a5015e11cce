import NodeWe.ControlPlane.Backend
import NodeWe.ControlPlane.Postgres

/-!
# A deployment on SQLite

A control plane with the SQLite backend keeps the snapshot of its store in the one row of
`nodewe_state`. A start checks the row (`validateSqliteStartup`) and then reads it
(`loadSqliteStore`). The check takes a file that is not there for a fresh deployment, but reading
creates the file, and only the first request that changes the store puts the row into it. Until
then every further start is refused (`restarts_iff`).

The file is `nodewe.sqlite3` as SQLite shows it: `Connection::open` creates an empty database where
there is no file, and a transaction leaves the row as it was or as it was to be.
-/

namespace NodeWe.ControlPlane

open Text InPlace Transition

/-! ## The file -/

/-- What is in `nodewe.sqlite3`: there is no file, a database without the table, the table without
the row, or the snapshot in the row. -/
inductive Database
  | absent
  | empty
  | table
  | row (snapshot : List UInt8)
  deriving DecidableEq

/-- `Connection::open`. -/
def Database.opened : Database → Database
  | absent => empty
  | database => database

/-- `CREATE TABLE IF NOT EXISTS nodewe_state`. -/
def Database.withTable : Database → Database
  | row snapshot => row snapshot
  | _ => table

/-- `SELECT snapshot FROM nodewe_state WHERE id = 1`, as `query_row` answers it. -/
def Database.query : Database → Option (List UInt8)
  | row snapshot => some snapshot
  | _ => none

/-- The query finds what is in the row. -/
theorem Database.query_eq_some {database : Database} {snapshot : List UInt8} :
    database.query = some snapshot ↔ database = .row snapshot := by
  cases database <;> simp [query]

/-- Opening the file shows nothing else. -/
theorem Database.query_opened (database : Database) : database.opened.query = database.query := by
  cases database <;> rfl

/-- What the environment of the deployment says of the file: the result of `store_key`, and whether
`NODEWE_REQUIRE_ENCRYPTED_STORE` is set. -/
structure Settings where
  store_key : Option (Vector UInt8 32)
  require_encrypted : Bool

/-! ## Starting -/

/-- Why a start is refused. -/
inductive StartupError
  /-- `sqlite state read failed`, with the error of SQLite. -/
  | stateRead
  /-- `plaintext SQLite store is not allowed`. -/
  | plaintext
  /-- The error of `decode_store_bytes`. -/
  | undecodable
  /-- `sqlite snapshot is not UTF-8`. -/
  | notUtf8
  /-- `sqlite snapshot integrity check failed`. -/
  | integrity
  /-- `parse_snapshot` does not return. -/
  | panicked (panic : Panic)

section Backend

variable [Aead] (settings : Settings)

/-- `validate_sqlite_startup`. -/
def validateSqliteStartup [Serde] (env : Env) (database : Database) : Except StartupError Unit :=
  if database = .absent then .ok ()
  else do
    let snapshot ← okOr database.query .stateRead
    ensure ((settings.require_encrypted && !storeMagic.isPrefixOf snapshot) = false) .plaintext
    let plaintext ← okOr (decodeStoreBytes settings.store_key snapshot) .undecodable
    let text ← okOr (String.fromUTF8? ⟨plaintext.toArray⟩) .notUtf8
    match parseSnapshot env text with
    | .error panic => .error (.panicked panic)
    | .ok none => .error .integrity
    | .ok (some _) => .ok ()

/-- `load_sqlite_store`. -/
def loadSqliteStore [Serde] (env : Env) (database : Database) : Except Panic Store :=
  match database.opened.query with
  | none => .ok .empty
  | some snapshot =>
    match (decodeStoreBytes settings.store_key snapshot).bind fun plaintext =>
        String.fromUTF8? ⟨plaintext.toArray⟩ with
    | none => .ok .empty
    | some text => (parseSnapshot env text).map (·.getD .empty)

/-! ## Persisting -/

/-- Where a call of `SqliteBackend::persist` fails. A key that cannot be used fails at the
encoding. -/
inductive Fault
  | directory
  | opening
  | schema
  | encoding
  | transaction
  | writing
  | committing

/-- `SqliteBackend::persist`: whether it returns `Ok`, and the file that it leaves. -/
def sqlitePersist (nonce : Vector UInt8 nonceLen) (store : Store) (fault : Option Fault)
    (database : Database) : Bool × Database :=
  match fault with
  | some .directory | some .opening => (false, database)
  | some .schema => (false, database.opened)
  | some .encoding | some .transaction | some .writing | some .committing =>
    (false, database.opened.withTable)
  | none => (true, .row (encodeStoreBytes settings.store_key nonce (bytes (snapshotText store))))

end Backend

/-! ## The deployment -/

/-- The file, the store of the process that runs, and the store that was committed last. -/
structure Deployment where
  database : Database
  memory : Option Store
  committed : Option Store

/-- A deployment that has never been started. -/
def Deployment.fresh : Deployment := ⟨.absent, none, none⟩

/-- A process starts, whatever becomes of it, or the running one handles a request. -/
inductive Act
  | started (env : Env)
  | handled (m : Moment) (nonce : Vector UInt8 nonceLen) (fault : Option Fault)

/-- The surroundings of an act. -/
def Act.env : Act → Env
  | started env => env
  | handled m _ _ => m.env

section Deployment

variable [Aead] [Serde] [Ed25519] (settings : Settings)

/-- What happens to a deployment. A refused start leaves no process, and a new process takes the
place of the one before. -/
inductive Operates : Deployment → Act → Deployment → Prop
  | started (d : Deployment) (env : Env) (store : Store)
      (hvalid : validateSqliteStartup settings env d.database = .ok ())
      (hload : loadSqliteStore settings env d.database = .ok store) :
      Operates d (.started env)
        { d with database := d.database.opened, memory := some store }
  | refused (d : Deployment) (env : Env) (error : StartupError)
      (hvalid : validateSqliteStartup settings env d.database = .error error) :
      Operates d (.started env) { d with memory := none }
  | answered (d : Deployment) (m : Moment) (nonce : Vector UInt8 nonceLen)
      (fault : Option Fault) (hmemory : d.memory = some m.before) (hquiet : m.Quiet) :
      Operates d (.handled m nonce fault) { d with memory := some m.after }
  | persisted (d : Deployment) (m : Moment) (new : Store) (nonce : Vector UInt8 nonceLen)
      (fault : Option Fault) (hmemory : d.memory = some m.before) (hhands : m.Hands new)
      (hbackend : ∀ store, m.env.persist store =
        (sqlitePersist settings nonce store fault d.database).1) :
      Operates d (.handled m nonce fault)
        { database := (sqlitePersist settings nonce new fault d.database).2
          memory := some m.after
          committed :=
            if (sqlitePersist settings nonce new fault d.database).1 then some new
            else d.committed }

/-- A start of the deployment passes the check, and loads what was committed last, or the empty
store where nothing was. -/
def Restarts (env : Env) (d : Deployment) : Prop :=
  validateSqliteStartup settings env d.database = .ok () ∧
    loadSqliteStore settings env d.database = .ok ((d.committed.map normalized).getD .empty)

/-! ## What the file is -/

/-- A store of a run whose clock fits. -/
def Arises (store : Store) : Prop :=
  ∃ events, Run Happens Store.empty events store ∧ InTime events

omit [Aead] in
/-- What a request of a run leaves behind is a store of a run. -/
theorem Arises.handled {m : Moment} (h : Arises m.before) (hclock : m.env.ClockFits) :
    Arises m.after := by
  obtain ⟨events, hrun, htime⟩ := h
  refine ⟨events ++ [.handled m.st m.env m.arm m.response], ?_, ?_⟩
  · exact .snoc _ _ _ _ hrun (.handled _ _ _ (.handled m.st m.env m.arm m.before))
  · unfold InTime
    rw [List.forall_mem_append, List.forall_mem_singleton]
    exact ⟨htime, hclock⟩

omit [Aead] in
/-- What a store of a run reads back as is one. -/
theorem Arises.normalized [Rfc8259] {store : Store} (h : Arises store) {env : Env}
    (hclock : env.ClockFits) : Arises (normalized store) := by
  obtain ⟨events, hrun, htime⟩ := h
  have hread := parseSnapshot_of_run hrun htime env
  refine ⟨events ++ [.reloaded env], .snoc _ _ _ _ hrun (.reloaded env _ _ hread), ?_⟩
  unfold InTime
  rw [List.forall_mem_append, List.forall_mem_singleton]
  exact ⟨htime, hclock⟩

/-- The file as the history leaves it. Before the first start there is none, a commit puts the
snapshot into the row, and in between there is a database without the row. -/
structure Reflects (acts : List Act) (d : Deployment) : Prop where
  absent : d.database = .absent ↔ ∀ act ∈ acts, ∀ env, act ≠ .started env
  stopped : d.database = .absent → d.memory = none
  arises : ∀ store, d.memory = some store → Arises store
  uncommitted : d.committed = none → d.database.query = none
  committed : ∀ store, d.committed = some store → Arises store ∧
    ∃ nonce, d.database.query =
      some (encodeStoreBytes settings.store_key nonce (bytes (snapshotText store)))

omit [Serde] [Ed25519] in
/-- An encoded snapshot begins like an encrypted file when there is a key. -/
theorem isPrefixOf_encoded (nonce : Vector UInt8 nonceLen) (store : Store) :
    storeMagic.isPrefixOf
      (encodeStoreBytes settings.store_key nonce (bytes (snapshotText store))) =
        settings.store_key.isSome := by
  cases hkey : settings.store_key with
  | none => exact (legible_snapshot none store).resolve_left (by decide)
  | some key =>
    rw [encodeStoreBytes, encryptStore, List.append_assoc, Option.isSome_some,
      List.isPrefixOf_iff_prefix]
    exact List.prefix_append _ _

omit [Serde] [Ed25519] in
/-- An encoded snapshot is decoded. -/
theorem decode_encoded [LawfulAead] (nonce : Vector UInt8 nonceLen) (store : Store) :
    decodeStoreBytes settings.store_key
      (encodeStoreBytes settings.store_key nonce (bytes (snapshotText store))) =
        some (bytes (snapshotText store)) := by
  have hmagic := isPrefixOf_encoded settings nonce store
  unfold decodeStoreBytes
  rw [hmagic]
  cases settings.store_key with
  | none => rfl
  | some key => exact decryptStore_encryptStore (bytes (snapshotText store)) key nonce

variable {settings} {acts : List Act} {d : Deployment}

omit [Ed25519] in
/-- What a start that passes has found: no file, or a row that reads back. -/
theorem validate_eq_ok_iff (env : Env) (database : Database) :
    validateSqliteStartup settings env database = .ok () ↔
      database = .absent ∨ ∃ snapshot plaintext text store, database = .row snapshot ∧
        (settings.require_encrypted && !storeMagic.isPrefixOf snapshot) = false ∧
        decodeStoreBytes settings.store_key snapshot = some plaintext ∧
        String.fromUTF8? ⟨plaintext.toArray⟩ = some text ∧
        parseSnapshot env text = .ok (some store) := by
  unfold validateSqliteStartup
  split_ifs with habsent
  · exact iff_of_true rfl (.inl habsent)
  · simp only [bind_eq_ok_iff, okOr_eq_ok, ensure_eq_ok, Database.query_eq_some]
    constructor
    · rintro ⟨snapshot, hrow, -, hmagic, plaintext, hdecoded, text, htext, hparsed⟩
      split at hparsed
      · cases hparsed
      · cases hparsed
      · next store hok =>
        exact .inr ⟨snapshot, plaintext, text, store, hrow, hmagic, hdecoded, htext, hok⟩
    · rintro (hnone | ⟨snapshot, plaintext, text, store, hrow, hmagic, hdecoded, htext, hok⟩)
      · exact absurd hnone habsent
      · refine ⟨snapshot, hrow, (), hmagic, plaintext, hdecoded, text, htext, ?_⟩
        rw [hok]

/-- A start from a row passes the check, unless the snapshot is in plain text and must not be. -/
theorem validate_row [LawfulAead] [Rfc8259] {nonce : Vector UInt8 nonceLen} {store : Store}
    (harises : Arises store) (env : Env) :
    validateSqliteStartup settings env
        (.row (encodeStoreBytes settings.store_key nonce (bytes (snapshotText store)))) = .ok () ↔
      ¬(settings.require_encrypted = true ∧ settings.store_key = none) := by
  obtain ⟨events, hrun, htime⟩ := harises
  have hread := parseSnapshot_of_run hrun htime env
  have hmagic := isPrefixOf_encoded settings nonce store
  have hcheck : (settings.require_encrypted && !settings.store_key.isSome) = false ↔
      ¬(settings.require_encrypted = true ∧ settings.store_key = none) := by
    cases settings.require_encrypted <;> cases settings.store_key <;> simp
  rw [validate_eq_ok_iff, ← hcheck, ← hmagic]
  constructor
  · rintro (hnone | ⟨snapshot, _, _, _, hrow, hplain, -⟩)
    · cases hnone
    · rw [Database.row.inj hrow]
      exact hplain
  · intro hplain
    exact .inr ⟨_, _, _, _, rfl, hplain, decode_encoded settings nonce store, fromUTF8_bytes _,
      hread⟩

/-- What a row has is loaded. -/
theorem load_row [LawfulAead] [Rfc8259] {nonce : Vector UInt8 nonceLen} {store : Store}
    (harises : Arises store) (env : Env) :
    loadSqliteStore settings env
        (.row (encodeStoreBytes settings.store_key nonce (bytes (snapshotText store)))) =
      .ok (normalized store) := by
  obtain ⟨events, hrun, htime⟩ := harises
  have hread := parseSnapshot_of_run hrun htime env
  rw [loadSqliteStore, Database.query_opened, Database.query]
  dsimp only
  rw [decode_encoded, Option.bind_some, fromUTF8_bytes]
  dsimp only
  rw [hread]
  rfl

variable (settings)

omit [Ed25519] in
/-- Without a row, a start passes the check only when there is no file, and loads the empty
store. -/
theorem start_without_row {database : Database} (h : database.query = none) (env : Env) :
    (validateSqliteStartup settings env database = .ok () ↔ database = .absent) ∧
      loadSqliteStore settings env database = .ok .empty := by
  constructor
  · rw [validate_eq_ok_iff]
    refine or_iff_left ?_
    rintro ⟨snapshot, _, _, _, hrow, -⟩
    rw [hrow] at h
    cases h
  · rw [loadSqliteStore, Database.query_opened, h]

omit [Serde] [Ed25519] in
/-- A call that fails shows the row as it was, and leaves the file there. -/
theorem sqlitePersist_failed (nonce : Vector UInt8 nonceLen) (store : Store) (fault : Fault)
    (database : Database) :
    (sqlitePersist settings nonce store (some fault) database).1 = false ∧
      (sqlitePersist settings nonce store (some fault) database).2.query = database.query ∧
      ((sqlitePersist settings nonce store (some fault) database).2 = .absent →
        database = .absent) := by
  cases fault <;> cases database <;>
    simp [sqlitePersist, Database.opened, Database.withTable, Database.query]

variable {settings}

/-- Every start is passed or refused: `load_sqlite_store` returns where the check has passed. -/
theorem Operates.starts (settings : Settings) (d : Deployment) (env : Env) :
    ∃ d', Operates settings d (.started env) d' := by
  cases hvalid : validateSqliteStartup settings env d.database with
  | error error => exact ⟨_, .refused d env error hvalid⟩
  | ok passed =>
    have hload : ∃ store, loadSqliteStore settings env d.database = .ok store := by
      rcases (validate_eq_ok_iff env d.database).mp hvalid with
        habsent | ⟨snapshot, plaintext, text, store, hrow, -, hdecoded, htext, hparsed⟩
      · rw [habsent]
        exact ⟨.empty, rfl⟩
      · refine ⟨store, ?_⟩
        rw [loadSqliteStore, hrow, Database.query_opened, Database.query]
        dsimp only
        rw [hdecoded, Option.bind_some, htext]
        dsimp only
        rw [hparsed]
        rfl
    obtain ⟨store, hload⟩ := hload
    exact ⟨_, .started d env store hvalid hload⟩

/-- Every request to the running process is handled. -/
theorem Operates.handles {m : Moment} {nonce : Vector UInt8 nonceLen} {fault : Option Fault}
    (hmemory : d.memory = some m.before)
    (hbackend : ∀ store, m.env.persist store =
      (sqlitePersist settings nonce store fault d.database).1) :
    ∃ d', Operates settings d (.handled m nonce fault) d' := by
  rcases m.hands_or_quiet with hquiet | ⟨new, hhands⟩
  · exact ⟨_, .answered d m nonce fault hmemory hquiet⟩
  · exact ⟨_, .persisted d m new nonce fault hmemory hhands hbackend⟩

/-! ## Every run -/

/-- A deployment that has never been started has no file. -/
theorem reflects_fresh : Reflects settings [] Deployment.fresh where
  absent := by simp [Deployment.fresh]
  stopped _ := rfl
  arises store h := by cases h
  uncommitted _ := rfl
  committed store h := by cases h

/-- A start gives the process a store of a run. -/
theorem Reflects.loads [LawfulAead] [Rfc8259] (h : Reflects settings acts d) {env : Env}
    {store : Store} (hclock : env.ClockFits)
    (hload : loadSqliteStore settings env d.database = .ok store) : Arises store := by
  cases hcommitted : d.committed with
  | none =>
    have hempty := (start_without_row settings (h.uncommitted hcommitted) env).2
    rw [hload] at hempty
    rw [Except.ok.inj hempty]
    exact ⟨[], .start, List.forall_mem_nil _⟩
  | some last =>
    obtain ⟨harises, nonce, hquery⟩ := h.committed last hcommitted
    rw [Database.query_eq_some.mp hquery, load_row harises env] at hload
    rw [← Except.ok.inj hload]
    exact harises.normalized hclock

/-- Each act keeps the file as the history leaves it. -/
theorem Reflects.step [LawfulAead] [Rfc8259] {act : Act} {d' : Deployment}
    (h : Reflects settings acts d) (hact : Operates settings d act d')
    (hclock : act.env.ClockFits) : Reflects settings (acts ++ [act]) d' := by
  have hhandled (m : Moment) (nonce : Vector UInt8 nonceLen) (fault : Option Fault) :
      (∀ act ∈ acts ++ [.handled m nonce fault], ∀ env, act ≠ .started env) ↔
        ∀ act ∈ acts, ∀ env, act ≠ .started env := by
    rw [List.forall_mem_append, List.forall_mem_singleton]
    exact and_iff_left fun env hstarted => by cases hstarted
  have hstarted (env : Env) :
      ¬∀ act ∈ acts ++ [.started env], ∀ env, act ≠ .started env := by
    intro hnone
    exact hnone _ (List.mem_append_right _ (List.mem_singleton_self _)) env rfl
  cases hact with
  | started env store hvalid hload =>
    have hpresent : d.database.opened ≠ .absent := by
      cases d.database <;> exact fun habsent => by cases habsent
    refine ⟨iff_of_false hpresent (hstarted env), fun habsent => absurd habsent hpresent, ?_,
      ?_, ?_⟩
    · rintro _ ⟨⟩
      exact h.loads hclock hload
    · intro hnone
      exact (Database.query_opened _).trans (h.uncommitted hnone)
    · intro last hlast
      obtain ⟨harises, nonce, hquery⟩ := h.committed last hlast
      exact ⟨harises, nonce, (Database.query_opened _).trans hquery⟩
  | refused env error hvalid =>
    have hpresent : d.database ≠ .absent := by
      intro habsent
      rw [habsent] at hvalid
      cases hvalid
    refine ⟨iff_of_false hpresent (hstarted env), fun _ => rfl, ?_, h.uncommitted, h.committed⟩
    rintro _ ⟨⟩
  | answered m nonce fault hmemory hquiet =>
    refine ⟨h.absent.trans (hhandled m nonce fault).symm, ?_, ?_, h.uncommitted, h.committed⟩
    · intro habsent
      rw [h.stopped habsent] at hmemory
      cases hmemory
    · rintro _ ⟨⟩
      exact (h.arises _ hmemory).handled hclock
  | persisted m new nonce fault hmemory hhands hbackend =>
    have hafter := (h.arises _ hmemory).handled hclock
    have hpresent : d.database ≠ .absent := by
      intro habsent
      rw [h.stopped habsent] at hmemory
      cases hmemory
    have hnone : ¬∀ act ∈ acts ++ [.handled m nonce fault], ∀ env, act ≠ .started env := by
      rw [hhandled, ← h.absent]
      exact hpresent
    cases fault with
    | none =>
      -- The row that is written holds the store that the handler leaves.
      have hnew : m.after = new := hhands.after_eq (hbackend new)
      refine ⟨iff_of_false ?_ hnone, ?_, ?_, ?_, ?_⟩
      · rintro ⟨⟩
      · rintro ⟨⟩
      · rintro _ ⟨⟩
        exact hafter
      · rintro ⟨⟩
      · rintro _ ⟨⟩
        rw [← hnew]
        exact ⟨hafter, nonce, rfl⟩
    | some fault =>
      -- A write that fails leaves the row that a query of the file gives.
      obtain ⟨hrefused, hquery, hfile⟩ :=
        sqlitePersist_failed settings nonce new fault d.database
      refine ⟨iff_of_false (fun habsent => hpresent (hfile habsent)) hnone,
        fun habsent => absurd (hfile habsent) hpresent, ?_, ?_, ?_⟩
      · rintro _ ⟨⟩
        exact hafter
      · intro hcommitted
        dsimp only at hcommitted ⊢
        rw [hrefused, if_neg Bool.false_ne_true] at hcommitted
        exact hquery.trans (h.uncommitted hcommitted)
      · intro last hlast
        dsimp only at hlast ⊢
        rw [hrefused, if_neg Bool.false_ne_true] at hlast
        obtain ⟨harises, nonce', hrow⟩ := h.committed last hlast
        exact ⟨harises, nonce', hquery.trans hrow⟩

/-- The file of every run is as its history leaves it. -/
theorem Reflects.of_run [LawfulAead] [Rfc8259]
    (hrun : Run (Operates settings) Deployment.fresh acts d)
    (htime : ∀ act ∈ acts, act.env.ClockFits) : Reflects settings acts d := by
  refine hrun.history (P := fun acts d =>
    (∀ act ∈ acts, act.env.ClockFits) → Reflects settings acts d) (fun _ => reflects_fresh) ?_
    htime
  intro acts s act t ih hstep hclock
  rw [List.forall_mem_append, List.forall_mem_singleton] at hclock
  exact (ih hclock.1).step hstep hclock.2

/-- **When a deployment restarts.** The next start passes the check and loads what was committed
last exactly when the deployment has never been started, or something has been committed; and then
it must not be in plain text where the settings ask for encryption. -/
theorem restarts_iff [LawfulAead] [Rfc8259] (env : Env)
    (hrun : Run (Operates settings) Deployment.fresh acts d)
    (htime : ∀ act ∈ acts, act.env.ClockFits) :
    Restarts settings env d ↔
      (∀ act ∈ acts, ∀ env, act ≠ .started env) ∨
        d.committed.isSome = true ∧
          ¬(settings.require_encrypted = true ∧ settings.store_key = none) := by
  have h := Reflects.of_run hrun htime
  unfold Restarts
  cases hcommitted : d.committed with
  | none =>
    obtain ⟨hvalid, hload⟩ :=
      start_without_row settings (h.uncommitted hcommitted) env
    rw [hvalid, h.absent, hload]
    simp
  | some last =>
    obtain ⟨harises, nonce, hquery⟩ := h.committed last hcommitted
    have hrow := Database.query_eq_some.mp hquery
    have hpresent : ¬∀ act ∈ acts, ∀ env, act ≠ .started env := by
      rw [← h.absent, hrow]
      exact fun habsent => by cases habsent
    rw [or_iff_right hpresent, hrow, validate_row harises, load_row harises env]
    simp

end Deployment

section Example

attribute [local instance] clearCipher lawful_clearCipher compactSerde rfc8259_compactSerde noKeys

/-- The store that an enrolment leaves is handed to the backend. -/
theorem enrolment_hands : firstEnrolment.Hands firstEnrolment.after := by
  rcases firstEnrolment.hands_or_quiet with hquiet | ⟨new, hhands⟩
  · have hdiffers : (firstEnrolment.answered fun _ => true).1.status ≠
        (firstEnrolment.answered fun _ => false).1.status := by
      decide +kernel
    exact absurd (congrArg (fun result => result.1.status) (hquiet _ _)) hdiffers
  · rw [hhands.after_eq rfl]
    exact hhands

/-- A deployment that is started for the first time. -/
theorem run_started (settings : Settings) : Run (Operates settings) Deployment.fresh
    [.started (exampleEnv 0)] ⟨.empty, some .empty, none⟩ :=
  .single (.started Deployment.fresh (exampleEnv 0) .empty rfl rfl)

/-- The deployment after the enrolment. -/
def enrolledDeployment (settings : Settings) : Deployment where
  database :=
    .row (encodeStoreBytes settings.store_key zeroNonce (bytes (snapshotText firstEnrolment.after)))
  memory := some firstEnrolment.after
  committed := some firstEnrolment.after

/-- It is started, and then the node is enrolled. -/
theorem run_enrolled (settings : Settings) :
    Run (Operates settings) Deployment.fresh
      [.started (exampleEnv 0), .handled firstEnrolment zeroNonce none]
      (enrolledDeployment settings) :=
  .snoc _ _ _ _ (run_started settings)
    (.persisted _ firstEnrolment _ zeroNonce none rfl enrolment_hands fun _ => rfl)

/-- The clock of the examples fits. -/
theorem clockFits_exampleEnv : (exampleEnv 0).ClockFits := by
  intro site
  show 0 + 305000 ≤ u64Max
  decide

/-- After the enrolment the deployment restarts, where plain text is allowed. -/
theorem restarts_enrolled :
    Restarts ⟨none, false⟩ (exampleEnv 0) (enrolledDeployment ⟨none, false⟩) := by
  refine (restarts_iff (exampleEnv 0) (run_enrolled _) ?_).mpr (.inr ⟨rfl, ?_⟩)
  · intro act hact
    rcases List.mem_cons.mp hact with rfl | hact
    · exact clockFits_exampleEnv
    · rw [List.mem_singleton.mp hact]
      exact clockFits_exampleEnv
  · rintro ⟨hrequired, -⟩
    cases hrequired

/-- Before anything is committed the deployment does not restart; and with a snapshot in plain text
it never does where that is not allowed. -/
theorem restart_refused :
    (Run (Operates ⟨none, false⟩) Deployment.fresh [.started (exampleEnv 0)]
        ⟨.empty, some .empty, none⟩ ∧
      ¬Restarts ⟨none, false⟩ (exampleEnv 0) ⟨.empty, some .empty, none⟩) ∧
    (Run (Operates ⟨none, true⟩) Deployment.fresh
        [.started (exampleEnv 0), .handled firstEnrolment zeroNonce none]
        (enrolledDeployment ⟨none, true⟩) ∧
      ¬Restarts ⟨none, true⟩ (exampleEnv 0) (enrolledDeployment ⟨none, true⟩)) := by
  refine ⟨⟨run_started _, ?_⟩, run_enrolled _, ?_⟩
  · rintro ⟨hvalid, -⟩
    cases hvalid
  · rintro ⟨hvalid, -⟩
    have harises : Arises firstEnrolment.after :=
      Arises.handled ⟨[], .start, List.forall_mem_nil _⟩ clockFits_exampleEnv
    exact (validate_row harises (exampleEnv 0)).mp hvalid ⟨rfl, rfl⟩

end Example

end NodeWe.ControlPlane
