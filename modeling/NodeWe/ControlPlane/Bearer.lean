import NodeWe.ControlPlane.Auth
import NodeWe.ControlPlane.Snapshot

/-!
# Requests without a bearer token

`authenticate_request` compares the presented token with the administrator's token and with the
credential of the named node, and a request without an `Authorization` header presents the empty
text. So such a request is turned away when neither secret is empty. `load_secret_value` rejects an
empty secret file but takes an empty environment variable, and both loaders of the store give a
node line without a fourth field the empty credential (`authenticateRequest_blank_iff`).
-/

namespace NodeWe.ControlPlane

open Text

/-! ## Secrets at startup -/

/-- A secret file: its permission bits and its text, or the errors of reading them. -/
structure SecretFile where
  path : String
  mode : Except String ℕ
  contents : Except String String

/-- Where a secret may come from: the variable that holds it, with its text where it is UTF-8, and
the file that the other variable names. -/
structure SecretSource where
  value : Option (Option String)
  file : Option SecretFile

/-- `load_secret_value`. -/
def loadSecretValue (env_name file_env_name : String) (source : SecretSource) :
    Except String (Option String) :=
  match source.value with
  | some none => .error (env_name ++ " must be UTF-8")
  | some (some value) => .ok (some (trim value))
  | none =>
    match source.file with
    | none => .ok none
    | some file =>
      match file.mode with
      | .error error =>
        .error ("cannot stat " ++ file_env_name ++ " " ++ file.path ++ ": " ++ error)
      | .ok mode =>
        if mode &&& 0o077 ≠ 0 then
          .error ("secret file " ++ file.path ++ " must not be group/world readable")
        else
          match file.contents with
          | .error error =>
            .error ("cannot read " ++ file_env_name ++ " " ++ file.path ++ ": " ++ error)
          | .ok value =>
            if trim value = "" then .error (file_env_name ++ " must not be empty")
            else .ok (some (trim value))

/-- The environment variable, where it is set, holds more than white space. -/
def SecretSource.Filled (source : SecretSource) : Prop :=
  ∀ value, source.value = some (some value) → trim value ≠ ""

/-- A loaded secret is empty just when it comes from a blank environment variable. -/
theorem loadSecretValue_filled {env_name file_env_name : String} {source : SecretSource}
    {secret : String} (h : loadSecretValue env_name file_env_name source = .ok (some secret)) :
    secret ≠ "" ↔ source.Filled := by
  unfold loadSecretValue at h
  split at h
  · cases h
  · next value hvalue =>
    -- The variable goes before the file, and its text is not checked.
    have hsecret : trim value = secret := Option.some.inj (Except.ok.inj h)
    constructor
    · rintro hne value' hvalue'
      rw [hvalue, Option.some.injEq, Option.some.injEq] at hvalue'
      rwa [← hvalue', hsecret]
    · intro hfilled
      rw [← hsecret]
      exact hfilled value hvalue
  · next hvalue =>
    have hfilled : source.Filled := by
      intro value hvalue'
      rw [hvalue] at hvalue'
      cases hvalue'
    refine iff_of_true ?_ hfilled
    split at h
    · cases h
    · split at h
      · cases h
      · split_ifs at h
        split at h
        · cases h
        · split_ifs at h with hblank
          rw [← Option.some.inj (Except.ok.inj h)]
          exact hblank

/-! ## The nodes of a loaded store -/

/-- The lines under a heading, where `current` is the heading that they start under. -/
def linesUnder (heading : List Char) : List Char → List (List Char) → List (List Char)
  | _, [] => []
  | current, line :: rest =>
    if isHeading line then linesUnder heading line rest
    else if current = heading then line :: linesUnder heading current rest
    else linesUnder heading current rest

/-- What a store may be loaded from: a snapshot, or the older files. -/
inductive StoreFile
  | snapshot (contents : String)
  | legacy (read_store_text : String → Option String)

/-- The fields of the lines that are read as nodes. -/
def StoreFile.nodeRecords : StoreFile → List (List (List Char))
  | snapshot contents =>
    (linesUnder "[NODES]".toList [] ((lines contents.toList).drop 1)).map (splitN '\t' 13)
  | legacy read_store_text =>
    (((read_store_text "nodes.tsv").map fun text => lines text.toList).getD []).map (splitN '\t' 15)

/-- Parsing fields that were split off is parsing lines. -/
theorem parseLines_map {α β γ : Type} (parse : β → Except Panic (Option α)) (f : γ → β)
    (ls : List γ) : parseLines parse (ls.map f) = parseLines (fun line => parse (f line)) ls := by
  induction ls with
  | nil => rfl
  | cons line rest ih => rw [List.map_cons, parseLines, parseLines, ih]

/-- Of lines that are all read, the records are those of the lines. -/
theorem parseLines_ok {α β : Type} {parse : β → Except Panic (Option α)} {ls : List β}
    {records : List α} (h : parseLines parse ls = .ok records) :
    (∀ line ∈ ls, ∃ record, parse line = .ok record) ∧
      ∀ x, x ∈ records ↔ ∃ line ∈ ls, parse line = .ok (some x) := by
  induction ls generalizing records with
  | nil =>
    obtain rfl : [] = records := Except.ok.inj h
    simp
  | cons line rest ih =>
    obtain ⟨record, hline, h⟩ := bind_eq_ok h
    obtain ⟨parsed, hrest, h⟩ := bind_eq_ok h
    obtain rfl : record.toList ++ parsed = records := Except.ok.inj h
    obtain ⟨hread, hmem⟩ := ih hrest
    refine ⟨List.forall_mem_cons.mpr ⟨⟨record, hline⟩, hread⟩, fun x => ?_⟩
    rw [List.mem_append, hmem x, List.exists_mem_cons_iff, hline, Option.mem_toList,
      Except.ok.injEq]

section Loading

variable [Serde]

/-- The loaders: `parse_snapshot` and `load_legacy_store`. -/
def StoreFile.load (env : Env) : StoreFile → Except Panic (Option Store)
  | snapshot contents => parseSnapshot env contents
  | legacy read_store_text => (loadLegacyStore env read_store_text).map some

/-- A line adds a node under the heading of the nodes, and nowhere else. -/
theorem parseRecord_nodes {env : Env} {section_name line : List Char} {store store' : Store}
    (h : parseRecord env section_name line store = .ok store') :
    if section_name = "[NODES]".toList then
      ∃ node, parseNodeLine env line = .ok node ∧ store'.nodes = store.nodes ++ node.toList
    else store'.nodes = store.nodes := by
  unfold parseRecord at h
  split_ifs at h ⊢
  · obtain ⟨node, hnode, rfl⟩ := map_eq_ok h
    exact ⟨node, hnode, rfl⟩
  · obtain ⟨task, -, rfl⟩ := map_eq_ok h
    rfl
  · obtain rfl := Except.ok.inj h
    rfl
  · obtain ⟨approval, -, rfl⟩ := map_eq_ok h
    rfl
  · obtain rfl := Except.ok.inj h
    rfl
  · obtain rfl := Except.ok.inj h
    rfl

/-- The nodes of a snapshot are those of the lines under their heading. -/
theorem parseRecords_linesUnder {env : Env} {section_name : List Char} {store store' : Store}
    {ls : List (List Char)} (h : parseRecords env section_name store ls = .ok store') :
    ∃ nodes, parseLines (parseNodeLine env) (linesUnder "[NODES]".toList section_name ls) =
      .ok nodes ∧ store'.nodes = store.nodes ++ nodes := by
  induction ls generalizing section_name store with
  | nil =>
    obtain rfl : store = store' := Except.ok.inj h
    exact ⟨[], rfl, (List.append_nil _).symm⟩
  | cons line rest ih =>
    unfold parseRecords at h
    unfold linesUnder
    split_ifs at h ⊢ with hheading hnodes
    · exact ih h
    · cases hrecord : parseRecord env section_name line store with
      | error panic => rw [hrecord] at h; cases h
      | ok next =>
        rw [hrecord] at h
        have hnext := parseRecord_nodes hrecord
        rw [if_pos hnodes] at hnext
        obtain ⟨node, hnode, hnext⟩ := hnext
        obtain ⟨nodes, hparsed, hstore⟩ := ih h
        refine ⟨node.toList ++ nodes, ?_, by rw [hstore, hnext, List.append_assoc]⟩
        rw [parseLines, hnode, hparsed]
        rfl
    · cases hrecord : parseRecord env section_name line store with
      | error panic => rw [hrecord] at h; cases h
      | ok next =>
        rw [hrecord] at h
        have hnext := parseRecord_nodes hrecord
        rw [if_neg hnodes] at hnext
        rw [← hnext]
        exact ih h

/-- The nodes of a loaded store are those of its node lines. -/
theorem StoreFile.load_nodes {env : Env} {file : StoreFile} {store : Store}
    (h : file.load env = .ok (some store)) :
    parseLines (nodeOfFields env) file.nodeRecords = .ok store.nodes := by
  cases file with
  | snapshot contents =>
    have h : parseSnapshot env contents = .ok (some store) := h
    unfold parseSnapshot at h
    split_ifs at h with hmagic
    · cases h
    obtain ⟨parsed, hrecords, hstore⟩ := map_eq_ok h
    split_ifs at hstore
    obtain rfl := Option.some.inj hstore
    obtain ⟨nodes, hnodes, hparsed⟩ := parseRecords_linesUnder hrecords
    rw [StoreFile.nodeRecords, parseLines_map, hparsed]
    exact hnodes
  | legacy read_store_text =>
    obtain ⟨loaded, hload, hstore⟩ := map_eq_ok h
    obtain rfl := Option.some.inj hstore
    obtain ⟨nodes, hnodes, h⟩ := bind_eq_ok hload
    obtain ⟨tasks, -, h⟩ := bind_eq_ok h
    obtain ⟨grants, -, h⟩ := bind_eq_ok h
    obtain ⟨approvals, -, h⟩ := bind_eq_ok h
    obtain rfl := Except.ok.inj h
    rw [StoreFile.nodeRecords, parseLines_map]
    exact hnodes

end Loading

/-! ## Authorisation -/

/-- The identifier, the revocation, and the credential that a line gives its node. -/
def identityOf : List (List Char) → Option (String × Bool × String)
  | id :: _ :: status :: rest =>
    some (String.ofList id, status == "revoked".toList, fieldOr rest[0]? "")
  | _ => none

/-- A node that is read has the identity that its line gives. -/
theorem nodeOfFields_identity {env : Env} {fields : List (List Char)} {record : Option Node}
    (h : nodeOfFields env fields = .ok record) :
    record.map (fun node => (node.id, node.revoked, node.credential)) = identityOf fields := by
  unfold nodeOfFields at h
  split at h
  · obtain ⟨platform, -, h⟩ := bind_eq_ok h
    obtain ⟨architecture, -, h⟩ := bind_eq_ok h
    obtain ⟨version, -, h⟩ := bind_eq_ok h
    obtain ⟨labels, -, h⟩ := bind_eq_ok h
    obtain ⟨region, -, h⟩ := bind_eq_ok h
    obtain ⟨data_class, -, h⟩ := bind_eq_ok h
    obtain ⟨capacity, -, h⟩ := bind_eq_ok h
    obtain rfl := Except.ok.inj h
    rfl
  · next hshort =>
    obtain rfl := Except.ok.inj h
    unfold identityOf
    split
    · next id name status rest => exact absurd rfl (hshort id name status rest)
    · rfl

/-- A line that names the node, is not revoked, and has no credential: its fourth field is missing
or empty. -/
def LacksCredential (named : Option String) : List (List Char) → Prop
  | id :: _ :: status :: rest =>
    named = some (String.ofList id) ∧ status ≠ "revoked".toList ∧ rest.headD [] = []
  | _ => False

/-- Such a line gives the empty credential to a node that is not revoked. -/
theorem lacksCredential_iff {named : Option String} {fields : List (List Char)} :
    LacksCredential named fields ↔
      ∃ id, named = some id ∧ identityOf fields = some (id, false, "") := by
  have hcredential (rest : List (List Char)) :
      fieldOr rest[0]? "" = "" ↔ rest.headD [] = [] := by
    cases rest with
    | nil => exact iff_of_true rfl rfl
    | cons field rest =>
      rw [List.getElem?_cons_zero, fieldOr, Option.map_some, Option.getD_some, List.headD_cons]
      exact ⟨fun h => by rw [← String.toList_ofList (l := field), h]; rfl, fun h => by rw [h]⟩
  unfold LacksCredential identityOf
  split
  · next id name status rest =>
    rw [← hcredential rest]
    constructor
    · rintro ⟨hnamed, hstatus, hblank⟩
      exact ⟨_, hnamed, by rw [hblank, beq_false_of_ne hstatus]⟩
    · rintro ⟨id', hnamed, hidentity⟩
      rw [Option.some.injEq, Prod.mk.injEq, Prod.mk.injEq] at hidentity
      obtain ⟨hid, hstatus, hblank⟩ := hidentity
      exact ⟨by rw [hid, hnamed], ne_of_beq_false hstatus, hblank⟩
  · simp

section Blank

variable [Serde]

/-- The empty token is no OIDC token. -/
theorem validateOidcToken_blank (env : Env) (config : OidcConfig) :
    validateOidcToken env "" config = none := rfl

/-- The empty token is accepted when it is the administrator's, or the credential of a node that
the request names. -/
theorem authenticateRequest_blank {st : State} {env : Env} {store : Store} {path body : String} :
    (authenticateRequest st env store path body "").authorized = false ↔
      st.admin_token ≠ "" ∧ credentialAuthorized store path body "" = false := by
  unfold authenticateRequest
  split_ifs with hadmin hcredential
  · exact iff_of_false (by simp) fun h => h.1 (constantTimeEq_iff.mp hadmin).symm
  · exact iff_of_false (by simp) fun h => by simp [hcredential] at h
  · refine iff_of_true ?_ ⟨fun h => hadmin (constantTimeEq_iff.mpr h.symm), by simpa using hcredential⟩
    cases st.oidc with
    | none => rfl
    | some config =>
      simp only [validateOidcToken_blank]
      rfl

/-- A request without a bearer token is turned away just when the administrator's token does not
come from a blank environment variable and no line that names its node lacks a credential. -/
theorem authenticateRequest_blank_iff (source : SecretSource) (file : StoreFile) {st : State}
    (startup : Env) {store : Store}
    (hsecret : loadSecretValue "NODEWE_ADMIN_TOKEN" "NODEWE_ADMIN_TOKEN_FILE" source =
      .ok (some st.admin_token))
    (hstore : file.load startup = .ok (some store)) (env : Env) (path body : String) :
    (authenticateRequest st env store path body "").authorized = false ↔
      source.Filled ∧
        ∀ fields ∈ file.nodeRecords, ¬ LacksCredential (namedNode path body) fields := by
  rw [authenticateRequest_blank, loadSecretValue_filled hsecret, Bool.eq_false_iff, Ne,
    credentialAuthorized_iff]
  obtain ⟨hread, hmem⟩ := parseLines_ok (StoreFile.load_nodes hstore)
  refine and_congr_right fun _ => ?_
  constructor
  · intro hnone fields hfields hlacks
    obtain ⟨id, hnamed, hidentity⟩ := lacksCredential_iff.mp hlacks
    obtain ⟨record, hrecord⟩ := hread fields hfields
    have hnode := nodeOfFields_identity hrecord
    rw [hidentity, Option.map_eq_some_iff] at hnode
    obtain ⟨node, rfl, hnode⟩ := hnode
    rw [Prod.mk.injEq, Prod.mk.injEq] at hnode
    exact hnone ⟨node, (hmem node).mpr ⟨fields, hfields, hrecord⟩, by rw [hnamed, hnode.1],
      hnode.2.2, hnode.2.1⟩
  · rintro hfilled ⟨node, hnode, hnamed, hcredential, hlive⟩
    obtain ⟨fields, hfields, hrecord⟩ := (hmem node).mp hnode
    have hidentity := nodeOfFields_identity hrecord
    rw [Option.map_some, hcredential, hlive] at hidentity
    exact hfilled fields hfields (lacksCredential_iff.mpr ⟨node.id, hnamed, hidentity.symm⟩)

end Blank

/-! ## A blank token at work -/

/-- A parser that knows no text. -/
local instance blankParser : Serde := tableParser []

/-- A snapshot with a node that has a credential. -/
def nodeSnapshot : StoreFile := .snapshot "NODEWE-SNAPSHOT-V1\n[NODES]\nn1\tn1\tonline\tsecret\n"

/-- With the token `root`, a request that names this node and has no bearer token is turned away. -/
theorem authenticateRequest_blank_rejected : ∃ store,
    nodeSnapshot.load (exampleEnv 0) = .ok (some store) ∧ store.nodes.map Node.id = ["n1"] ∧
      (authenticateRequest exampleState (exampleEnv 0) store "/v1/agent/tasks?node_id=n1" ""
        "").authorized = false := by
  have hrecords : nodeSnapshot.nodeRecords =
      [["n1".toList, "n1".toList, "online".toList, "secret".toList]] := by rfl
  refine ⟨_, rfl, rfl, (authenticateRequest_blank_iff ⟨some (some " root\n"), none⟩ nodeSnapshot
    (exampleEnv 0) (by decide) rfl (exampleEnv 0) "/v1/agent/tasks?node_id=n1" "").mpr
      ⟨by rintro value ⟨⟩; decide, ?_⟩⟩
  rw [hrecords, List.forall_mem_singleton]
  exact fun hlacks => absurd hlacks.2.2 (by decide)

/-- With a blank environment variable, a request without a bearer token is the administrator's. -/
theorem authenticateRequest_blank_accepted :
    ¬ ∀ (source : SecretSource) (file : StoreFile) (st : State) (startup : Env) (store : Store),
        loadSecretValue "NODEWE_ADMIN_TOKEN" "NODEWE_ADMIN_TOKEN_FILE" source =
          .ok (some st.admin_token) →
        file.load startup = .ok (some store) → ∀ (env : Env) (path body : String),
          (authenticateRequest st env store path body "").authorized = false := by
  intro h
  have hrejected := h ⟨some (some " "), none⟩ (.snapshot "NODEWE-SNAPSHOT-V1\n")
    { exampleState with admin_token := "" } (exampleEnv 0) .empty (by decide) rfl
    (exampleEnv 0) "/v1/nodes" ""
  exact absurd hrejected (by decide)

/-- A node line of three fields lets a request without a bearer token in as the node. -/
example : ((StoreFile.legacy fun name => if name = "nodes.tsv" then some "n1\tn1\tonline\n" else
      none).load (exampleEnv 0)).map (Option.map fun store =>
        (authenticateRequest exampleState (exampleEnv 0) store "/agent/tasks?node_id=n1" ""
          "").node) = .ok (some true) :=
  rfl

end NodeWe.ControlPlane
