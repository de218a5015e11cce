import NodeWe.AtomicFiles
import NodeWe.ControlPlane.Snapshot

/-!
# The data directory

`persist_snapshot` replaces up to seven files one after the other: those that the older loader
reads, the snapshot after a copy of the old one, and the rest. `load_store` reads the snapshot, and
falls back to the older files where it cannot. Each file is encrypted when the process has a key.
A file in plain text that happens to begin like an encrypted one is not read (`Legible`).
-/

namespace NodeWe.ControlPlane

open Text AtomicFiles

/-! ## Encryption -/

/-- AES-256-GCM with a tag behind the ciphertext, which the crate `ring` provides. -/
class Aead where
  /-- `seal_in_place_append_tag`. -/
  sealed (key : Vector UInt8 32) (nonce plaintext : List UInt8) : List UInt8
  /-- `open_in_place`, where the tag is right. -/
  opened (key : Vector UInt8 32) (nonce ciphertext : List UInt8) : Option (List UInt8)

/-- What the program relies on the cipher for: what is sealed opens under the same key and nonce. -/
class LawfulAead [Aead] : Prop where
  opened_sealed (key : Vector UInt8 32) (nonce plaintext : List UInt8) :
    Aead.opened key nonce (Aead.sealed key nonce plaintext) = some plaintext

/-- `STORE_MAGIC`. -/
def storeMagic : List UInt8 := bytes "NWENC1"

/-- `NONCE_LEN`. -/
def nonceLen : ℕ := 12

section Encryption

variable [Aead]

/-- `encrypt_store`, under the nonce that it draws. -/
def encryptStore (plaintext : List UInt8) (key : Vector UInt8 32) (nonce : Vector UInt8 nonceLen) :
    List UInt8 :=
  storeMagic ++ nonce.toList ++ Aead.sealed key nonce.toList plaintext

/-- `decrypt_store`. -/
def decryptStore (ciphertext : List UInt8) (key : Vector UInt8 32) : Option (List UInt8) :=
  let minimum := storeMagic.length + nonceLen
  if ciphertext.length < minimum || !storeMagic.isPrefixOf ciphertext then none
  else Aead.opened key ((ciphertext.drop storeMagic.length).take nonceLen) (ciphertext.drop minimum)

/-- `encode_store_bytes`, under the result of `store_key`. -/
def encodeStoreBytes (store_key : Option (Vector UInt8 32)) (nonce : Vector UInt8 nonceLen)
    (contents : List UInt8) : List UInt8 :=
  match store_key with
  | some key => encryptStore contents key nonce
  | none => contents

/-- `decode_store_bytes`. -/
def decodeStoreBytes (store_key : Option (Vector UInt8 32)) (contents : List UInt8) :
    Option (List UInt8) :=
  if storeMagic.isPrefixOf contents then store_key.bind (decryptStore contents)
  else some contents

/-! ## Files -/

/-- The data directory. -/
abbrev Disk := Directory String (List UInt8)

/-- `read_store_text`. -/
def readStoreText (store_key : Option (Vector UInt8 32)) (dir : Disk) (name : String) :
    Option String :=
  (dir name).bind fun contents => (decodeStoreBytes store_key contents).bind fun plaintext =>
    String.fromUTF8? ⟨plaintext.toArray⟩

/-- What one call of `persist_snapshot` draws from outside: the process identifier, and the nonce
of each file. -/
structure Call where
  process_id : ℕ
  nonce : String → Vector UInt8 nonceLen

/-- The temporary name that a file is written under. -/
def temporaryName (call : Call) (stem : String) : String :=
  stem ++ "." ++ call.process_id.repr ++ ".tmp"

/-- A temporary name. -/
def IsTemporary (name : String) : Prop := endsWith name ".tmp" = true

/-- `atomic_write`. -/
def atomicWrite (store_key : Option (Vector UInt8 32)) (call : Call) (name stem contents : String) :
    Replacement String (List UInt8) where
  target := name
  temporary := temporaryName call stem
  contents := encodeStoreBytes store_key (call.nonce name) (bytes contents)

/-- The copy of the old snapshot that `atomic_write_with_backup` makes first, where there is
one. -/
def backupOf (store_key : Option (Vector UInt8 32)) (call : Call) (existing : List UInt8) :
    Replacement String (List UInt8) where
  target := "store.snapshot.bak"
  temporary := temporaryName call "store.snapshot.bak"
  contents :=
    match store_key with
    | some key =>
      if storeMagic.isPrefixOf existing then existing
      else encryptStore existing key (call.nonce "store.snapshot.bak")
    | none => existing

/-- The text of `nodes.tsv`. -/
def nodesTsv (store : Store) : String := String.join (store.nodes.map fun n => row (nodeFields n))

/-- The text of `tasks.tsv`. -/
def tasksTsv (store : Store) : String := String.join (store.tasks.map fun t => row (taskFields t))

/-- The text of `grants.tsv`. -/
def grantsTsv (store : Store) : String :=
  String.join (store.grants.map fun g => row (grantFields g))

/-- The text of `approvals.tsv`. -/
def approvalsTsv (store : Store) : String :=
  String.join (store.approvals.map fun a => row (approvalFields a))

/-- The snapshot that `persist_snapshot` builds of these texts. -/
def persistedSnapshot (store : Store) : String :=
  "NODEWE-SNAPSHOT-V1\n[NODES]\n" ++ nodesTsv store ++ "[TASKS]\n" ++ tasksTsv store ++
    "[GRANTS]\n" ++ grantsTsv store ++ "[APPROVALS]\n" ++ approvalsTsv store ++ "[AUDIT]\n" ++
    auditJsonl store.audit

/-- The files that `persist_snapshot` replaces, in order. -/
def replacements (store_key : Option (Vector UInt8 32)) (call : Call) (store : Store)
    (dir : Disk) : List (Replacement String (List UInt8)) :=
  let write := atomicWrite store_key call
  [write "nodes.tsv" "nodes" (nodesTsv store), write "tasks.tsv" "tasks" (tasksTsv store)] ++
    -- Nothing before this looks at the old snapshot, so it may be read up front.
    ((dir "store.snapshot").map (backupOf store_key call)).toList ++
    [write "store.snapshot" "store" (persistedSnapshot store),
      write "grants.tsv" "grants" (grantsTsv store),
      write "approvals.tsv" "approvals" (approvalsTsv store),
      write "audit.jsonl" "audit" (auditJsonl store.audit)]

/-- `persist_snapshot` into a directory, where a write or rename may fail: whether it returns `Ok`,
and the directory that it leaves. -/
def persistSnapshot (store_key : Option (Vector UInt8 32)) (call : Call) (store : Store)
    (failure : Option (ℕ × Option (List UInt8))) (dir : Disk) : Bool × Disk :=
  perform (replacements store_key call store dir) failure dir

/-- `load_store`. -/
def loadStore [Serde] (store_key : Option (Vector UInt8 32)) (env : Env) (dir : Disk) :
    Except Panic Store :=
  match readStoreText store_key dir "store.snapshot" with
  | none => loadLegacyStore env (readStoreText store_key dir)
  | some contents =>
    match parseSnapshot env contents with
    | .error panic => .error panic
    | .ok (some store) => .ok store
    | .ok none => loadLegacyStore env (readStoreText store_key dir)

/-! ## What a file reads as -/

/-- A text that is read back from its file: it is encrypted, or does not begin like an encrypted
file. -/
def Legible (store_key : Option (Vector UInt8 32)) (text : String) : Prop :=
  store_key.isSome = true ∨ storeMagic.isPrefixOf (bytes text) = false

instance (store_key : Option (Vector UInt8 32)) (text : String) :
    Decidable (Legible store_key text) :=
  inferInstanceAs (Decidable (_ ∨ _))

variable {store_key : Option (Vector UInt8 32)} {dir : Disk} {name : String}

/-- What is encrypted is opened under the nonce in front of it. -/
theorem decryptStore_sealed (plaintext : List UInt8) (key key' : Vector UInt8 32)
    (nonce : Vector UInt8 nonceLen) :
    decryptStore (encryptStore plaintext key nonce) key' =
      Aead.opened key' nonce.toList (Aead.sealed key nonce.toList plaintext) := by
  have hnonce : nonce.toList.length = nonceLen := nonce.length_toList
  have hmagic : storeMagic.isPrefixOf (encryptStore plaintext key nonce) = true := by
    rw [List.isPrefixOf_iff_prefix, encryptStore, List.append_assoc]
    exact List.prefix_append _ _
  have hlength : ¬(encryptStore plaintext key nonce).length < storeMagic.length + nonceLen := by
    rw [encryptStore, List.length_append, List.length_append, hnonce]
    omega
  have hdrop : (encryptStore plaintext key nonce).drop storeMagic.length =
      nonce.toList ++ Aead.sealed key nonce.toList plaintext := by
    rw [encryptStore, List.append_assoc, List.drop_left]
  unfold decryptStore
  rw [if_neg (by simp [hlength, hmagic]), ← List.drop_drop, hdrop, List.take_left' hnonce,
    List.drop_left' hnonce]

/-- What is encrypted is decrypted. -/
theorem decryptStore_encryptStore [LawfulAead] (plaintext : List UInt8) (key : Vector UInt8 32)
    (nonce : Vector UInt8 nonceLen) :
    decryptStore (encryptStore plaintext key nonce) key = some plaintext := by
  rw [decryptStore_sealed]
  exact LawfulAead.opened_sealed key nonce.toList plaintext

/-- A file that was written reads back, where its text is legible. -/
theorem readStoreText_written [LawfulAead] {nonce : Vector UInt8 nonceLen} {text : String}
    (h : dir name = some (encodeStoreBytes store_key nonce (bytes text))) :
    readStoreText store_key dir name = if Legible store_key text then some text else none := by
  rw [readStoreText, h, Option.bind_some]
  cases store_key with
  | none =>
    cases hmagic : storeMagic.isPrefixOf (bytes text) with
    | false => simp [encodeStoreBytes, decodeStoreBytes, hmagic, Legible, fromUTF8_bytes]
    | true => simp [encodeStoreBytes, decodeStoreBytes, hmagic, Legible]
  | some key =>
    have hmagic : storeMagic.isPrefixOf (encryptStore (bytes text) key nonce) = true := by
      rw [List.isPrefixOf_iff_prefix, encryptStore, List.append_assoc]
      exact List.prefix_append _ _
    simp [encodeStoreBytes, decodeStoreBytes, hmagic, Legible, fromUTF8_bytes,
      decryptStore_encryptStore]

/-- A file that is not there does not read. -/
theorem readStoreText_none (h : dir name = none) : readStoreText store_key dir name = none := by
  rw [readStoreText, h]
  rfl

/-- The loader looks at no temporary file. -/
theorem loadStore_agree [Serde] {dir' : Disk} (env : Env) (h : Agree IsTemporary dir dir') :
    loadStore store_key env dir = loadStore store_key env dir' := by
  have hread (name : String) (hname : endsWith name ".tmp" = false) :
      readStoreText store_key dir name = readStoreText store_key dir' name := by
    rw [readStoreText, readStoreText, h name (by rw [IsTemporary, hname]; exact Bool.false_ne_true)]
  have hlegacy : loadLegacyStore env (readStoreText store_key dir) =
      loadLegacyStore env (readStoreText store_key dir') := by
    unfold loadLegacyStore
    rw [hread "nodes.tsv" (by decide), hread "tasks.tsv" (by decide),
      hread "grants.tsv" (by decide), hread "approvals.tsv" (by decide)]
  unfold loadStore
  rw [hread "store.snapshot" (by decide), hlegacy]

end Encryption

end NodeWe.ControlPlane
