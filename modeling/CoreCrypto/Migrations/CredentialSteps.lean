import CoreCrypto.Migrations.MetaMigrations
import CoreCrypto.Migrations.ObjectStore

/-!
# The credentials of IndexedDB from version 6 to version 9

`v07` rewrites a credential in place if there is a ciphersuite for its signature scheme, and leaves
the others.  `v08` and `v09` read every row as a `StoredCredential`, so a row that was left makes
them fail, where SQL drops it.
-/

namespace CoreCrypto.Migrations

open Library Library.Fallible Wasm
open Keystore hiding CryptoKeystoreError

inductive StepError where
  | keystore (source : CryptoKeystoreError)
  | migration (source : MigrationError)
  deriving DecidableEq, Repr

/-! ### Credentials of version 6 -/

namespace V6Credential

/-- `V6Credential::primary_key`. -/
def primaryKey (hashes : Hashes) (v6 : V6Credential) : Bytes :=
  hashes.sha256 v6.publicKey

def withCiphersuite (v6 : V6Credential) (ciphersuite : Nat) : StoredCredential :=
  { sessionId := v6.sessionId
    credential := v6.credential
    createdAt := v6.createdAt
    ciphersuite
    publicKey := v6.publicKey
    privateKey := v6.privateKey }

def aad (hashes : Hashes) (v6 : V6Credential) : Aad :=
  ⟨(collectionName .storedCredential).toUTF8.toList, v6.primaryKey hashes⟩

section Forms

variable {Key : Type} (gcm : AesGcm Key) (hashes : Hashes)

/-- `EncryptedV6Credential`: ciphertexts in the place of the credential and the private key. -/
def encrypt (cipher : Key) (nonces : Nat → Nonce) (v6 : V6Credential) :
    Except CryptoKeystoreError V6Credential := do
  let credential ← encryptData gcm cipher (nonces 0) (v6.aad hashes) v6.credential
  let privateKey ← encryptData gcm cipher (nonces 1) (v6.aad hashes) v6.privateKey
  return { v6 with credential, privateKey }

def decrypt (cipher : Key) (form : V6Credential) : Except CryptoKeystoreError V6Credential := do
  let credential ← decryptData gcm cipher (form.aad hashes) form.credential
  let privateKey ← decryptData gcm cipher (form.aad hashes) form.privateKey
  return { form with credential, privateKey }

end Forms

end V6Credential

/-! ### The steps -/

/-- The state in an entity of a group. -/
def groupState? : Entity Bytes → Option Bytes
  | .persistedMlsGroup _ state _ => some state
  | _ => none

/-- The connection of a migration.  The object store of the credentials has rows of two forms:
those of version 6 are in `v6`, the others are in `idb` with the rows of the other stores. -/
structure MigrationDb (Key : Type) where
  cipher : Key
  v6 : AList (fun _ : Bytes => V6Credential)
  idb : Rows

namespace MigrationDb

variable {Key : Type} (gcm : AesGcm Key) (hashes : Hashes) (parse : Parsers)

/-- `Database::migration_connection`. -/
def conn (db : MigrationDb Key) : WasmEncryptedStorage Key :=
  .new db.cipher (.persistent db.idb)

/-- `PersistedMlsGroup::load_all`, of which the migrations use the states. -/
def loadGroups (db : MigrationDb Key) : Except CryptoKeystoreError (List Bytes) :=
  return (← db.conn.getAll gcm hashes .persistedMlsGroup).filterMap groupState?

/-- `V6Credential::load_all`: a row of the new form has no signature scheme. -/
def loadAllV6 (db : MigrationDb Key) : Except CryptoKeystoreError (List V6Credential) :=
  if db.idb.entries.any (·.1.typ = .storedCredential) then
    .error .serdeWasmBindgenError
  else
    db.v6.entries.mapM fun row => V6Credential.decrypt gcm hashes db.cipher row.2

/-- `StoredCredential::load_all`: a row of the form of version 6 has no ciphersuite. -/
def loadAll (db : MigrationDb Key) : Except CryptoKeystoreError (List StoredCredential) :=
  if db.v6.entries.isEmpty then
    (idbOps gcm hashes).loadAll db.conn
  else
    .error .serdeWasmBindgenError

/-- The row under the session id, whatever its form; the rows are stored under digests of public
keys. -/
def deleteCredentialBySessionId (db : MigrationDb Key) (sessionId : Bytes) : MigrationDb Key :=
  { db with
    v6 := db.v6.erase sessionId
    idb := db.idb.erase ⟨.storedCredential, sessionId⟩ }

/-- `StoredCredential::save`, which replaces a row of either form. -/
def saveCredential (nonces : Nat → Nonce) (credential : StoredCredential) (db : MigrationDb Key) :
    Except CryptoKeystoreError (MigrationDb Key) := do
  let form ← encrypt gcm hashes db.cipher nonces (.storedCredential credential)
  let key := credentialKey hashes credential
  return { db with
    v6 := db.v6.erase key
    idb := db.idb.insert ⟨.storedCredential, key⟩ form }

/-- One round of the loop of `v07`. -/
def rewriteCredential (ciphersuiteFor : Nat → Option Nat)
    (nonces : StoredCredential → Nat → Nonce) (db : MigrationDb Key) (v6 : V6Credential) :
    Except CryptoKeystoreError (MigrationDb Key) :=
  match ciphersuiteFor v6.signatureScheme with
  | none => .ok db
  | some ciphersuite =>
    let credential := v6.withCiphersuite ciphersuite
    (db.deleteCredentialBySessionId v6.sessionId).saveCredential gcm hashes (nonces credential)
      credential

/-- `v07::migrate`. -/
def migrateV07 (nonces : StoredCredential → Nat → Nonce) (db : MigrationDb Key) :
    Except StepError (MigrationDb Key) := do
  let groups ← (db.loadGroups gcm hashes).mapError .keystore
  let ciphersuiteFor ← (makeCiphersuiteForSignatureScheme parse groups).mapError .migration
  let credentials ← (db.loadAllV6 gcm hashes).mapError .keystore
  (credentials.foldlM (rewriteCredential gcm hashes ciphersuiteFor nonces) db).mapError .keystore

/-- `v08::migrate`.  Of two duplicates of which one is used, none is deleted. -/
def migrateV08 (db : MigrationDb Key) : Except StepError (MigrationDb Key) := do
  let groups ← (db.loadGroups gcm hashes).mapError .keystore
  let leastUsedCiphersuite ← (makeLeastUsedCiphersuite parse groups).mapError .migration
  let credentials ← (db.loadAll gcm hashes).mapError .keystore
  return (detectDuplicateCredentials credentials).foldl (fun db (a, b) =>
    match leastUsedCiphersuite a.ciphersuite b.ciphersuite with
    | none => (db.deleteCredentialBySessionId a.sessionId).deleteCredentialBySessionId b.sessionId
    | some _ => db) db

/-- The three steps.  The last one loads the rows of the object store as the second does, and
leaves none of the form of version 6. -/
def migrate (nonces : StoredCredential → Nat → Nonce) (db : MigrationDb Key) :
    Except StepError (WasmEncryptedStorage Key) := do
  let db ← db.migrateV07 gcm hashes parse nonces
  let db ← db.migrateV08 gcm hashes parse
  if db.v6.entries.isEmpty then
    (migrateV09 gcm hashes nonces db.conn).mapError .keystore
  else
    throw (.keystore .serdeWasmBindgenError)

end MigrationDb

/-! ### What is sealed once can be sealed again -/

section Sealing

variable {Key : Type} {gcm : AesGcm Key} {hashes : Hashes} {cipher : Key}

theorem encryptData_other_nonce (blind : gcm.NonceBlind) {nonce : Nonce} {aad : Aad}
    {data encrypted : Bytes} (ok : encryptData gcm cipher nonce aad data = .ok encrypted)
    (other : Nonce) : ∃ again, encryptData gcm cipher other aad data = .ok again := by
  unfold encryptData at ok ⊢
  split at ok
  · cases ok
  next ciphertext sealed =>
    have isSealed := blind cipher nonce other aad.serialize data (by simp [sealed])
    obtain ⟨again, sealedAgain⟩ := Option.isSome_iff_exists.mp isSealed
    exact ⟨other.val ++ again, by rw [sealedAgain]⟩

/-- The form is an encrypted one of the credential of version 6. -/
def V6Credential.SealedAs (gcm : AesGcm Key) (hashes : Hashes) (cipher : Key)
    (v6 form : V6Credential) : Prop :=
  ∃ nonces, v6.encrypt gcm hashes cipher nonces = .ok form

variable {v6 form : V6Credential}

theorem V6Credential.SealedAs.decrypt (sealed : v6.SealedAs gcm hashes cipher form) :
    V6Credential.decrypt gcm hashes cipher form = .ok v6 := by
  obtain ⟨nonces, ok⟩ := sealed
  obtain ⟨credential, first, rest⟩ := bind_eq_ok ok
  obtain ⟨privateKey, second, ⟨⟩⟩ := bind_eq_ok rest
  -- the associated data is that of the credential, as the public key is not encrypted
  change (decryptData gcm cipher (v6.aad hashes) credential >>= fun credential =>
    decryptData gcm cipher (v6.aad hashes) privateKey >>= _) = _
  rw [decryptData_encryptData gcm first, decryptData_encryptData gcm second]
  rfl

/-- The credential can be encrypted, whatever the nonces. -/
def Encryptable (gcm : AesGcm Key) (hashes : Hashes) (cipher : Key)
    (credential : StoredCredential) : Prop :=
  ∀ nonces, ∃ form, encrypt gcm hashes cipher nonces (.storedCredential credential) = .ok form

/-- The new form of a credential has the associated data of the old one. -/
theorem V6Credential.SealedAs.encryptable (blind : gcm.NonceBlind)
    (sealed : v6.SealedAs gcm hashes cipher form) (ciphersuite : Nat) :
    Encryptable gcm hashes cipher (v6.withCiphersuite ciphersuite) := by
  intro nonces
  obtain ⟨drawn, ok⟩ := sealed
  obtain ⟨credential, first, rest⟩ := bind_eq_ok ok
  obtain ⟨privateKey, second, ⟨⟩⟩ := bind_eq_ok rest
  obtain ⟨credential', first'⟩ := encryptData_other_nonce blind first (nonces 0)
  obtain ⟨privateKey', second'⟩ := encryptData_other_nonce blind second (nonces 1)
  refine ⟨.storedCredential { v6.withCiphersuite ciphersuite with
    credential := credential', privateKey := privateKey' }, ?_⟩
  change (encryptData gcm cipher (nonces 0) (v6.aad hashes) v6.credential >>= fun credential =>
    encryptData gcm cipher (nonces 1) (v6.aad hashes) v6.privateKey >>= _) = _
  rw [first', second']
  rfl

end Sealing

/-! ### The groups are not touched -/

theorem filter_kerase_of_not {κ : Type} {β : κ → Type} [DecidableEq κ] {p : Sigma β → Bool}
    {key : κ} (entries : List (Sigma β)) (dropped : ∀ e : Sigma β, e.1 = key → p e = false) :
    (entries.kerase key).filter p = entries.filter p := by
  induction entries with
  | nil => rfl
  | cons e rest ih =>
    by_cases same : key = e.1
    · rw [List.kerase_cons_eq same, List.filter_cons, dropped e same.symm]
      rfl
    · rw [List.kerase_cons_ne same, List.filter_cons, List.filter_cons, ih]

section Groups

variable {Key : Type} (gcm : AesGcm Key) (hashes : Hashes) (cipher : Key) (rows : Rows) (key : Bytes)

/-- What a collection without credentials lists depends on its own rows only. -/
theorem getAll_congr {typ : EntityType} {before after : Rows}
    (same : after.entries.filter (·.1.typ = typ) = before.entries.filter (·.1.typ = typ)) :
    WasmEncryptedStorage.getAll gcm hashes (.new cipher (.persistent after)) typ =
      WasmEncryptedStorage.getAll gcm hashes (.new cipher (.persistent before)) typ := by
  have noQuery (rows : Rows) : rows.entries.filter (fun entry =>
      entry.1.typ = typ ∧ ∀ key ∈ (none : Option Bytes), entry.1.id = key) =
        rows.entries.filter (·.1.typ = typ) := by simp
  simp only [WasmEncryptedStorage.getAll, WasmEncryptedStorage.getAllWithQuery,
    WasmEncryptedStorage.new, WasmStorageWrapper.values, noQuery, same]
  rfl

theorem groups_erase :
    (rows.erase ⟨.storedCredential, key⟩).entries.filter (·.1.typ = .persistedMlsGroup) =
      rows.entries.filter (·.1.typ = .persistedMlsGroup) :=
  filter_kerase_of_not rows.entries fun e same => by simp [same]

theorem groups_insert (form : Entity Bytes) :
    (rows.insert ⟨.storedCredential, key⟩ form).entries.filter (·.1.typ = .persistedMlsGroup) =
      rows.entries.filter (·.1.typ = .persistedMlsGroup) := by
  rw [AList.entries_insert, List.filter_cons_of_neg (by simp)]
  exact filter_kerase_of_not rows.entries fun e same => by simp [same]

end Groups

/-! ### The rows that `v07` makes -/

section Rewriting

variable (hashes : Hashes) (ciphersuiteFor : Nat → Option Nat) {done : List V6Credential}
  {v6 : V6Credential}

/-- The row that is made of a credential, if there is a ciphersuite. -/
def rewriteRow (v6 : V6Credential) : Option (CredentialRow Bytes) :=
  (ciphersuiteFor v6.signatureScheme).map fun ciphersuite =>
    ⟨v6.primaryKey hashes, v6.withCiphersuite ciphersuite⟩

/-- What one round does to the rows of the new form. -/
def rewriteRows (rows : List (CredentialRow Bytes)) (v6 : V6Credential) :
    List (CredentialRow Bytes) :=
  match rewriteRow hashes ciphersuiteFor v6 with
  | none => rows
  | some row => deleteWhere CredentialRow.key rows v6.sessionId ++ [row]

def rewrittenRows (done : List V6Credential) : List (CredentialRow Bytes) :=
  done.foldl (rewriteRows hashes ciphersuiteFor) []

variable {hashes ciphersuiteFor}

theorem rewrittenRows_snoc (done : List V6Credential) (v6 : V6Credential) :
    rewrittenRows hashes ciphersuiteFor (done ++ [v6]) =
      rewriteRows hashes ciphersuiteFor (rewrittenRows hashes ciphersuiteFor done) v6 := by
  rw [rewrittenRows, List.foldl_append]
  rfl

theorem rewriteRow_eq_some {row : CredentialRow Bytes} :
    rewriteRow hashes ciphersuiteFor v6 = some row ↔
      ∃ ciphersuite, ciphersuiteFor v6.signatureScheme = some ciphersuite ∧
        row = ⟨v6.primaryKey hashes, v6.withCiphersuite ciphersuite⟩ := by
  simp [rewriteRow, eq_comm]

theorem key_of_rewriteRow {row : CredentialRow Bytes}
    (made : rewriteRow hashes ciphersuiteFor v6 = some row) : row.key = v6.primaryKey hashes := by
  obtain ⟨ciphersuite, -, rfl⟩ := rewriteRow_eq_some.mp made
  rfl

theorem rewriteRow_isSome :
    (rewriteRow hashes ciphersuiteFor v6).isSome = (ciphersuiteFor v6.signatureScheme).isSome := by
  simp [rewriteRow]

theorem isSome_of_rewriteRow {row : CredentialRow Bytes}
    (made : rewriteRow hashes ciphersuiteFor v6 = some row) :
    (ciphersuiteFor v6.signatureScheme).isSome = true := by
  obtain ⟨ciphersuite, mapped, -⟩ := rewriteRow_eq_some.mp made
  rw [mapped]
  rfl

theorem of_mem_rewrittenRows {row : CredentialRow Bytes}
    (member : row ∈ rewrittenRows hashes ciphersuiteFor done) :
    ∃ v6 ∈ done, rewriteRow hashes ciphersuiteFor v6 = some row := by
  induction done using List.reverseRecOn with
  | nil => cases member
  | append_singleton done last ih =>
    have earlier (kept : row ∈ rewrittenRows hashes ciphersuiteFor done) :
        ∃ v6 ∈ done ++ [last], rewriteRow hashes ciphersuiteFor v6 = some row := by
      obtain ⟨v6, inDone, made⟩ := ih kept
      exact ⟨v6, List.mem_append_left _ inDone, made⟩
    rw [rewrittenRows_snoc, rewriteRows] at member
    split at member
    · exact earlier member
    next own made =>
      rcases List.mem_append.mp member with kept | isOwn
      · exact earlier ((mem_deleteWhere ..).mp kept).1
      · cases List.mem_singleton.mp isOwn
        exact ⟨last, by simp, made⟩

/-- The deletion for the later credential does not hit the row of the earlier one. -/
def Spares (hashes : Hashes) (ciphersuiteFor : Nat → Option Nat) (earlier later : V6Credential) :
    Prop :=
  (ciphersuiteFor earlier.signatureScheme).isSome → (ciphersuiteFor later.signatureScheme).isSome →
    later.sessionId ≠ earlier.primaryKey hashes

/-- No row that was made is deleted again iff the deletions spare the earlier rows. -/
theorem rewritten_all_iff (distinct : DistinctKeys (V6Credential.primaryKey hashes) done) :
    (∀ v6 ∈ done, ∀ row, rewriteRow hashes ciphersuiteFor v6 = some row →
      row ∈ rewrittenRows hashes ciphersuiteFor done) ↔
        done.Pairwise (Spares hashes ciphersuiteFor) := by
  induction done using List.reverseRecOn with
  | nil => simp
  | append_singleton done last ih =>
    obtain ⟨distinctDone, fresh⟩ := (distinctKeys_snoc _).mp distinct
    rw [List.pairwise_append, ← ih distinctDone, rewrittenRows_snoc, rewriteRows]
    cases made : rewriteRow hashes ciphersuiteFor last with
    | none =>
      have unmapped : (ciphersuiteFor last.signatureScheme).isSome = false := by
        rw [← rewriteRow_isSome, made]
        rfl
      simp [Spares, unmapped, or_imp, forall_and, made]
    | some own =>
      have notOwn {v6 : V6Credential} (inDone : v6 ∈ done) {row : CredentialRow Bytes}
          (isRow : rewriteRow hashes ciphersuiteFor v6 = some row) : row ≠ own := by
        rintro rfl
        exact fresh ((key_of_rewriteRow isRow).symm.trans (key_of_rewriteRow made) ▸
          List.mem_map_of_mem inDone)
      simp only [List.mem_append, List.mem_singleton, mem_deleteWhere]
      constructor
      · intro kept
        have earlier {v6 : V6Credential} (inDone : v6 ∈ done) {row : CredentialRow Bytes}
            (isRow : rewriteRow hashes ciphersuiteFor v6 = some row) :
            row ∈ rewrittenRows hashes ciphersuiteFor done ∧ row.key ≠ last.sessionId :=
          (kept v6 (.inl inDone) row isRow).resolve_right (notOwn inDone isRow)
        refine ⟨fun v6 inDone row isRow => (earlier inDone isRow).1, by simp, ?_⟩
        rintro v6 inDone _ rfl isMappedToo -
        rw [← rewriteRow_isSome, Option.isSome_iff_exists] at isMappedToo
        obtain ⟨row, isRow⟩ := isMappedToo
        rw [← key_of_rewriteRow isRow]
        exact (earlier inDone isRow).2.symm
      · rintro ⟨kept, -, spares⟩ v6 (inDone | rfl) row isRow
        · refine .inl ⟨kept v6 inDone row isRow, ?_⟩
          rw [key_of_rewriteRow isRow]
          exact (spares v6 inDone last rfl (isSome_of_rewriteRow isRow)
            (isSome_of_rewriteRow made)).symm
        · exact .inr (Option.some.inj (isRow.symm.trans made))

end Rewriting

/-! ### The loop of `v07` -/

namespace MigrationDb

variable {Key : Type} {gcm : AesGcm Key} {hashes : Hashes} {ciphersuiteFor : Nat → Option Nat}
  (nonces : StoredCredential → Nat → Nonce) {start db : MigrationDb Key} {done : List V6Credential}

theorem loadGroups_congr {other : MigrationDb Key} (cipher : other.cipher = db.cipher)
    (same : other.idb.entries.filter (·.1.typ = .persistedMlsGroup) =
      db.idb.entries.filter (·.1.typ = .persistedMlsGroup)) :
    other.loadGroups gcm hashes = db.loadGroups gcm hashes := by
  rw [loadGroups, loadGroups, conn, conn, cipher, getAll_congr gcm hashes db.cipher same]

/-- What the loop has made of the database with the credentials that are done. -/
structure Rewritten (gcm : AesGcm Key) (hashes : Hashes) (ciphersuiteFor : Nat → Option Nat)
    (start : MigrationDb Key) (done : List V6Credential) (db : MigrationDb Key) : Prop where
  cipher : db.cipher = start.cipher
  groups : db.loadGroups gcm hashes = start.loadGroups gcm hashes
  stores : Stores gcm hashes start.cipher db.idb (rewrittenRows hashes ciphersuiteFor done)
  v6 : ∀ key, key ∈ db.v6 ↔ key ∈ start.v6 ∧
    ∀ v6 ∈ done, (ciphersuiteFor v6.signatureScheme).isSome →
      key ≠ v6.sessionId ∧ key ≠ v6.primaryKey hashes

theorem rewriteCredential_rewritten (rewritten : Rewritten gcm hashes ciphersuiteFor start done db)
    {v6 : V6Credential} (distinct : DistinctKeys (V6Credential.primaryKey hashes) (done ++ [v6]))
    (encryptable : ∀ ciphersuite,
      Encryptable gcm hashes start.cipher (v6.withCiphersuite ciphersuite)) :
    ∃ after, rewriteCredential gcm hashes ciphersuiteFor nonces db v6 = .ok after ∧
      Rewritten gcm hashes ciphersuiteFor start (done ++ [v6]) after := by
  cases mapped : ciphersuiteFor v6.signatureScheme with
  | none =>
    have notMade : rewriteRow hashes ciphersuiteFor v6 = none := by simp [rewriteRow, mapped]
    refine ⟨db, by rw [rewriteCredential, mapped], rewritten.cipher, rewritten.groups, ?_, ?_⟩
    · rw [rewrittenRows_snoc, rewriteRows, notMade]
      exact rewritten.stores
    · intro key
      rw [rewritten.v6]
      simp [or_imp, forall_and, mapped]
  | some ciphersuite =>
    obtain ⟨form, encrypted⟩ := encryptable ciphersuite (nonces (v6.withCiphersuite ciphersuite))
    obtain ⟨row, made, isRow⟩ : ∃ row, rewriteRow hashes ciphersuiteFor v6 = some row ∧
        row = ⟨v6.primaryKey hashes, v6.withCiphersuite ciphersuite⟩ := by
      simp [rewriteRow, mapped]
    have sealed : SealedAs gcm hashes start.cipher (.storedCredential row.credential) form := by
      rw [isRow]
      exact ⟨_, encrypted⟩
    -- no other row is under the digest of the public key
    have fresh : row.key ∉
        (deleteWhere CredentialRow.key (rewrittenRows hashes ciphersuiteFor done)
          v6.sessionId).map CredentialRow.key := by
      rintro found
      obtain ⟨stored, member, isKey⟩ := List.mem_map.mp found
      obtain ⟨other, inDone, madeOther⟩ := of_mem_rewrittenRows ((mem_deleteWhere ..).mp member).1
      rw [key_of_rewriteRow madeOther, key_of_rewriteRow made] at isKey
      exact ((distinctKeys_snoc _).mp distinct).2 (isKey ▸ List.mem_map_of_mem inDone)
    refine ⟨{ db with
      v6 := (db.v6.erase v6.sessionId).erase (v6.primaryKey hashes)
      idb := (db.idb.erase ⟨.storedCredential, v6.sessionId⟩).insert
        ⟨.storedCredential, v6.primaryKey hashes⟩ form }, ?_, rewritten.cipher, ?_, ?_, ?_⟩
    · rw [← rewritten.cipher] at encrypted
      rw [rewriteCredential, mapped]
      change (encrypt gcm hashes db.cipher _ _ >>= _) = _
      rw [encrypted]
      rfl
    · rw [← rewritten.groups]
      refine loadGroups_congr rfl ?_
      rw [groups_insert, groups_erase]
    · rw [rewrittenRows_snoc, rewriteRows, made]
      rw [← key_of_rewriteRow made]
      exact (rewritten.stores.erase v6.sessionId).insert fresh sealed
    · intro key
      rw [AList.mem_erase, AList.mem_erase, rewritten.v6]
      simp only [ne_eq, List.mem_append, List.mem_singleton, or_imp, forall_and, forall_eq, mapped,
        Option.isSome_some, forall_const]
      tauto

theorem foldlM_rewritten (rewritten : Rewritten gcm hashes ciphersuiteFor start done db)
    {rest : List V6Credential}
    (distinct : DistinctKeys (V6Credential.primaryKey hashes) (done ++ rest))
    (encryptable : ∀ v6 ∈ rest, ∀ ciphersuite,
      Encryptable gcm hashes start.cipher (v6.withCiphersuite ciphersuite)) :
    ∃ after, rest.foldlM (rewriteCredential gcm hashes ciphersuiteFor nonces) db = .ok after ∧
      Rewritten gcm hashes ciphersuiteFor start (done ++ rest) after := by
  induction rest generalizing db done with
  | nil => exact ⟨db, rfl, by simpa using rewritten⟩
  | cons v6 rest ih =>
    have split : done ++ v6 :: rest = done ++ [v6] ++ rest := by simp
    rw [split] at distinct ⊢
    obtain ⟨middle, first, rewrittenMiddle⟩ := rewriteCredential_rewritten nonces rewritten
      (distinct.sublist ((List.sublist_append_left _ _).map _)) (encryptable v6 (by simp))
    obtain ⟨after, others, rewrittenAfter⟩ := ih rewrittenMiddle distinct
      fun other member => encryptable other (by simp [member])
    exact ⟨after, by rw [List.foldlM_cons, first]; exact others, rewrittenAfter⟩

end MigrationDb

/-! ### The later steps -/

section Loading

variable {Key : Type} {gcm : AesGcm Key} {hashes : Hashes} {cipher : Key} {store : Rows}
  {rows : List (CredentialRow Bytes)} {credentials : List StoredCredential}

theorem detectDuplicateCredentials_of_distinct
    (distinct : DistinctKeys StoredCredential.publicKey credentials) :
    detectDuplicateCredentials credentials = [] := by
  induction credentials with
  | nil => rfl
  | cons a rest ih =>
    obtain ⟨fresh, others⟩ := List.nodup_cons.mp distinct
    have none : rest.filter (a.publicKey = ·.publicKey) = [] := by
      refine List.filter_eq_nil_iff.mpr fun b member same => fresh ?_
      rw [of_decide_eq_true same]
      exact List.mem_map_of_mem member
    rw [detectDuplicateCredentials, none, ih others]
    rfl

theorem foldlM_putMigrated (nonces : StoredCredential → Nat → Nonce)
    (encryptable : ∀ credential ∈ credentials, Encryptable gcm hashes cipher credential)
    (store : Rows) :
    ∃ after, credentials.foldlM (putMigrated gcm hashes cipher nonces) store = .ok after := by
  induction credentials generalizing store with
  | nil => exact ⟨store, rfl⟩
  | cons credential rest ih =>
    obtain ⟨form, encrypted⟩ := encryptable credential (by simp) (nonces credential)
    have puts : putMigrated gcm hashes cipher nonces store credential =
        .ok (store.insert ⟨.storedCredential, credential.publicKey⟩ form) := by
      rw [putMigrated, encrypted]
      rfl
    rw [List.foldlM_cons, puts]
    exact ih (fun other member => encryptable other (by simp [member])) _

theorem migrateV09_perm (nonces : StoredCredential → Nat → Nonce)
    (loads : (idbOps gcm hashes).loadAll ⟨.persistent store, cipher⟩ = .ok credentials)
    (distinct : DistinctKeys StoredCredential.publicKey credentials)
    (encryptable : ∀ credential ∈ credentials, Encryptable gcm hashes cipher credential) :
    ∃ after left, migrateV09 gcm hashes nonces ⟨.persistent store, cipher⟩ = .ok after ∧
      (idbOps gcm hashes).loadAll after = .ok left ∧ left.Perm credentials := by
  obtain ⟨filled, puts⟩ := foldlM_putMigrated nonces encryptable
    (removeObjectStore .storedCredential store)
  have migrates : migrateV09 gcm hashes nonces ⟨.persistent store, cipher⟩ =
      .ok ⟨.persistent filled, cipher⟩ := by
    simp only [migrateV09, loads, ok_bind, puts]
    rfl
  obtain ⟨store', isAfter, stores'⟩ := stores_migrateV09 loads distinct migrates
  cases isAfter
  obtain ⟨left, loadsLeft, perm⟩ := stores'.loadAll
  refine ⟨_, left, migrates, loadsLeft, ?_⟩
  rwa [List.map_map, show CredentialRow.credential ∘ putRow = id from rfl, List.map_id] at perm

end Loading

/-! ### Both ways compared -/

section Agreement

variable {Key : Type} (gcm : AesGcm Key) (hashes : Hashes) (parse : Parsers)

/-- The database at version 6: these groups, and these credentials in the order in which they are
loaded, each encrypted under its primary key. -/
structure HoldsV6 (db : MigrationDb Key) (groups : List Bytes) (credentials : List V6Credential) :
    Prop where
  groups : db.loadGroups gcm hashes = .ok groups
  rows : List.Forall₂ (fun v6 (row : Sigma fun _ : Bytes => V6Credential) =>
    row.1 = v6.primaryKey hashes ∧ v6.SealedAs gcm hashes db.cipher row.2) credentials db.v6.entries
  unmigrated : ∀ row ∈ db.idb.entries, row.1.typ ≠ .storedCredential

/-- The credentials for which there is a ciphersuite, with it. -/
def migratedCredentials (ciphersuiteFor : Nat → Option Nat) (credentials : List V6Credential) :
    List StoredCredential :=
  credentials.filterMap fun v6 =>
    (ciphersuiteFor v6.signatureScheme).map v6.withCiphersuite

/-- The steps of IndexedDB succeed, and leave the credentials that the meta migrations of SQL
leave: those with a ciphersuite. -/
def MigrationsAgree (ciphersuiteFor : Nat → Option Nat) (nonces : StoredCredential → Nat → Nonce)
    (db : MigrationDb Key) (groups : List Bytes) (credentials : List V6Credential) : Prop :=
  ∃ after left, db.migrate gcm hashes parse nonces = .ok after ∧
    (idbOps gcm hashes).loadAll after = .ok left ∧
    (metaV18 parse groups credentials [] >>= metaV19 parse groups) =
      .ok (migratedCredentials ciphersuiteFor credentials) ∧
    left.Perm (migratedCredentials ciphersuiteFor credentials)

/-- A credential without a ciphersuite is deleted with another, and no deletion hits a credential
that was rewritten. -/
structure Rewritable (ciphersuiteFor : Nat → Option Nat) (credentials : List V6Credential) :
    Prop where
  deleted : ∀ v6 ∈ credentials, ciphersuiteFor v6.signatureScheme = none →
    ∃ other ∈ credentials, (ciphersuiteFor other.signatureScheme).isSome ∧
      other.sessionId = v6.primaryKey hashes
  spared : credentials.Pairwise (Spares hashes ciphersuiteFor)

variable {gcm hashes parse} {db : MigrationDb Key} {groups : List Bytes}
  {credentials : List V6Credential} {ciphersuiteFor : Nat → Option Nat}
  {nonces : StoredCredential → Nat → Nonce}

namespace HoldsV6

theorem keys (holds : HoldsV6 gcm hashes db groups credentials) :
    db.v6.keys = credentials.map (V6Credential.primaryKey hashes) := by
  have rows : List.Forall₂ (· = ·) (db.v6.entries.map Sigma.fst)
      (credentials.map (V6Credential.primaryKey hashes)) := by
    rw [List.forall₂_map_left_iff, List.forall₂_map_right_iff]
    exact List.Forall₂.flip (holds.rows.imp fun _ _ stored => stored.1)
  rwa [List.forall₂_eq_eq_eq] at rows

theorem distinct (holds : HoldsV6 gcm hashes db groups credentials) :
    DistinctKeys (V6Credential.primaryKey hashes) credentials := by
  rw [DistinctKeys, ← holds.keys]
  exact db.v6.keys_nodup

theorem loadAllV6 (holds : HoldsV6 gcm hashes db groups credentials) :
    db.loadAllV6 gcm hashes = .ok credentials := by
  have none : db.idb.entries.any (·.1.typ = .storedCredential) = false :=
    List.any_eq_false.mpr fun row member isCredential =>
      holds.unmigrated row member (of_decide_eq_true isCredential)
  rw [MigrationDb.loadAllV6, none, if_neg Bool.false_ne_true, mapM_eq_ok_iff]
  exact List.Forall₂.flip (holds.rows.imp fun _ _ stored => stored.2.decrypt)

theorem encryptable (holds : HoldsV6 gcm hashes db groups credentials) (blind : gcm.NonceBlind)
    {v6 : V6Credential} (member : v6 ∈ credentials) (ciphersuite : Nat) :
    Encryptable gcm hashes db.cipher (v6.withCiphersuite ciphersuite) := by
  obtain ⟨place, rfl⟩ := List.mem_iff_get.mp member
  obtain ⟨-, sealed⟩ := holds.rows.get place.isLt (holds.rows.length_eq ▸ place.isLt)
  exact sealed.encryptable blind ciphersuite

theorem rewritten (holds : HoldsV6 gcm hashes db groups credentials) :
    MigrationDb.Rewritten gcm hashes ciphersuiteFor db [] db := by
  refine ⟨rfl, rfl, ⟨by simp [DistinctKeys, rewrittenRows], nofun, fun key form found => ?_⟩, by simp⟩
  exact absurd rfl (holds.unmigrated _ (AList.mem_lookup_iff.mp found))

theorem mem_v6 (holds : HoldsV6 gcm hashes db groups credentials) (key : Bytes) :
    key ∈ db.v6 ↔ ∃ v6 ∈ credentials, v6.primaryKey hashes = key := by
  rw [AList.mem_keys, holds.keys, List.mem_map]

theorem migrateV07 (holds : HoldsV6 gcm hashes db groups credentials) (blind : gcm.NonceBlind)
    (reads : makeCiphersuiteForSignatureScheme parse groups = .ok ciphersuiteFor)
    (nonces : StoredCredential → Nat → Nonce) :
    ∃ after, db.migrateV07 gcm hashes parse nonces = .ok after ∧
      MigrationDb.Rewritten gcm hashes ciphersuiteFor db credentials after := by
  obtain ⟨after, loops, rewritten⟩ := MigrationDb.foldlM_rewritten nonces
    holds.rewritten holds.distinct fun v6 member => holds.encryptable blind member
  refine ⟨after, ?_, rewritten⟩
  simp only [MigrationDb.migrateV07, holds.groups, reads, holds.loadAllV6, loops, Except.mapError,
    ok_bind]

end HoldsV6

/-- The rows of version 6 are gone iff those without a ciphersuite were deleted. -/
theorem isEmpty_v6_iff {after : MigrationDb Key} (holds : HoldsV6 gcm hashes db groups credentials)
    (rewritten : MigrationDb.Rewritten gcm hashes ciphersuiteFor db credentials after) :
    after.v6.entries.isEmpty ↔ ∀ v6 ∈ credentials, ciphersuiteFor v6.signatureScheme = none →
      ∃ other ∈ credentials, (ciphersuiteFor other.signatureScheme).isSome ∧
        other.sessionId = v6.primaryKey hashes := by
  have noKeys : after.v6.entries.isEmpty ↔ ∀ key, key ∉ after.v6 := by
    rw [List.isEmpty_iff, ← List.map_eq_nil_iff (f := Sigma.fst), List.eq_nil_iff_forall_not_mem]
    rfl
  simp only [noKeys, rewritten.v6, holds.mem_v6]
  constructor
  · intro gone v6 member unmapped
    by_contra notDeleted
    refine gone _ ⟨⟨v6, member, rfl⟩, fun other memberOther mapped => ⟨?_, ?_⟩⟩
    · exact fun same => notDeleted ⟨other, memberOther, mapped, same.symm⟩
    · intro same
      cases List.inj_on_of_nodup_map holds.distinct member memberOther same
      rw [unmapped] at mapped
      cases mapped
  · rintro deleted _ ⟨⟨v6, member, rfl⟩, kept⟩
    cases mapped : ciphersuiteFor v6.signatureScheme with
    | none =>
      obtain ⟨other, memberOther, isMapped, same⟩ := deleted v6 member mapped
      exact (kept other memberOther isMapped).1 same.symm
    | some ciphersuite => exact (kept v6 member (by simp [mapped])).2 rfl

/-- Once no row of version 6 is left, the later steps leave the credentials that were rewritten. -/
theorem migrate_of_rewritten (holds : HoldsV6 gcm hashes db groups credentials)
    (blind : gcm.NonceBlind)
    (reads : makeCiphersuiteForSignatureScheme parse groups = .ok ciphersuiteFor)
    {middle : MigrationDb Key} (first : db.migrateV07 gcm hashes parse nonces = .ok middle)
    (rewritten : MigrationDb.Rewritten gcm hashes ciphersuiteFor db credentials middle)
    (noneLeft : middle.v6.entries.isEmpty) :
    ∃ after left, db.migrate gcm hashes parse nonces = .ok after ∧
      (idbOps gcm hashes).loadAll after = .ok left ∧
      DistinctKeys StoredCredential.publicKey left ∧
      left.Perm ((rewrittenRows hashes ciphersuiteFor credentials).map CredentialRow.credential) := by
  obtain ⟨occurences, counted, -⟩ := bind_eq_ok reads
  obtain ⟨loaded, loads, shows⟩ := rewritten.stores.loadAll
  -- the keys of the rows are made of the public keys
  have distinct : DistinctKeys StoredCredential.publicKey loaded := by
    rw [DistinctKeys, (shows.map _).nodup_iff]
    refine .of_map hashes.sha256 ?_
    have keyed : ∀ row ∈ rewrittenRows hashes ciphersuiteFor credentials,
        hashes.sha256 row.credential.publicKey = row.key := by
      intro row member
      obtain ⟨v6, -, made⟩ := of_mem_rewrittenRows member
      obtain ⟨ciphersuite, -, rfl⟩ := rewriteRow_eq_some.mp made
      rfl
    rw [List.map_map, List.map_map]
    exact List.map_congr_left keyed ▸ rewritten.stores.distinct
  have encryptable (credential) (member : credential ∈ loaded) :
      Encryptable gcm hashes db.cipher credential := by
    obtain ⟨row, isRow, rfl⟩ := List.mem_map.mp (shows.mem_iff.mp member)
    obtain ⟨v6, inCredentials, made⟩ := of_mem_rewrittenRows isRow
    obtain ⟨ciphersuite, -, rfl⟩ := rewriteRow_eq_some.mp made
    exact holds.encryptable blind inCredentials ciphersuite
  obtain ⟨after, left, last, loadsLeft, perm⟩ := migrateV09_perm nonces loads distinct encryptable
  have conn : middle.conn = ⟨.persistent middle.idb, db.cipher⟩ := by
    rw [MigrationDb.conn, rewritten.cipher]
    rfl
  have second : middle.migrateV08 gcm hashes parse = .ok middle := by
    have loadsMiddle : middle.loadAll gcm hashes = .ok loaded := by
      rw [MigrationDb.loadAll, if_pos noneLeft, conn, loads]
    simp only [MigrationDb.migrateV08, rewritten.groups, holds.groups, makeLeastUsedCiphersuite,
      counted, loadsMiddle, detectDuplicateCredentials_of_distinct distinct, Except.mapError,
      ok_bind]
    rfl
  refine ⟨after, left, ?_, loadsLeft, (perm.map _).nodup_iff.mpr distinct, perm.trans shows⟩
  simp only [MigrationDb.migrate, first, second, ok_bind, noneLeft, if_pos, conn, last,
    Except.mapError]

theorem publicKey_migratedCredentials :
    ((migratedCredentials ciphersuiteFor credentials).map StoredCredential.publicKey).Sublist
      (credentials.map V6Credential.publicKey) := by
  induction credentials with
  | nil => exact .slnil
  | cons v6 rest ih =>
    rw [migratedCredentials, List.filterMap_cons, List.map_cons]
    cases ciphersuiteFor v6.signatureScheme with
    | none => exact ih.cons _
    | some ciphersuite => exact ih.cons_cons _

/-- The meta migrations of SQL find no duplicates. -/
theorem metaMigrations_eq
    (reads : makeCiphersuiteForSignatureScheme parse groups = .ok ciphersuiteFor)
    (distinct : DistinctKeys StoredCredential.publicKey
      (migratedCredentials ciphersuiteFor credentials)) :
    (metaV18 parse groups credentials [] >>= metaV19 parse groups) =
      .ok (migratedCredentials ciphersuiteFor credentials) := by
  obtain ⟨occurences, counted, -⟩ := bind_eq_ok reads
  have first : metaV18 parse groups credentials [] =
      .ok (migratedCredentials ciphersuiteFor credentials) := by
    rw [metaV18, reads]
    rfl
  rw [first, ok_bind, metaV19, makeLeastUsedCiphersuite, counted]
  simp only [ok_bind, detectDuplicateCredentials_of_distinct distinct]
  rfl

theorem mem_migratedCredentials {credential : StoredCredential} :
    credential ∈ migratedCredentials ciphersuiteFor credentials ↔
      ∃ v6 ∈ credentials, ∃ row, rewriteRow hashes ciphersuiteFor v6 = some row ∧
        row.credential = credential := by
  simp [migratedCredentials, rewriteRow]

/-- A row is told by its credential. -/
theorem eq_of_credential_eq {v6 other : V6Credential} {row rowOther : CredentialRow Bytes}
    (made : rewriteRow hashes ciphersuiteFor v6 = some row)
    (madeOther : rewriteRow hashes ciphersuiteFor other = some rowOther)
    (same : rowOther.credential = row.credential) : rowOther = row := by
  obtain ⟨ciphersuite, -, rfl⟩ := rewriteRow_eq_some.mp made
  obtain ⟨ciphersuite', -, rfl⟩ := rewriteRow_eq_some.mp madeOther
  have samePublicKey : other.publicKey = v6.publicKey := congrArg StoredCredential.publicKey same
  exact (CredentialRow.mk.injEq ..).mpr ⟨congrArg hashes.sha256 samePublicKey, same⟩

theorem isEmpty_of_migrateV08 {before after : MigrationDb Key}
    (migrates : before.migrateV08 gcm hashes parse = .ok after) : before.v6.entries.isEmpty := by
  obtain ⟨_, -, migrates⟩ := bind_eq_ok migrates
  obtain ⟨_, -, migrates⟩ := bind_eq_ok migrates
  obtain ⟨loaded, loads, -⟩ := bind_eq_ok migrates
  rw [mapError_eq_ok, MigrationDb.loadAll] at loads
  split at loads
  next noneLeft => exact noneLeft
  · cases loads

/-- **The migrations of the credentials.**  The steps of IndexedDB succeed and leave what the meta
migrations of SQL leave iff every credential without a ciphersuite happens to be deleted with
another one, and no credential that was rewritten is. -/
theorem migrations_agree_iff_rewritable (blind : gcm.NonceBlind)
    (holds : HoldsV6 gcm hashes db groups credentials)
    (reads : makeCiphersuiteForSignatureScheme parse groups = .ok ciphersuiteFor)
    (nonces : StoredCredential → Nat → Nonce) :
    MigrationsAgree gcm hashes parse ciphersuiteFor nonces db groups credentials ↔
      Rewritable hashes ciphersuiteFor credentials := by
  obtain ⟨middle, first, rewritten⟩ := holds.migrateV07 blind reads nonces
  have distinct : DistinctKeys StoredCredential.publicKey
      (migratedCredentials ciphersuiteFor credentials) := by
    have publicKeys : DistinctKeys V6Credential.publicKey credentials :=
      List.Nodup.of_map hashes.sha256 (by rw [List.map_map]; exact holds.distinct)
    exact publicKeys.sublist publicKey_migratedCredentials
  constructor
  · rintro ⟨after, left, migrates, loads, -, perm⟩
    have noneLeft : middle.v6.entries.isEmpty := by
      obtain ⟨middle', first', migrates⟩ := bind_eq_ok migrates
      cases first.symm.trans first'
      obtain ⟨_, second, -⟩ := bind_eq_ok migrates
      exact isEmpty_of_migrateV08 second
    refine ⟨(isEmpty_v6_iff holds rewritten).mp noneLeft,
      (rewritten_all_iff holds.distinct).mp fun v6 member row made => ?_⟩
    obtain ⟨after', left', migrates', loads', -, shows⟩ :=
      migrate_of_rewritten holds blind reads first rewritten noneLeft
    cases migrates.symm.trans migrates'
    cases loads.symm.trans loads'
    -- the row is left, for its credential is
    have isLeft : row.credential ∈ left :=
      perm.mem_iff.mpr (mem_migratedCredentials.mpr ⟨v6, member, row, made, rfl⟩)
    obtain ⟨other, isRow, same⟩ := List.mem_map.mp (shows.mem_iff.mp isLeft)
    obtain ⟨v6', -, madeOther⟩ := of_mem_rewrittenRows isRow
    exact eq_of_credential_eq made madeOther same ▸ isRow
  · rintro ⟨deleted, spared⟩
    obtain ⟨after, left, migrates, loads, distinctLeft, shows⟩ :=
      migrate_of_rewritten holds blind reads first rewritten
        ((isEmpty_v6_iff holds rewritten).mpr deleted)
    refine ⟨after, left, migrates, loads, metaMigrations_eq reads distinct, ?_⟩
    refine (List.perm_ext_iff_of_nodup (.of_map _ distinctLeft) (.of_map _ distinct)).mpr ?_
    intro credential
    rw [shows.mem_iff, List.mem_map, mem_migratedCredentials]
    constructor
    · rintro ⟨row, isRow, same⟩
      obtain ⟨v6, member, made⟩ := of_mem_rewrittenRows isRow
      exact ⟨v6, member, row, made, same⟩
    · rintro ⟨v6, member, row, made, same⟩
      exact ⟨row, (rewritten_all_iff holds.distinct).mpr spared v6 member row made, same⟩

end Agreement

/-! ### A database of version 6 -/

def sampleV6 (signatureScheme : Nat) (publicKey : Bytes) : V6Credential :=
  ⟨[1], [2], 3, signatureScheme, publicKey, [5]⟩

/-- The groups are given by their ids and states. -/
def sampleDb (groups : List (Bytes × Bytes)) (credentials : List V6Credential) :
    MigrationDb UInt8 :=
  { cipher := 1
    v6 := credentials.foldr (fun v6 rows =>
      match v6.encrypt sampleCipher sampleHashes 1 sampleNonces with
      | .ok form => rows.insert (v6.primaryKey sampleHashes) form
      | .error _ => rows) ∅
    idb := (WasmEncryptedStorage.written sampleCipher sampleHashes 1 (groups.map fun group =>
      .save sampleNonces (.persistedMlsGroup group.1 group.2 none))).storage.rows }

/-- The state of a group is its ciphersuite. -/
def stateParsers : Parsers where
  signatureKeyPair _ := .error ""
  credential _ := .error ""
  certificate _ := .error ""
  groupCiphersuite state := .ok (state.headD 0).toNat

/-- Credentials of P-256 and Ed25519, and a group that uses ciphersuite 1 between two that use
ciphersuite 3. -/
theorem used_credentials_migrated :
    let groups := [([1], [3]), ([2], [1]), ([4], [3])]
    let credentials := [sampleV6 0x0403 [7, 8], sampleV6 0x0807 [9], sampleV6 0x0403 [6]]
    ∃ ciphersuiteFor,
      makeCiphersuiteForSignatureScheme stateParsers (groups.map Prod.snd) = .ok ciphersuiteFor ∧
      MigrationsAgree sampleCipher sampleHashes stateParsers ciphersuiteFor
        (fun _ => sampleNonces) (sampleDb groups credentials) (groups.map Prod.snd) credentials := by
  intro groups credentials
  have holds : HoldsV6 sampleCipher sampleHashes (sampleDb groups credentials)
      (groups.map Prod.snd) credentials :=
    { groups := by decide +kernel
      rows := .cons ⟨rfl, sampleNonces, rfl⟩
        (.cons ⟨rfl, sampleNonces, rfl⟩ (.cons ⟨rfl, sampleNonces, rfl⟩ .nil))
      unmigrated := by decide +kernel }
  refine ⟨_, rfl, (migrations_agree_iff_rewritable (fun _ _ _ _ _ _ => rfl) holds rfl _).mpr
    ⟨?_, ?_⟩⟩
  · decide
  · unfold Spares
    decide

/-- Without groups there is no ciphersuite for an Ed25519 credential: SQL drops it, and the steps
of IndexedDB fail. -/
theorem unused_credential_breaks_migration :
    let credential := sampleV6 0x0807 [7, 8]
    HoldsV6 sampleCipher sampleHashes (sampleDb [] [credential]) [] [credential] ∧
      ((sampleDb [] [credential]).migrate sampleCipher sampleHashes stateParsers
        (fun _ => sampleNonces)).map (fun _ => ()) = .error (.keystore .serdeWasmBindgenError) ∧
      (metaV18 stateParsers [] [credential] [] >>= metaV19 stateParsers []) = .ok [] :=
  ⟨⟨rfl, .cons ⟨rfl, sampleNonces, rfl⟩ .nil, nofun⟩, by decide +kernel, by decide +kernel⟩

end CoreCrypto.Migrations
