import CoreCrypto.Migrations.Credentials
import CoreCrypto.Wasm.Rekey

/-!
# The object store of the credentials

The migration to version 9 of IndexedDB puts every credential into a new object store, which
then takes the place of the old one.  The rows of a store are found through encryption: a store
shows the credentials whose encrypted forms it holds.
-/

namespace CoreCrypto.Migrations

open Library Library.Fallible Wasm
open Keystore hiding CryptoKeystoreError

section ObjectStore

variable {Key : Type} (gcm : AesGcm Key) (hashes : Hashes) {form : Entity Bytes}
  {credentials : List StoredCredential} {nonces : StoredCredential → Nat → Nonce}

/-- The operations of `StoredCredential` in browsers. -/
def idbOps : CredentialOps (WasmEncryptedStorage Key) CryptoKeystoreError where
  loadAll conn := return (← conn.getAll gcm hashes .storedCredential).filterMap Entity.credential?
  get conn hash := return (← conn.get gcm hashes .storedCredential hash).bind Entity.credential?
  delete conn hash := conn.delete .storedCredential hash
  scan filters := filters.isMatch hashes

/-- `DatabaseBuilder::remove_object_store`. -/
def removeObjectStore (typ : EntityType) (rows : Rows) : Rows :=
  ⟨rows.entries.filter fun entry => entry.1.typ ≠ typ,
    rows.nodupKeys.sublist List.filter_sublist⟩

/-- One round of the loop of the migration: the key is the public key. -/
def putMigrated (cipher : Key) (nonces : StoredCredential → Nat → Nonce) (store : Rows)
    (credential : StoredCredential) : Except CryptoKeystoreError Rows := do
  let row ← encrypt gcm hashes cipher (nonces credential) (.storedCredential credential)
  return store.insert ⟨.storedCredential, credential.publicKey⟩ row

/-- `v09::migrate`, with the nonces drawn for each credential. -/
def migrateV09 (nonces : StoredCredential → Nat → Nonce) (conn : WasmEncryptedStorage Key) :
    Except CryptoKeystoreError (WasmEncryptedStorage Key) := do
  let credentials ← (idbOps gcm hashes).loadAll conn
  match conn.storage with
  | .persistent idb =>
    -- the new store is filled before the old one is removed and the new one renamed
    let store ← credentials.foldlM (putMigrated gcm hashes conn.cipher nonces)
      (removeObjectStore .storedCredential idb)
    return { conn with storage := .persistent store }
  | .inMemory _ => throw (.migrationFailed "In-memory keystore doesn't support migrations")

/-! ### The rows that a store shows -/

/-- The store of the credentials holds encrypted forms of these rows under their keys, and
nothing else. -/
structure Stores (cipher : Key) (store : Rows) (rows : List (CredentialRow Bytes)) : Prop where
  distinct : DistinctKeys CredentialRow.key rows
  sealed : ∀ row ∈ rows, ∃ form, store.lookup ⟨.storedCredential, row.key⟩ = some form ∧
    SealedAs gcm hashes cipher (.storedCredential row.credential) form
  only : ∀ key form, store.lookup ⟨.storedCredential, key⟩ = some form →
    ∃ row ∈ rows, row.key = key

variable {gcm hashes} {cipher : Key} {store : Rows} {rows : List (CredentialRow Bytes)}

theorem Stores.of_lookup (stores : Stores gcm hashes cipher store rows) {key : Bytes}
    (found : store.lookup ⟨.storedCredential, key⟩ = some form) :
    ∃ row ∈ rows, row.key = key ∧
      SealedAs gcm hashes cipher (.storedCredential row.credential) form := by
  obtain ⟨row, member, rfl⟩ := stores.only _ _ found
  obtain ⟨form', found', sealed⟩ := stores.sealed row member
  cases found.symm.trans found'
  exact ⟨row, member, rfl, sealed⟩

theorem stores_removeObjectStore :
    Stores gcm hashes cipher (removeObjectStore .storedCredential store) [] := by
  refine ⟨by simp [DistinctKeys], nofun, fun key form found => ?_⟩
  have member := List.mem_filter.mp (AList.mem_lookup_iff.mp found)
  simp at member

theorem Stores.insert (stores : Stores gcm hashes cipher store rows) {row : CredentialRow Bytes}
    (fresh : row.key ∉ rows.map CredentialRow.key)
    (sealed : SealedAs gcm hashes cipher (.storedCredential row.credential) form) :
    Stores gcm hashes cipher (store.insert ⟨.storedCredential, row.key⟩ form)
      (rows ++ [row]) := by
  refine ⟨(distinctKeys_snoc _).mpr ⟨stores.distinct, fresh⟩, ?_, fun key other found => ?_⟩
  · intro other member
    rcases List.mem_append.mp member with member | member
    · obtain ⟨form', found, sealed'⟩ := stores.sealed other member
      have different : other.key ≠ row.key := by
        rintro same
        exact fresh (same ▸ List.mem_map_of_mem member)
      refine ⟨form', ?_, sealed'⟩
      rw [AList.lookup_insert_ne (by simpa using different)]
      exact found
    · cases List.mem_singleton.mp member
      exact ⟨form, AList.lookup_insert _, sealed⟩
  · by_cases same : key = row.key
    · exact ⟨row, by simp, same.symm⟩
    · rw [AList.lookup_insert_ne (by simpa using same)] at found
      obtain ⟨row', member, isKey⟩ := stores.only _ _ found
      exact ⟨row', List.mem_append_left _ member, isKey⟩

theorem Stores.erase (stores : Stores gcm hashes cipher store rows) (key : Bytes) :
    Stores gcm hashes cipher (store.erase ⟨.storedCredential, key⟩)
      (deleteWhere CredentialRow.key rows key) := by
  refine ⟨stores.distinct.sublist (List.filter_sublist.map _), ?_, fun key' form found => ?_⟩
  · intro row member
    rw [mem_deleteWhere] at member
    obtain ⟨form, found, sealed⟩ := stores.sealed row member.1
    refine ⟨form, ?_, sealed⟩
    rw [AList.lookup_erase_ne (by simpa using member.2)]
    exact found
  · have different : key' ≠ key := by
      rintro rfl
      simp at found
    rw [AList.lookup_erase_ne (by simpa using different)] at found
    obtain ⟨row, member, rfl⟩ := stores.only _ _ found
    exact ⟨row, (mem_deleteWhere ..).mpr ⟨member, different⟩, rfl⟩

theorem Stores.load {row : CredentialRow Bytes}
    (sealed : SealedAs gcm hashes cipher (.storedCredential row.credential) form) :
    WasmEncryptedStorage.load gcm hashes ⟨.persistent store, cipher⟩ .storedCredential form =
      .ok (.storedCredential row.credential) :=
  SealedAs.load sealed rfl

theorem Stores.loadAll (stores : Stores gcm hashes cipher store rows) :
    ∃ credentials, (idbOps gcm hashes).loadAll ⟨.persistent store, cipher⟩ = .ok credentials ∧
      credentials.Perm (rows.map CredentialRow.credential) := by
  let entries := store.entries.filter fun entry =>
    entry.1.typ = .storedCredential ∧ ∀ key ∈ (none : Option Bytes), entry.1.id = key
  have isEntry {entry : Sigma fun _ : EntityId => Entity Bytes} (member : entry ∈ entries) :
      entry ∈ store.entries ∧ entry.1.typ = .storedCredential := by
    simpa [entries] using member
  -- the row of each entry, in the order in which the store lists them
  have hasRow (entry : Sigma fun _ : EntityId => Entity Bytes) (member : entry ∈ entries) :
      ∃ row ∈ rows, row.key = entry.1.id ∧
        SealedAs gcm hashes cipher (.storedCredential row.credential) entry.2 := by
    obtain ⟨inStore, isCredential⟩ := isEntry member
    obtain ⟨⟨typ, key⟩, form⟩ := entry
    cases isCredential
    exact stores.of_lookup (AList.mem_lookup_iff.mpr inStore)
  have : Nonempty (CredentialRow Bytes) := ⟨⟨[], [], [], 0, 0, [], []⟩⟩
  choose! rowOf inRows isKey isSealed using hasRow
  have distinct : ((entries.map rowOf).map CredentialRow.key).Nodup := by
    rw [List.map_map]
    refine (store.nodupKeys.nodup.filter _).map_on fun entry member other memberOther same => ?_
    refine store.nodupKeys.eq_of_fst_eq (isEntry member).1 (isEntry memberOther).1 ?_
    refine (EntityId.mk.injEq ..).mpr ⟨(isEntry member).2.trans (isEntry memberOther).2.symm, ?_⟩
    exact (isKey entry member).symm.trans (same.trans (isKey other memberOther))
  have perm : (entries.map rowOf).Perm rows := by
    refine (List.perm_ext_iff_of_nodup (.of_map _ distinct) (.of_map _ stores.distinct)).mpr ?_
    refine fun row => ⟨fun member => ?_, fun member => ?_⟩
    · obtain ⟨entry, inEntries, rfl⟩ := List.mem_map.mp member
      exact inRows entry inEntries
    · obtain ⟨form, found, -⟩ := stores.sealed row member
      have inEntries : ⟨⟨.storedCredential, row.key⟩, form⟩ ∈ entries :=
        List.mem_filter.mpr ⟨AList.mem_lookup_iff.mp found, by simp⟩
      exact List.mem_map.mpr ⟨_, inEntries, List.inj_on_of_nodup_map stores.distinct
        (inRows _ inEntries) member (isKey _ inEntries)⟩
  refine ⟨(entries.map rowOf).map CredentialRow.credential, ?_, perm.map _⟩
  have loads : (entries.map Sigma.snd).mapM
      (WasmEncryptedStorage.load gcm hashes ⟨.persistent store, cipher⟩ .storedCredential) =
        .ok (entries.map fun entry => .storedCredential (rowOf entry).credential) := by
    rw [mapM_eq_ok_iff, List.forall₂_map_left_iff, List.forall₂_map_right_iff, List.forall₂_same]
    exact fun entry member => Stores.load (isSealed entry member)
  change ((entries.map Sigma.snd).mapM _ >>= _) = _
  rw [loads]
  simp [Entity.credential?, List.filterMap_map, Function.comp_def]

theorem Stores.get (stores : Stores gcm hashes cipher store rows) (hash : Bytes) :
    (idbOps gcm hashes).get ⟨.persistent store, cipher⟩ hash =
      .ok ((selectOne CredentialRow.key rows hash).map CredentialRow.credential) := by
  let conn : WasmEncryptedStorage Key := ⟨.persistent store, cipher⟩
  have looks : conn.storage.lookup .storedCredential hash =
      .ok (store.lookup ⟨.storedCredential, hash⟩) := rfl
  change (WasmEncryptedStorage.get gcm hashes conn .storedCredential hash >>= _) = _
  cases found : store.lookup ⟨.storedCredential, hash⟩ with
  | none =>
    have absent : selectOne CredentialRow.key rows hash = none := by
      refine Option.eq_none_iff_forall_not_mem.mpr fun row selected => ?_
      obtain ⟨member, isKey⟩ := (find?_key_iff _ stores.distinct _ _).mp selected
      obtain ⟨form, found', -⟩ := stores.sealed row member
      rw [isKey, found] at found'
      cases found'
    rw [WasmEncryptedStorage.get, looks, found, absent]
    rfl
  | some form =>
    obtain ⟨row, member, isKey, sealed⟩ := stores.of_lookup found
    have selected : selectOne CredentialRow.key rows hash = some row :=
      (find?_key_iff _ stores.distinct _ _).mpr ⟨member, isKey⟩
    have loads : conn.load gcm hashes .storedCredential form =
        .ok (.storedCredential row.credential) := Stores.load sealed
    rw [WasmEncryptedStorage.get, looks, found, selected]
    change ((conn.load gcm hashes .storedCredential form >>= _) >>= _) = _
    rw [loads]
    rfl

theorem Stores.presents (stores : Stores gcm hashes cipher store rows) :
    Presents (idbOps gcm hashes) id ⟨.persistent store, cipher⟩ rows := by
  obtain ⟨credentials, loads, perm⟩ := stores.loadAll
  refine ⟨⟨credentials, loads, fun _ => perm.mem_iff⟩, stores.get, fun hash => ?_⟩
  obtain ⟨rest, reloaded, remaining⟩ := (stores.erase hash).loadAll
  refine ⟨⟨.persistent (store.erase ⟨.storedCredential, hash⟩), cipher⟩, rest, ?_, reloaded,
    fun _ => remaining.mem_iff⟩
  have held : (⟨.storedCredential, hash⟩ : EntityId) ∈ store ↔
      hash ∈ rows.map CredentialRow.key := by
    rw [← AList.lookup_isSome, Option.isSome_iff_exists, List.mem_map]
    constructor
    · rintro ⟨form, found⟩
      exact stores.only _ _ found
    · rintro ⟨row, member, rfl⟩
      obtain ⟨form, found, -⟩ := stores.sealed row member
      exact ⟨form, found⟩
  change Except.ok (decide _, _) = _
  rw [decide_eq_decide.mpr held]
  rfl

/-! ### The migration -/

/-- The row that the migration makes of a credential. -/
def putRow (credential : StoredCredential) : CredentialRow Bytes :=
  ⟨credential.publicKey, credential⟩

theorem stores_putMigrated {after : Rows}
    {credential : StoredCredential} (stores : Stores gcm hashes cipher store rows)
    (fresh : credential.publicKey ∉ rows.map CredentialRow.key)
    (puts : putMigrated gcm hashes cipher nonces store credential = .ok after) :
    Stores gcm hashes cipher after (rows ++ [putRow credential]) := by
  obtain ⟨form, encrypted, inserted⟩ := bind_eq_ok puts
  have sealed : SealedAs gcm hashes cipher (.storedCredential (putRow credential).credential)
      form := ⟨_, encrypted⟩
  have inserted : store.insert ⟨.storedCredential, (putRow credential).key⟩ form = after :=
    Except.ok.inj inserted
  rw [← inserted]
  exact stores.insert fresh sealed

/-- The loop, from rows that are already put. -/
theorem stores_foldlM {after : Rows} (stores : Stores gcm hashes cipher store rows)
    (distinct : DistinctKeys CredentialRow.key (rows ++ credentials.map putRow))
    (puts : credentials.foldlM (putMigrated gcm hashes cipher nonces) store = .ok after) :
    Stores gcm hashes cipher after (rows ++ credentials.map putRow) := by
  induction credentials generalizing store rows with
  | nil =>
    cases puts
    simpa using stores
  | cons credential rest ih =>
    rw [List.foldlM_cons] at puts
    obtain ⟨next, first, others⟩ := bind_eq_ok puts
    have split : rows ++ (credential :: rest).map putRow =
        rows ++ [putRow credential] ++ rest.map putRow := by simp
    rw [split] at distinct ⊢
    have fresh := ((distinctKeys_snoc _).mp
      (distinct.sublist ((List.sublist_append_left _ _).map _))).2
    exact ih (stores_putMigrated stores fresh first) distinct others

theorem stores_migrateV09 {conn after : WasmEncryptedStorage Key}
    (loads : (idbOps gcm hashes).loadAll conn = .ok credentials)
    (distinct : DistinctKeys StoredCredential.publicKey credentials)
    (migrates : migrateV09 gcm hashes nonces conn = .ok after) :
    ∃ store, after = ⟨.persistent store, conn.cipher⟩ ∧
      Stores gcm hashes conn.cipher store (credentials.map putRow) := by
  obtain ⟨loaded, loads', migrates⟩ := bind_eq_ok migrates
  cases loads.symm.trans loads'
  cases storage : conn.storage with
  | inMemory map =>
    rw [storage] at migrates
    cases migrates
  | persistent idb =>
    rw [storage] at migrates
    obtain ⟨store, puts, ⟨⟩⟩ := bind_eq_ok migrates
    refine ⟨store, rfl, stores_foldlM stores_removeObjectStore ?_ puts⟩
    simpa only [DistinctKeys, List.nil_append, List.map_map, Function.comp_def, putRow]
      using distinct

/-- A credential of the new store is addressable exactly when it is its own hash. -/
theorem addressable_idb_iff {conn after : WasmEncryptedStorage Key}
    (loads : (idbOps gcm hashes).loadAll conn = .ok credentials)
    (distinct : DistinctKeys StoredCredential.publicKey credentials)
    (migrates : migrateV09 gcm hashes nonces conn = .ok after) :
    Addressable (idbOps gcm hashes) hashes after ↔
      ∀ credential ∈ credentials, hashes.sha256 credential.publicKey = credential.publicKey := by
  obtain ⟨store, rfl, stores⟩ := stores_migrateV09 loads distinct migrates
  have publicKeys : DistinctPublicKeys (credentials.map putRow) := by
    simpa only [DistinctPublicKeys, DistinctKeys, List.map_map, Function.comp_def, putRow]
      using distinct
  rw [addressable_iff_keyed stores.presents stores.distinct publicKeys]
  simp only [List.forall_mem_map]
  exact forall₂_congr fun credential _ => eq_comm

end ObjectStore

/-- **Credentials after the migrations.**  A migrated row of the SQL table is not found under
its primary key; a migrated row of the object store is, if its public key is its own digest. -/
theorem addressable_after_migrations_iff (hashes : Hashes) :
    (∀ credentials saved migrated rows,
      DistinctKeys StoredCredential.publicKey (credentials ++ saved) →
      migrateV20 hashes credentials = some migrated →
      saveCredentials hashes migrated saved = some rows →
        (Addressable sqlOps hashes rows ↔ credentials = [])) ∧
    (∀ (Key : Type) (gcm : AesGcm Key) nonces conn after credentials,
      (idbOps gcm hashes).loadAll conn = .ok credentials →
      DistinctKeys StoredCredential.publicKey credentials →
      migrateV09 gcm hashes nonces conn = .ok after →
        (Addressable (idbOps gcm hashes) hashes after ↔
          ∀ credential ∈ credentials,
            hashes.sha256 credential.publicKey = credential.publicKey)) :=
  ⟨fun _ _ _ _ distinct migrates saves => addressable_sql_iff distinct migrates saves,
    fun _ _ _ _ _ _ loads distinct migrates => addressable_idb_iff loads distinct migrates⟩

def sampleCredential (publicKey : Bytes) : StoredCredential :=
  ⟨[1], [2], 3, 4, publicKey, [5]⟩

/-- A public key that is its own digest. -/
def ownDigest : Bytes := List.replicate 32 7

def sampleBrowser (publicKey : Bytes) : WasmEncryptedStorage UInt8 :=
  WasmEncryptedStorage.written sampleCipher sampleHashes 1
    [.save sampleNonces (.storedCredential (sampleCredential publicKey))]

theorem addressable_after_migrations_iff_sample :
    Addressable sqlOps sampleHashes [savedRow sampleHashes (sampleCredential [7, 8])] ∧
    ∃ after, migrateV09 sampleCipher sampleHashes (fun _ => sampleNonces) (sampleBrowser ownDigest) =
        .ok after ∧
      Addressable (idbOps sampleCipher sampleHashes) sampleHashes after := by
  refine ⟨((addressable_after_migrations_iff sampleHashes).1 [] [sampleCredential [7, 8]] [] _
    (by decide) rfl (by decide)).mpr rfl, ?_⟩
  cases migrates : migrateV09 sampleCipher sampleHashes (fun _ => sampleNonces)
      (sampleBrowser ownDigest) with
  | error err =>
    have succeeds : (migrateV09 sampleCipher sampleHashes (fun _ => sampleNonces)
      (sampleBrowser ownDigest)).toBool = true := by decide +kernel
    rw [migrates] at succeeds
    cases succeeds
  | ok after =>
    have loads : (idbOps sampleCipher sampleHashes).loadAll (sampleBrowser ownDigest) =
        .ok [sampleCredential ownDigest] := by decide +kernel
    refine ⟨after, rfl, ((addressable_after_migrations_iff sampleHashes).2 _ _ _ _ _ _ loads
      (by decide) migrates).mpr ?_⟩
    decide

/-- A migrated credential is loaded with the others and not found under its primary key. -/
theorem migrated_credential_not_found :
    (migrateV20 sampleHashes [sampleCredential [7, 8]]).map (fun rows =>
      (sqlOps.loadAll rows, sqlOps.get rows (sampleHashes.sha256 [7, 8]))) =
        some (.ok [sampleCredential [7, 8]], .ok none) ∧
    (migrateV09 sampleCipher sampleHashes (fun _ => sampleNonces)
      (sampleBrowser [7, 8])).toOption.map (fun after =>
        ((idbOps sampleCipher sampleHashes).loadAll after,
          (idbOps sampleCipher sampleHashes).get after (sampleHashes.sha256 [7, 8]))) =
            some (.ok [sampleCredential [7, 8]], .ok none) := by
  decide +kernel

end CoreCrypto.Migrations
