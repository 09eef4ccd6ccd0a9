import CoreCrypto.Wasm.Encryption

/-!
# Storage in browsers

`WasmEncryptedStorage` over IndexedDB or over a map in memory, and what
`WasmStorageTransaction` writes.  Both hold the encrypted forms of the entities under collection
and key.
-/

namespace CoreCrypto.Wasm

open Library Library.Fallible Keystore

/-- The encrypted forms under collection and key. -/
abbrev Rows := AList (fun _ : EntityId => Entity Bytes)

inductive WasmStorageWrapper where
  | persistent (idb : Rows)
  | inMemory (map : Rows)

structure WasmEncryptedStorage (Key : Type) where
  storage : WasmStorageWrapper
  cipher : Key

/-- The object stores of the current version; the migration to version 5 removed the one of the
refresh tokens. -/
def hasObjectStore (typ : EntityType) : Bool :=
  typ ≠ .plain .e2eiRefreshToken

namespace WasmStorageWrapper

def rows : WasmStorageWrapper → Rows
  | persistent idb => idb
  | inMemory map => map

def isPersistent : WasmStorageWrapper → Bool
  | persistent _ => true
  | inMemory _ => false

/-- The collection as a whole, or the rows with the queried key.  The map does not look at the
query. -/
def values (typ : EntityType) (query : Option Bytes) :
    WasmStorageWrapper → Except CryptoKeystoreError (List (Entity Bytes))
  | persistent idb =>
    if hasObjectStore typ then
      .ok ((idb.entries.filter fun entry =>
        entry.1.typ = typ ∧ ∀ key ∈ query, entry.1.id = key).map Sigma.snd)
    else
      .error .idbError
  | inMemory map => .ok ((map.entries.filter fun entry => entry.1.typ = typ).map Sigma.snd)

def lookup (typ : EntityType) (key : Bytes) :
    WasmStorageWrapper → Except CryptoKeystoreError (Option (Entity Bytes))
  | persistent idb =>
    if hasObjectStore typ then .ok (idb.lookup ⟨typ, key⟩) else .error .idbError
  | inMemory map => .ok (map.lookup ⟨typ, key⟩)

def put (typ : EntityType) (key : Bytes) (row : Entity Bytes) :
    WasmStorageWrapper → Except CryptoKeystoreError WasmStorageWrapper
  | persistent idb =>
    if hasObjectStore typ then .ok (persistent (idb.insert ⟨typ, key⟩ row)) else .error .idbError
  | inMemory map => .ok (inMemory (map.insert ⟨typ, key⟩ row))

def delete (typ : EntityType) (key : Bytes) :
    WasmStorageWrapper → Except CryptoKeystoreError (Bool × WasmStorageWrapper)
  | persistent idb =>
    if hasObjectStore typ then
      .ok (decide (⟨typ, key⟩ ∈ idb), persistent (idb.erase ⟨typ, key⟩))
    else
      .error .idbError
  | inMemory map => .ok (decide (⟨typ, key⟩ ∈ map), inMemory (map.erase ⟨typ, key⟩))

end WasmStorageWrapper

/-- `serde_wasm_bindgen::from_value` to the form of one collection. -/
def fromValue (typ : EntityType) (row : Entity Bytes) :
    Except CryptoKeystoreError (Entity Bytes) :=
  if row.typ = typ then .ok row else .error .serdeWasmBindgenError

section Operations

variable {Key : Type} (gcm : AesGcm Key) (hashes : Hashes) {existed : Bool} {cipher : Key}
  {storage : WasmStorageWrapper}

namespace WasmEncryptedStorage

def new (key : Key) (storage : WasmStorageWrapper) : WasmEncryptedStorage Key :=
  ⟨storage, key⟩

def load (conn : WasmEncryptedStorage Key) (typ : EntityType) (row : Entity Bytes) :
    Except CryptoKeystoreError (Entity Bytes) := do
  decrypt gcm hashes conn.cipher (← fromValue typ row)

def get (conn : WasmEncryptedStorage Key) (typ : EntityType) (key : Bytes) :
    Except CryptoKeystoreError (Option (Entity Bytes)) := do
  match ← conn.storage.lookup typ key with
  | none => return none
  | some row => return some (← conn.load gcm hashes typ row)

def getAllWithQuery (conn : WasmEncryptedStorage Key) (typ : EntityType)
    (query : Option Bytes) : Except CryptoKeystoreError (List (Entity Bytes)) := do
  (← conn.storage.values typ query).mapM (conn.load gcm hashes typ)

def getAll (conn : WasmEncryptedStorage Key) (typ : EntityType) :
    Except CryptoKeystoreError (List (Entity Bytes)) :=
  conn.getAllWithQuery gcm hashes typ none

/-- `WasmStorageTransaction::save`, with the nonces drawn for the entity. -/
def save (conn : WasmEncryptedStorage Key) (nonces : Nat → Nonce) (entity : Entity Bytes) :
    Except CryptoKeystoreError (WasmEncryptedStorage Key) := do
  let row ← encrypt gcm hashes conn.cipher nonces entity
  return { conn with
    storage := ← conn.storage.put entity.typ (primaryKey hashes entity) row }

/-- `WasmStorageTransaction::delete`. -/
def delete (conn : WasmEncryptedStorage Key) (typ : EntityType) (key : Bytes) :
    Except CryptoKeystoreError (Bool × WasmEncryptedStorage Key) := do
  let (existed, storage) ← conn.storage.delete typ key
  return (existed, { conn with storage })

end WasmEncryptedStorage

/-! ### What is stored -/

/-- `EntityId` of an entity in browsers. -/
def identify (entity : Entity Bytes) : EntityId :=
  ⟨entity.typ, primaryKey hashes entity⟩

/-- The row is an encrypted form of the entity. -/
def SealedAs (cipher : Key) (entity row : Entity Bytes) : Prop :=
  ∃ nonces, encrypt gcm hashes cipher nonces entity = .ok row

variable {gcm hashes}

theorem SealedAs.typ {entity row : Entity Bytes}
    (sealed : SealedAs gcm hashes cipher entity row) : row.typ = entity.typ := by
  obtain ⟨nonces, ok⟩ := sealed
  exact (onEncrypted_ok hashes ok).1

theorem SealedAs.decrypt {entity row : Entity Bytes}
    (sealed : SealedAs gcm hashes cipher entity row) :
    Wasm.decrypt gcm hashes cipher row = .ok entity := by
  obtain ⟨nonces, ok⟩ := sealed
  obtain ⟨sameTyp, sameKey, opens⟩ := onEncrypted_ok hashes ok
  -- the associated data can be told from the encrypted form
  rw [Wasm.decrypt, aad, sameTyp, sameKey]
  exact (opens _).1 fun _ _ _ sealed => decryptData_encryptData gcm sealed

theorem SealedAs.decrypt_other_key {other : Key} {entity row : Entity Bytes}
    (sealed : SealedAs gcm hashes cipher entity row) (different : other ≠ cipher) :
    Wasm.decrypt gcm hashes other row = .error (.aesGcmError "decrypting with nonce and aad") := by
  obtain ⟨nonces, ok⟩ := sealed
  obtain ⟨-, -, opens⟩ := onEncrypted_ok hashes ok
  exact (opens _).2 _ fun _ _ _ sealed => decryptData_other_key gcm sealed different

theorem SealedAs.unique {entity other row : Entity Bytes}
    (sealed : SealedAs gcm hashes cipher entity row)
    (sealedOther : SealedAs gcm hashes cipher other row) : other = entity := by
  have same := sealed.decrypt.symm.trans sealedOther.decrypt
  cases same
  rfl

theorem SealedAs.fromValue {entity row : Entity Bytes}
    (sealed : SealedAs gcm hashes cipher entity row) {typ : EntityType}
    (same : entity.typ = typ) : Wasm.fromValue typ row = .ok row := by
  rw [Wasm.fromValue, if_pos (sealed.typ.trans same)]

theorem SealedAs.load {conn : WasmEncryptedStorage Key} {entity row : Entity Bytes}
    (sealed : SealedAs gcm hashes conn.cipher entity row) {typ : EntityType}
    (same : entity.typ = typ) : conn.load gcm hashes typ row = .ok entity := by
  rw [WasmEncryptedStorage.load, sealed.fromValue same]
  exact sealed.decrypt

theorem WasmStorageWrapper.put_eq_ok {after : WasmStorageWrapper} {typ : EntityType}
    {key : Bytes} {row : Entity Bytes} (ok : storage.put typ key row = .ok after) :
    after.rows = storage.rows.insert ⟨typ, key⟩ row ∧
      after.isPersistent = storage.isPersistent ∧
      (storage.isPersistent = true → hasObjectStore typ = true) := by
  cases storage with
  | persistent idb =>
    simp only [put] at ok
    split at ok
    next available =>
      cases ok
      exact ⟨rfl, rfl, fun _ => available⟩
    · cases ok
  | inMemory map =>
    cases ok
    exact ⟨rfl, rfl, nofun⟩

theorem WasmStorageWrapper.delete_eq_ok {after : WasmStorageWrapper} {typ : EntityType}
    {key : Bytes} (ok : storage.delete typ key = .ok (existed, after)) :
    after.rows = storage.rows.erase ⟨typ, key⟩ ∧ after.isPersistent = storage.isPersistent := by
  cases storage with
  | persistent idb =>
    simp only [delete] at ok
    split at ok
    · cases ok
      exact ⟨rfl, rfl⟩
    · cases ok
  | inMemory map =>
    cases ok
    exact ⟨rfl, rfl⟩

theorem WasmStorageWrapper.mem_values {typ : EntityType}
    {query : Option Bytes} {values : List (Entity Bytes)}
    (ok : storage.values typ query = .ok values) (row : Entity Bytes) :
    row ∈ values ↔ ∃ key, storage.rows.lookup ⟨typ, key⟩ = some row ∧
      (storage.isPersistent = true → ∀ queried ∈ query, key = queried) := by
  have entry (rows : Rows) (id : EntityId) :
      ⟨id, row⟩ ∈ rows.entries ↔ rows.lookup id = some row := AList.mem_lookup_iff.symm
  cases storage with
  | persistent idb =>
    simp only [WasmStorageWrapper.values] at ok
    split at ok
    · cases ok
      simp only [List.mem_map, List.mem_filter, decide_eq_true_eq]
      constructor
      · rintro ⟨⟨⟨_, key⟩, _⟩, ⟨member, rfl, queried⟩, rfl⟩
        exact ⟨key, (entry idb _).mp member, fun _ => queried⟩
      · rintro ⟨key, found, queried⟩
        exact ⟨⟨⟨typ, key⟩, row⟩, ⟨(entry idb _).mpr found, rfl, queried rfl⟩, rfl⟩
    · cases ok
  | inMemory map =>
    cases ok
    simp only [List.mem_map, List.mem_filter, decide_eq_true_eq]
    constructor
    · rintro ⟨⟨⟨_, key⟩, _⟩, ⟨member, rfl⟩, rfl⟩
      exact ⟨key, (entry map _).mp member, nofun⟩
    · rintro ⟨key, found, -⟩
      exact ⟨⟨⟨typ, key⟩, row⟩, ⟨(entry map _).mpr found, rfl⟩, rfl⟩

theorem WasmEncryptedStorage.save_eq_ok {conn after : WasmEncryptedStorage Key}
    {nonces : Nat → Nonce} {entity : Entity Bytes}
    (ok : conn.save gcm hashes nonces entity = .ok after) :
    ∃ row, SealedAs gcm hashes conn.cipher entity row ∧
      after.storage.rows = conn.storage.rows.insert (identify hashes entity) row ∧
      after.storage.isPersistent = conn.storage.isPersistent ∧ after.cipher = conn.cipher ∧
      (conn.storage.isPersistent = true → hasObjectStore entity.typ = true) := by
  obtain ⟨row, sealed, rest⟩ := bind_eq_ok ok
  obtain ⟨storage, put, ⟨⟩⟩ := bind_eq_ok rest
  obtain ⟨rows, kind, available⟩ := WasmStorageWrapper.put_eq_ok put
  exact ⟨row, ⟨nonces, sealed⟩, rows, kind, rfl, available⟩

theorem WasmEncryptedStorage.delete_eq_ok {conn after : WasmEncryptedStorage Key} {typ : EntityType}
    {key : Bytes} (ok : conn.delete typ key = .ok (existed, after)) :
    after.storage.rows = conn.storage.rows.erase ⟨typ, key⟩ ∧
      after.storage.isPersistent = conn.storage.isPersistent ∧ after.cipher = conn.cipher := by
  obtain ⟨⟨existed', storage⟩, deleted, ⟨⟩⟩ := bind_eq_ok ok
  obtain ⟨rows, kind⟩ := WasmStorageWrapper.delete_eq_ok deleted
  exact ⟨rows, kind, rfl⟩

end Operations

end CoreCrypto.Wasm
