import CoreCrypto.Wasm.Storage
import CoreCrypto.Library.Run

/-!
# Changing the database key in browsers

`WasmConnection::update_key` reads every row of the listed collections, decrypts it with the old
cipher, encrypts it with the new one and puts it back under the primary key of its entity.
-/

namespace CoreCrypto.Wasm

open Library Library.Fallible Keystore

/-- `stringify!` of the types that are listed. -/
def typeName : EntityType → String
  | .storedBufferedCommit => "StoredBufferedCommit"
  | .persistedMlsGroup => "PersistedMlsGroup"
  | .persistedMlsPendingGroup => "PersistedMlsPendingGroup"
  | .mlsPendingMessage => "MlsPendingMessage"
  | .proteusIdentity => "ProteusIdentity"
  | .proteusSession => "ProteusSession"
  | .storedCredential => "StoredCredential"
  | .plain .hpkePrivateKey => "StoredHpkePrivateKey"
  | .plain .keyPackage => "StoredKeypackage"
  | .plain .pskBundle => "StoredPskBundle"
  | .plain .encryptionKeyPair => "StoredEncryptionKeyPair"
  | .plain .epochEncryptionKeyPair => "StoredEpochEncryptionKeypair"
  | .plain .storedE2eiEnrollment => "StoredE2eiEnrollment"
  | .plain .e2eiRefreshToken => "E2eiRefreshToken"
  | .plain .e2eiAcmeCA => "E2eiAcmeCA"
  | .plain .e2eiIntermediateCert => "E2eiIntermediateCert"
  | .plain .e2eiCrl => "E2eiCrl"
  | .plain .proteusPrekey => "ProteusPrekey"
  | .plain .consumerData => "ConsumerData"

/-- The list in `update_key`. -/
def rekeyedTypes : List EntityType :=
  [.storedCredential, .plain .hpkePrivateKey, .plain .encryptionKeyPair,
    .plain .epochEncryptionKeyPair, .plain .pskBundle, .plain .keyPackage, .persistedMlsGroup,
    .persistedMlsPendingGroup, .mlsPendingMessage, .plain .storedE2eiEnrollment,
    .plain .e2eiAcmeCA, .plain .e2eiIntermediateCert, .plain .e2eiCrl, .plain .proteusPrekey,
    .proteusIdentity, .proteusSession]

section Rekey

variable {Key : Type} (gcm : AesGcm Key) (hashes : Hashes) (oldCipher newCipher : Key)
  (random : EntityId → Nat → Nonce) {store : WasmStorageWrapper}

/-- The body of the loop in `rekey_entity`, with the nonces drawn for the entity. -/
def rekeyRow (typ : EntityType) (store : WasmStorageWrapper) (value : Entity Bytes) :
    Except CryptoKeystoreError WasmStorageWrapper := do
  let encryptedEntity ← fromValue typ value
  let entity ← decrypt gcm hashes oldCipher encryptedEntity
  let encrypted ← encrypt gcm hashes newCipher (random (identify hashes entity)) entity
  store.put typ (primaryKey hashes entity) encrypted

def rekeyEntity (store : WasmStorageWrapper) (typ : EntityType) :
    Except CryptoKeystoreError WasmStorageWrapper := do
  (← store.values typ none).foldlM (rekeyRow gcm hashes oldCipher newCipher random typ) store

/-- One member of the list in `rekey_entities!`. -/
def rekeyListed (store : WasmStorageWrapper) (typ : EntityType) :
    Except CryptoKeystoreError WasmStorageWrapper :=
  match rekeyEntity gcm hashes oldCipher newCipher random store typ with
  | .ok after => .ok after
  | .error err =>
    .error (.migrationFailed ("while rekeying " ++ typeName typ ++ ": " ++ err.toString))

def rekeyEntities (types : List EntityType) (store : WasmStorageWrapper) :
    Except CryptoKeystoreError WasmStorageWrapper :=
  types.foldlM (rekeyListed gcm hashes oldCipher newCipher random) store

/-- `committed` tells whether IndexedDB commits the transaction. -/
def WasmEncryptedStorage.updateKey (conn : WasmEncryptedStorage Key) (newKey : Key)
    (committed : Bool) : Except CryptoKeystoreError (WasmEncryptedStorage Key) :=
  match conn.storage with
  | .persistent _ => do
    let storage ← rekeyEntities gcm hashes conn.cipher newKey random rekeyedTypes conn.storage
    if committed then
      return { storage, cipher := newKey }
    else
      .error (.migrationFailed "comitting rekey idb transaction")
  | .inMemory _ => .error .notImplemented

variable {gcm hashes oldCipher newCipher random}

/-! ### One collection -/

theorem rekeyRow_eq_ok {typ : EntityType} {after : WasmStorageWrapper} {entity row : Entity Bytes}
    (sealed : SealedAs gcm hashes oldCipher entity row) (same : entity.typ = typ)
    (ok : rekeyRow gcm hashes oldCipher newCipher random typ store row = .ok after) :
    ∃ row', SealedAs gcm hashes newCipher entity row' ∧
      after.rows = store.rows.insert (identify hashes entity) row' := by
  subst same
  obtain ⟨_, read, ok⟩ := bind_eq_ok ok
  cases (sealed.fromValue rfl).symm.trans read
  obtain ⟨_, opened, ok⟩ := bind_eq_ok ok
  cases sealed.decrypt.symm.trans opened
  obtain ⟨row', resealed, put⟩ := bind_eq_ok ok
  exact ⟨row', ⟨_, resealed⟩, (WasmStorageWrapper.put_eq_ok put).1⟩

/-- The row under an id was read and put back, encrypted with the new cipher. -/
def RekeyedAt (gcm : AesGcm Key) (hashes : Hashes) (oldCipher newCipher : Key)
    (store after : WasmStorageWrapper) (id : EntityId) : Prop :=
  match store.rows.lookup id with
  | none => after.rows.lookup id = none
  | some row => ∃ entity row', SealedAs gcm hashes oldCipher entity row ∧
      identify hashes entity = id ∧ after.rows.lookup id = some row' ∧
      SealedAs gcm hashes newCipher entity row'

/-- The rows of a collection are encrypted forms of the entities whose ids they stand under. -/
def Sealed (gcm : AesGcm Key) (hashes : Hashes) (cipher : Key) (store : WasmStorageWrapper)
    (typ : EntityType) : Prop :=
  ∀ key row, store.rows.lookup ⟨typ, key⟩ = some row →
    ∃ entity, SealedAs gcm hashes cipher entity row ∧ identify hashes entity = ⟨typ, key⟩

/-- What the loop does to an id: nothing, if no row opens to an entity with the id, and
otherwise it has the row under the id in encrypted form again. -/
theorem foldlM_rekeyRow {origin after : WasmStorageWrapper} {typ : EntityType}
    {rows : List (Entity Bytes)}
    (opens : ∀ row ∈ rows, ∃ entity, SealedAs gcm hashes oldCipher entity row ∧
      origin.rows.lookup (identify hashes entity) = some row ∧ entity.typ = typ)
    (ok : rows.foldlM (rekeyRow gcm hashes oldCipher newCipher random typ) store = .ok after)
    (id : EntityId) :
    (after.rows.lookup id = store.rows.lookup id ∧
      ∀ row ∈ rows, ∀ entity, SealedAs gcm hashes oldCipher entity row →
        identify hashes entity ≠ id) ∨
    id.typ = typ ∧ RekeyedAt gcm hashes oldCipher newCipher origin after id := by
  induction rows generalizing store with
  | nil =>
    cases ok
    exact .inl ⟨rfl, fun _ member => nomatch member⟩
  | cons row rest ih =>
    rw [List.foldlM_cons] at ok
    obtain ⟨middle, first, rest'⟩ := bind_eq_ok ok
    obtain ⟨entity, sealedRow, found, same⟩ := opens row (by simp)
    obtain ⟨row', resealed, rows'⟩ := rekeyRow_eq_ok sealedRow same first
    rcases ih (fun row member => opens row (by simp [member])) rest' with ⟨kept, absent⟩ | rekeyed
    · by_cases own : identify hashes entity = id
      · subst own
        refine .inr ⟨same, ?_⟩
        rw [RekeyedAt, found]
        refine ⟨entity, row', sealedRow, rfl, ?_, resealed⟩
        rw [kept, rows', AList.lookup_insert]
      · refine .inl ⟨?_, ?_⟩
        · rw [kept, rows', AList.lookup_insert_ne (Ne.symm own)]
        · intro other member entity' sealed'
          rcases List.mem_cons.mp member with rfl | member
          · exact sealedRow.unique sealed' ▸ own
          · exact absent other member entity' sealed'
    · exact .inr rekeyed

theorem rekeyEntity_eq_ok {typ : EntityType} {after : WasmStorageWrapper}
    (sealed : Sealed gcm hashes oldCipher store typ)
    (ok : rekeyEntity gcm hashes oldCipher newCipher random store typ = .ok after) (id : EntityId) :
    (id.typ = typ → RekeyedAt gcm hashes oldCipher newCipher store after id) ∧
      (id.typ ≠ typ → after.rows.lookup id = store.rows.lookup id) := by
  obtain ⟨rows, read, loop⟩ := bind_eq_ok ok
  have opens : ∀ row ∈ rows, ∃ entity, SealedAs gcm hashes oldCipher entity row ∧
      store.rows.lookup (identify hashes entity) = some row ∧ entity.typ = typ := by
    intro row member
    obtain ⟨key, found, -⟩ := (WasmStorageWrapper.mem_values read row).mp member
    obtain ⟨entity, sealedRow, identified⟩ := sealed key row found
    exact ⟨entity, sealedRow, identified ▸ found, congrArg EntityId.typ identified⟩
  rcases foldlM_rekeyRow opens loop id with ⟨kept, absent⟩ | ⟨sameTyp, rekeyed⟩
  · refine ⟨?_, fun _ => kept⟩
    rintro rfl
    cases stored : store.rows.lookup id with
    | none => simpa only [RekeyedAt, stored] using kept.trans stored
    | some row =>
      obtain ⟨entity, sealedRow, identified⟩ := sealed id.id row stored
      have member : row ∈ rows :=
        (WasmStorageWrapper.mem_values read row).mpr ⟨id.id, stored, fun _ _ none => nomatch none⟩
      exact absurd identified (absent row member entity sealedRow)
  · exact ⟨fun _ => rekeyed, fun different => absurd sameTyp different⟩

/-! ### All collections -/

theorem rekeyListed_eq_ok {typ : EntityType} {after : WasmStorageWrapper}
    (ok : rekeyListed gcm hashes oldCipher newCipher random store typ = .ok after) :
    rekeyEntity gcm hashes oldCipher newCipher random store typ = .ok after := by
  unfold rekeyListed at ok
  split at ok
  next rekeyed =>
    cases ok
    exact rekeyed
  · cases ok

theorem rekeyEntities_eq_ok {types : List EntityType} (distinct : types.Nodup)
    {after : WasmStorageWrapper} (sealed : ∀ typ ∈ types, Sealed gcm hashes oldCipher store typ)
    (ok : rekeyEntities gcm hashes oldCipher newCipher random types store = .ok after)
    (id : EntityId) :
    (id.typ ∈ types → RekeyedAt gcm hashes oldCipher newCipher store after id) ∧
      (id.typ ∉ types → after.rows.lookup id = store.rows.lookup id) := by
  induction types generalizing store with
  | nil =>
    cases ok
    exact ⟨nofun, fun _ => rfl⟩
  | cons typ rest ih =>
    rw [rekeyEntities, List.foldlM_cons] at ok
    obtain ⟨middle, first, later⟩ := bind_eq_ok ok
    obtain ⟨fresh, distinct⟩ := List.nodup_cons.mp distinct
    have step := rekeyEntity_eq_ok (sealed typ (by simp)) (rekeyListed_eq_ok first)
    -- the later collections still stand as they did
    have sealedRest : ∀ other ∈ rest, Sealed gcm hashes oldCipher middle other := by
      intro other member key row found
      refine sealed other (by simp [member]) key row ?_
      rwa [(step ⟨other, key⟩).2 (fun same => fresh (same ▸ member))] at found
    obtain ⟨rekeyed, kept⟩ := ih distinct sealedRest later
    constructor
    · intro member
      rcases List.mem_cons.mp member with same | member
      · have own := (step id).1 same
        unfold RekeyedAt at own ⊢
        rwa [kept (same ▸ fresh)]
      · have own := rekeyed member
        unfold RekeyedAt at own ⊢
        rwa [(step id).2 (fun same => fresh (same ▸ member))] at own
    · intro absent
      rw [List.mem_cons, not_or] at absent
      rw [kept absent.2, (step id).2 absent.1]

/-! ### Everything that was written -/

/-- A write to the database: a save with the nonces drawn for it, or a deletion. -/
inductive Operation where
  | save (nonces : Nat → Nonce) (entity : Entity Bytes)
  | delete (typ : EntityType) (key : Bytes)

/-- A write that fails leaves the database as it is. -/
def WasmEncryptedStorage.perform (gcm : AesGcm Key) (hashes : Hashes)
    (conn : WasmEncryptedStorage Key) : Operation → WasmEncryptedStorage Key
  | .save nonces entity =>
    match conn.save gcm hashes nonces entity with
    | .ok after => after
    | .error _ => conn
  | .delete typ key =>
    match conn.delete typ key with
    | .ok (_, after) => after
    | .error _ => conn

/-- IndexedDB after some writes to the empty database. -/
def WasmEncryptedStorage.written (gcm : AesGcm Key) (hashes : Hashes) (key : Key)
    (operations : List Operation) : WasmEncryptedStorage Key :=
  run (perform gcm hashes) (.new key (.persistent ∅)) operations

/-- Every row is an encrypted form of the entity whose id it stands under, in a collection that
has an object store. -/
structure WasmEncryptedStorage.Sound (gcm : AesGcm Key) (hashes : Hashes) (key : Key)
    (conn : WasmEncryptedStorage Key) : Prop where
  persistent : conn.storage.isPersistent = true
  cipher : conn.cipher = key
  rows : ∀ id row, conn.storage.rows.lookup id = some row → hasObjectStore id.typ = true ∧
    ∃ entity, SealedAs gcm hashes key entity row ∧ identify hashes entity = id

namespace WasmEncryptedStorage

theorem sound_save {key : Key} {conn after : WasmEncryptedStorage Key}
    (sound : conn.Sound gcm hashes key) {nonces : Nat → Nonce} {entity : Entity Bytes}
    (ok : conn.save gcm hashes nonces entity = .ok after) : after.Sound gcm hashes key := by
  obtain ⟨row, sealed, rows, kind, cipher, available⟩ := save_eq_ok ok
  refine ⟨kind.trans sound.persistent, cipher.trans sound.cipher, fun id other found => ?_⟩
  by_cases own : id = identify hashes entity
  · subst own
    rw [rows, AList.lookup_insert] at found
    cases found
    exact ⟨available sound.persistent, entity, sound.cipher ▸ sealed, rfl⟩
  · rw [rows, AList.lookup_insert_ne own] at found
    exact sound.rows id other found

theorem sound_delete {key : Key} {conn after : WasmEncryptedStorage Key}
    (sound : conn.Sound gcm hashes key) {typ : EntityType} {deleted : Bytes} {existed : Bool}
    (ok : conn.delete typ deleted = .ok (existed, after)) : after.Sound gcm hashes key := by
  obtain ⟨rows, kind, cipher⟩ := delete_eq_ok ok
  refine ⟨kind.trans sound.persistent, cipher.trans sound.cipher, fun id other found => ?_⟩
  by_cases own : id = ⟨typ, deleted⟩
  · rw [rows, own, AList.lookup_erase] at found
    cases found
  · rw [rows, AList.lookup_erase_ne own] at found
    exact sound.rows id other found

theorem sound_perform {key : Key} {conn : WasmEncryptedStorage Key} (operation : Operation)
    (sound : conn.Sound gcm hashes key) :
    (conn.perform gcm hashes operation).Sound gcm hashes key := by
  cases operation with
  | save nonces entity =>
    cases saved : conn.save gcm hashes nonces entity with
    | ok after => simpa only [perform, saved] using sound_save sound saved
    | error err => simpa only [perform, saved] using sound
  | delete typ deleted =>
    cases removed : conn.delete typ deleted with
    | ok result => simpa only [perform, removed] using sound_delete sound removed
    | error err => simpa only [perform, removed] using sound

theorem sound_written (key : Key) (operations : List Operation) :
    (written gcm hashes key operations).Sound gcm hashes key :=
  run_invariant (perform gcm hashes) (fun _ _ => True) (Sound gcm hashes key)
    (fun _ operation sound _ => sound_perform operation sound) _ operations
    ⟨rfl, rfl, fun _ _ found => nomatch found⟩ (guarded_of_forall _ _ (fun _ _ => trivial) _ _)

/-! ### Reading with the new key -/

theorem get_eq {conn : WasmEncryptedStorage Key} {id : EntityId}
    (available : hasObjectStore id.typ = true) {row : Entity Bytes}
    (stored : conn.storage.rows.lookup id = some row) :
    conn.get gcm hashes id.typ id.id = (conn.load gcm hashes id.typ row).map some := by
  have found : conn.storage.lookup id.typ id.id = .ok (some row) := by
    cases storage : conn.storage with
    | persistent idb =>
      rw [storage] at stored
      simp only [WasmStorageWrapper.lookup, available]
      exact congrArg Except.ok stored
    | inMemory map =>
      rw [storage] at stored
      exact congrArg Except.ok stored
  rw [get, found]
  change (do return some (← conn.load gcm hashes id.typ row)) = _
  cases conn.load gcm hashes id.typ row <;> rfl

theorem get_of_sealed {conn : WasmEncryptedStorage Key} {id : EntityId}
    (available : hasObjectStore id.typ = true) {row entity : Entity Bytes}
    (stored : conn.storage.rows.lookup id = some row)
    (sealed : SealedAs gcm hashes conn.cipher entity row)
    (identified : identify hashes entity = id) :
    conn.get gcm hashes id.typ id.id = .ok (some entity) := by
  rw [get_eq available stored, sealed.load (congrArg EntityId.typ identified)]
  rfl

theorem get_of_other_key {conn : WasmEncryptedStorage Key} {id : EntityId}
    (available : hasObjectStore id.typ = true) {row entity : Entity Bytes} {key : Key}
    (stored : conn.storage.rows.lookup id = some row) (sealed : SealedAs gcm hashes key entity row)
    (identified : identify hashes entity = id) (different : conn.cipher ≠ key) :
    conn.get gcm hashes id.typ id.id =
      .error (.aesGcmError "decrypting with nonce and aad") := by
  rw [get_eq available stored, load, sealed.fromValue (congrArg EntityId.typ identified)]
  change (decrypt gcm hashes conn.cipher row).map some = _
  rw [sealed.decrypt_other_key different]
  rfl

theorem updateKey_eq_ok {conn after : WasmEncryptedStorage Key} {newKey : Key} {committed : Bool}
    (ok : conn.updateKey gcm hashes random newKey committed = .ok after) :
    rekeyEntities gcm hashes conn.cipher newKey random rekeyedTypes conn.storage =
      .ok after.storage ∧ after.cipher = newKey := by
  unfold updateKey at ok
  split at ok
  · obtain ⟨storage, rekeyed, rest⟩ := bind_eq_ok ok
    split at rest
    · cases rest
      exact ⟨rekeyed, rfl⟩
    · cases rest
  · cases ok

/-- No row is added or removed, and every entity is read as before. -/
structure LosesNothing (gcm : AesGcm Key) (hashes : Hashes)
    (before after : WasmEncryptedStorage Key) : Prop where
  rows : ∀ id, id ∈ after.storage.rows ↔ id ∈ before.storage.rows
  values : ∀ id ∈ before.storage.rows, ∃ entity,
    before.get gcm hashes id.typ id.id = .ok (some entity) ∧
      after.get gcm hashes id.typ id.id = .ok (some entity)

end WasmEncryptedStorage

/-- The collections with encrypted fields that the list of `update_key` lacks. -/
theorem rekeyed_or_forgotten {typ : EntityType} (available : hasObjectStore typ = true) :
    typ ∈ rekeyedTypes ∨ typ = .plain .consumerData ∨ typ = .storedBufferedCommit := by
  cases typ with
  | plain collection => revert available; cases collection <;> decide
  | _ => decide

end Rekey

open WasmEncryptedStorage in
/-- **Changing the key.**  A change of the key that succeeds loses nothing if and only if it is
no change, or there are no consumer data and no buffered commits. -/
theorem updateKey_loses_nothing_iff {Key : Type} (gcm : AesGcm Key) (hashes : Hashes)
    (random : EntityId → Nat → Nonce) (key newKey : Key) (operations : List Operation)
    (committed : Bool) (after : WasmEncryptedStorage Key)
    (updated : (written gcm hashes key operations).updateKey gcm hashes random newKey committed =
      .ok after) :
    LosesNothing gcm hashes (written gcm hashes key operations) after ↔
      newKey = key ∨ ∀ id ∈ (written gcm hashes key operations).storage.rows,
        id.typ ≠ .plain .consumerData ∧ id.typ ≠ .storedBufferedCommit := by
  have sound : (written gcm hashes key operations).Sound gcm hashes key :=
    sound_written key operations
  generalize written gcm hashes key operations = before at updated sound ⊢
  obtain ⟨rekeyed, cipher⟩ := updateKey_eq_ok updated
  have effect := rekeyEntities_eq_ok (by decide)
    (fun typ _ id row found => sound.cipher ▸ (sound.rows _ row found).2) rekeyed
  rw [sound.cipher] at effect
  constructor
  · intro nothing
    by_contra lost
    rw [not_or] at lost
    obtain ⟨different, forgotten⟩ := lost
    simp only [not_forall, not_and_or, not_not] at forgotten
    obtain ⟨id, member, omitted⟩ := forgotten
    obtain ⟨row, stored⟩ := Option.isSome_iff_exists.mp (AList.lookup_isSome.mpr member)
    obtain ⟨available, entity, sealed, identified⟩ := sound.rows id row stored
    have unlisted : id.typ ∉ rekeyedTypes := by
      rcases omitted with consumer | buffered
      · rw [consumer]
        decide
      · rw [buffered]
        decide
    have kept := (effect id).2 unlisted
    obtain ⟨_, -, found⟩ := nothing.values id member
    rw [get_of_other_key available (kept.trans stored) sealed identified
      (cipher ▸ different)] at found
    cases found
  · intro harmless
    -- every row is either put back with the new key, or left as it was under the same key
    have each (id : EntityId) :
        RekeyedAt gcm hashes key newKey before.storage after.storage id := by
      by_cases listed : id.typ ∈ rekeyedTypes
      · exact (effect id).1 listed
      · have kept := (effect id).2 listed
        cases stored : before.storage.rows.lookup id with
        | none => simpa only [RekeyedAt, stored] using kept.trans stored
        | some row =>
          obtain ⟨available, entity, sealed, identified⟩ := sound.rows id row stored
          have same : newKey = key := by
            refine harmless.resolve_right fun absent => ?_
            obtain ⟨noConsumer, noBuffered⟩ := absent id (AList.lookup_isSome.mp (by simp [stored]))
            exact (rekeyed_or_forgotten available).elim listed (·.elim noConsumer noBuffered)
          simp only [RekeyedAt, stored]
          exact ⟨entity, row, sealed, identified, kept.trans stored, same ▸ sealed⟩
    refine ⟨fun id => ?_, fun id member => ?_⟩
    · have rekeyed := each id
      rw [← AList.lookup_isSome, ← AList.lookup_isSome]
      cases stored : before.storage.rows.lookup id with
      | none =>
        simp only [RekeyedAt, stored] at rekeyed
        simp [rekeyed]
      | some row =>
        simp only [RekeyedAt, stored] at rekeyed
        obtain ⟨_, row', -, -, found, -⟩ := rekeyed
        simp [found]
    · obtain ⟨row, stored⟩ := Option.isSome_iff_exists.mp (AList.lookup_isSome.mpr member)
      have available := (sound.rows id row stored).1
      have rekeyed := each id
      simp only [RekeyedAt, stored] at rekeyed
      obtain ⟨entity, row', sealed, identified, found, resealed⟩ := rekeyed
      exact ⟨entity, get_of_sealed available stored (sound.cipher ▸ sealed) identified,
        get_of_sealed available found (cipher ▸ resealed) identified⟩

def sampleNonces (_ : Nat) : Nonce := ⟨List.replicate aesGcm256NonceSize 0, rfl⟩

/-- A group and a pending message, and nothing that the list lacks. -/
def sampleRows : List Operation :=
  [.save sampleNonces (.persistedMlsGroup [1] [7] none),
    .save sampleNonces (.mlsPendingMessage [1] [8])]

open WasmEncryptedStorage in
theorem updateKey_loses_nothing_iff_sample :
    ∃ after, (written sampleCipher sampleHashes 1 sampleRows).updateKey sampleCipher sampleHashes
        (fun _ => sampleNonces) 2 true = .ok after ∧
      LosesNothing sampleCipher sampleHashes (written sampleCipher sampleHashes 1 sampleRows)
        after := by
  cases updated : (written sampleCipher sampleHashes 1 sampleRows).updateKey sampleCipher
      sampleHashes (fun _ => sampleNonces) 2 true with
  | error err =>
    have succeeds : ((written sampleCipher sampleHashes 1 sampleRows).updateKey sampleCipher
      sampleHashes (fun _ => sampleNonces) 2 true).toBool = true := by decide +kernel
    rw [updated] at succeeds
    cases succeeds
  | ok after =>
    have keys : ∀ id ∈ (written sampleCipher sampleHashes 1 sampleRows).storage.rows.keys,
        id.typ ≠ .plain .consumerData ∧ id.typ ≠ .storedBufferedCommit := by decide +kernel
    exact ⟨after, rfl, (updateKey_loses_nothing_iff sampleCipher sampleHashes
      (fun _ => sampleNonces) 1 2 sampleRows true after updated).mpr
        (.inr fun id member => keys id (AList.mem_keys.mp member))⟩

open WasmEncryptedStorage in
/-- The consumer data can be read before the key is changed, and not after. -/
theorem consumer_data_lost_with_new_key :
    (written sampleCipher sampleHashes 1
        [.save sampleNonces (.plain .consumerData [0, 0, 0, 0] [9])]).get sampleCipher
      sampleHashes (.plain .consumerData) [0, 0, 0, 0] =
        .ok (some (.plain .consumerData [0, 0, 0, 0] [9])) ∧
    ((written sampleCipher sampleHashes 1
        [.save sampleNonces (.plain .consumerData [0, 0, 0, 0] [9])]).updateKey sampleCipher
      sampleHashes (fun _ => sampleNonces) 2 true).toOption.map (fun after =>
        after.get sampleCipher sampleHashes (.plain .consumerData) [0, 0, 0, 0]) =
          some (.error (.aesGcmError "decrypting with nonce and aad")) := by
  decide +kernel

end CoreCrypto.Wasm
