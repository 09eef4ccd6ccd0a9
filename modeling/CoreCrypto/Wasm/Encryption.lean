import CoreCrypto.Keystore.Entity
import CoreCrypto.Library.Aead
import CoreCrypto.Library.Except

/-!
# Encryption of entities in browsers

In browsers an entity is stored with its sensitive fields encrypted one by one: `Encrypting`
and `Decrypting` of every entity, over `encrypt_data` and `decrypt_data`.  The encrypted form
has the fields of the entity, with ciphertexts in the place of the sensitive ones.
-/

namespace CoreCrypto.Wasm

open Library Library.Fallible Keystore

inductive CryptoKeystoreError where
  | aesGcmError (context : String)
  | serdeWasmBindgenError
  | idbError
  | migrationFailed (context : String)
  | notImplemented
  deriving DecidableEq, Repr

/-- The messages; those of the two libraries are not modelled. -/
def CryptoKeystoreError.toString : CryptoKeystoreError → String
  | aesGcmError context => "aead::Error: " ++ context
  | serdeWasmBindgenError => "serde_wasm_bindgen"
  | idbError => "idb"
  | migrationFailed context => "The migration failed: " ++ context
  | notImplemented => "Not implemented (and probably never will)"

/-! ### Encrypted fields -/

def aesGcm256NonceSize : Nat := 12

abbrev Nonce := { bytes : Bytes // bytes.length = aesGcm256NonceSize }

/-- `Aes256Gcm`, for any keys. -/
abbrev AesGcm (Key : Type) := Aead Key Nonce Bytes Bytes Bytes

structure Aad where
  typeName : Bytes
  id : Bytes
  deriving DecidableEq, Repr

/-- `serde_json::to_vec`. -/
def Aad.serialize (aad : Aad) : Bytes :=
  let array (bytes : Bytes) := "[" ++ ",".intercalate (bytes.map toString) ++ "]"
  ("\x7b\"type_name\":" ++ array aad.typeName ++ ",\"id\":" ++ array aad.id ++
    "\x7d").toUTF8.toList

section Data

variable {Key : Type} (gcm : AesGcm Key) {data encrypted : Bytes} {cipher : Key} {nonce : Nonce}

/-- `encrypt_data` with the nonce that was drawn. -/
def encryptData (cipher : Key) (nonce : Nonce) (aad : Aad) (data : Bytes) :
    Except CryptoKeystoreError Bytes :=
  match gcm.encrypt cipher nonce aad.serialize data with
  | none => .error (.aesGcmError "encrypting with nonce and aad")
  | some encrypted => .ok (nonce.val ++ encrypted)

def decryptData (cipher : Key) (aad : Aad) (data : Bytes) : Except CryptoKeystoreError Bytes :=
  if long : aesGcm256NonceSize ≤ data.length then
    let nonce : Nonce := ⟨data.take aesGcm256NonceSize, List.length_take_of_le long⟩
    match gcm.decrypt cipher nonce aad.serialize (data.drop aesGcm256NonceSize) with
    | none => .error (.aesGcmError "decrypting with nonce and aad")
    | some cleartext => .ok cleartext
  else
    .error (.aesGcmError "splitting nonce from ciphertext")

theorem decryptData_append (cipher : Key) (nonce : Nonce) (aad : Aad) (encrypted : Bytes) :
    decryptData gcm cipher aad (nonce.val ++ encrypted) =
      match gcm.decrypt cipher nonce aad.serialize encrypted with
      | none => .error (.aesGcmError "decrypting with nonce and aad")
      | some cleartext => .ok cleartext := by
  have long : aesGcm256NonceSize ≤ (nonce.val ++ encrypted).length := by
    rw [List.length_append, nonce.property]
    exact Nat.le_add_right _ _
  have first : (nonce.val ++ encrypted).take aesGcm256NonceSize = nonce.val :=
    List.take_left' nonce.property
  have rest : (nonce.val ++ encrypted).drop aesGcm256NonceSize = encrypted :=
    List.drop_left' nonce.property
  simp only [decryptData, dif_pos long, first, rest, Subtype.coe_eta]

theorem decryptData_encryptData {aad : Aad}
    (ok : encryptData gcm cipher nonce aad data = .ok encrypted) :
    decryptData gcm cipher aad encrypted = .ok data := by
  unfold encryptData at ok
  split at ok
  · cases ok
  next ciphertext sealed =>
    cases ok
    rw [decryptData_append, gcm.opens sealed]

theorem decryptData_other_key {other : Key} {aad aad' : Aad}
    (ok : encryptData gcm cipher nonce aad data = .ok encrypted) (different : other ≠ cipher) :
    decryptData gcm other aad' encrypted =
      .error (.aesGcmError "decrypting with nonce and aad") := by
  unfold encryptData at ok
  split at ok
  · cases ok
  next ciphertext sealed =>
    cases ok
    rw [decryptData_append, gcm.decrypt_other_key sealed different]

end Data

/-! ### Entities -/

/-- `COLLECTION_NAME`. -/
def collectionName : EntityType → String
  | .storedBufferedCommit => "mls_buffered_commits"
  | .persistedMlsGroup => "mls_groups"
  | .persistedMlsPendingGroup => "mls_pending_groups"
  | .mlsPendingMessage => "mls_pending_messages"
  | .proteusIdentity => "proteus_identities"
  | .proteusSession => "proteus_sessions"
  | .storedCredential => "mls_credentials"
  | .plain .hpkePrivateKey => "mls_hpke_private_keys"
  | .plain .keyPackage => "mls_keypackages"
  | .plain .pskBundle => "mls_psk_bundles"
  | .plain .encryptionKeyPair => "mls_encryption_keypairs"
  | .plain .epochEncryptionKeyPair => "mls_epoch_encryption_keypairs"
  | .plain .storedE2eiEnrollment => "e2ei_enrollment"
  | .plain .e2eiRefreshToken => "e2ei_refresh_token"
  | .plain .e2eiAcmeCA => "e2ei_acme_ca"
  | .plain .e2eiIntermediateCert => "e2ei_intermediate_certs"
  | .plain .e2eiCrl => "e2ei_crls"
  | .plain .proteusPrekey => "proteus_prekeys"
  | .plain .consumerData => "consumer_data"

/-- `primary_key().bytes()` in browsers, where the key of the Proteus identity is one byte. -/
def primaryKey (hashes : Hashes) : Entity Bytes → Bytes
  | .proteusIdentity _ _ => [1]
  | entity => entity.primaryKey hashes

/-- The id in the associated data: the primary key, but for a pending message the id of its
conversation. -/
def encryptionKey (hashes : Hashes) : Entity Bytes → Bytes
  | .mlsPendingMessage foreignId _ => foreignId
  | entity => primaryKey hashes entity

def aad (hashes : Hashes) (entity : Entity Bytes) : Aad :=
  ⟨(collectionName entity.typ).toUTF8.toList, encryptionKey hashes entity⟩

/-- The encrypted fields of an entity one after the other, each with its number. -/
def onEncrypted (f : Nat → Bytes → Except CryptoKeystoreError Bytes) :
    Entity Bytes → Except CryptoKeystoreError (Entity Bytes)
  | .storedBufferedCommit conversationId commitData =>
    return .storedBufferedCommit conversationId (← f 0 commitData)
  | .persistedMlsGroup id state parentId => return .persistedMlsGroup id (← f 0 state) parentId
  | .persistedMlsPendingGroup id state parentId customConfiguration =>
    return .persistedMlsPendingGroup id (← f 0 state) parentId customConfiguration
  | .mlsPendingMessage foreignId message => return .mlsPendingMessage foreignId (← f 0 message)
  | .proteusIdentity sk pk => return .proteusIdentity (← f 0 sk) (← f 1 pk)
  | .proteusSession id session => return .proteusSession id (← f 0 session)
  | .storedCredential stored => do
    let credential ← f 0 stored.credential
    let privateKey ← f 1 stored.privateKey
    return .storedCredential { stored with credential, privateKey }
  | .plain collection key content => return .plain collection key (← f 0 content)

section Forms

variable {Key : Type} (gcm : AesGcm Key) (hashes : Hashes) {cipher : Key} {nonces : Nat → Nonce}

/-- `Encrypting::encrypt`, with the nonces drawn for the fields. -/
def encrypt (cipher : Key) (nonces : Nat → Nonce) (entity : Entity Bytes) :
    Except CryptoKeystoreError (Entity Bytes) :=
  onEncrypted (fun i data => encryptData gcm cipher (nonces i) (aad hashes entity) data) entity

/-- `Decrypting::decrypt`. -/
def decrypt (cipher : Key) (row : Entity Bytes) : Except CryptoKeystoreError (Entity Bytes) :=
  onEncrypted (fun _ data => decryptData gcm cipher (aad hashes row) data) row

/-- The other fields are left as they are, and every entity has an encrypted one. -/
theorem onEncrypted_ok {f : Nat → Bytes → Except CryptoKeystoreError Bytes}
    {entity row : Entity Bytes} (ok : onEncrypted f entity = .ok row) :
    row.typ = entity.typ ∧ encryptionKey hashes row = encryptionKey hashes entity ∧
      ∀ g, ((∀ i data data', f i data = .ok data' → g i data' = .ok data) →
          onEncrypted g row = .ok entity) ∧
        ∀ error, (∀ i data data', f i data = .ok data' → g i data' = .error error) →
          onEncrypted g row = .error error := by
  cases entity with
  | proteusIdentity first second | storedCredential stored =>
    obtain ⟨first', sealed, rest⟩ := bind_eq_ok ok
    obtain ⟨second', sealed', ⟨⟩⟩ := bind_eq_ok rest
    refine ⟨rfl, rfl, fun g => ⟨fun inverse => ?_, fun error fails => ?_⟩⟩
    · simp only [onEncrypted, inverse _ _ _ sealed, inverse _ _ _ sealed']
      rfl
    · simp only [onEncrypted, fails _ _ _ sealed]
      rfl
  | _ =>
    obtain ⟨data, sealed, ⟨⟩⟩ := bind_eq_ok ok
    refine ⟨rfl, rfl, fun g => ⟨fun inverse => ?_, fun error fails => ?_⟩⟩
    · simp only [onEncrypted, inverse _ _ _ sealed]
      rfl
    · simp only [onEncrypted, fails _ _ _ sealed]
      rfl

end Forms

/-! ### A cipher to compute with -/

namespace SampleCipher

/-- The length of the associated data is written as a row of zeros. -/
def encode : UInt8 × Nonce × Bytes × Bytes → Bytes
  | (key, nonce, data, message) =>
    key :: (nonce.val ++ (List.replicate data.length 0 ++ 1 :: (data ++ message)))

def decode : Bytes → Option (UInt8 × Nonce × Bytes × Bytes)
  | [] => none
  | key :: rest =>
    if long : aesGcm256NonceSize ≤ rest.length then
      let body := rest.drop aesGcm256NonceSize
      let size := (body.takeWhile (· == 0)).length
      let content := body.drop (size + 1)
      some (key, ⟨rest.take aesGcm256NonceSize, List.length_take_of_le long⟩, content.take size,
        content.drop size)
    else
      none

theorem takeWhile_zeros (n : Nat) (rest : Bytes) :
    (List.replicate n 0 ++ 1 :: rest).takeWhile (· == 0) = List.replicate n 0 := by
  induction n with
  | zero => rfl
  | succ n ih => simp [List.replicate_succ]

theorem drop_zeros (n : Nat) (rest : Bytes) :
    (List.replicate n 0 ++ 1 :: rest).drop (n + 1) = rest := by
  simp [List.drop_append]

theorem decode_encode (content : UInt8 × Nonce × Bytes × Bytes) :
    decode (encode content) = some content := by
  obtain ⟨key, nonce, data, message⟩ := content
  have long : aesGcm256NonceSize ≤
      (nonce.val ++ (List.replicate data.length 0 ++ 1 :: (data ++ message))).length := by
    rw [List.length_append, nonce.property]
    exact Nat.le_add_right _ _
  simp only [encode, decode, dif_pos long, List.take_left' nonce.property,
    List.drop_left' nonce.property, takeWhile_zeros, List.length_replicate, drop_zeros,
    List.take_left, List.drop_left, Subtype.coe_eta]

end SampleCipher

/-- A cipher that writes key, nonce, associated data and message down. -/
def sampleCipher : AesGcm UInt8 :=
  .ofEncoding SampleCipher.encode SampleCipher.decode SampleCipher.decode_encode

end CoreCrypto.Wasm
