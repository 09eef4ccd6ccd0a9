import CoreCrypto.Library.Except
import CoreCrypto.MlsProvider.Randomness

/-!
# Private keys of HPKE

A private key may be given with its leading zero bytes removed.  `hpke_open` fills it up to the
length that the `hpke` crate asks for, and `hpke_setup_receiver_and_export` passes it on as it is.
-/

namespace CoreCrypto.MlsProvider

open Library.Fallible

inductive HpkeError where
  | unsupportedKem
  | hpkeDecryptionError
  | hpkeEncryptionError
  | senderSetupError
  | receiverSetupError
  | exporterError
  deriving DecidableEq, Repr

/-- The `match` on the configuration that every operation starts with. -/
def HpkeConfig.select {α : Type} (config : HpkeConfig) (core : Except HpkeError α) :
    Except HpkeError α :=
  if RustCrypto.hpkeSupported config then core else .error .unsupportedKem

/-- `ok_or` and `map_err`. -/
def orError {α : Type} (error : HpkeError) : Option α → Except HpkeError α
  | some a => .ok a
  | none => .error error

/-- The `hpke` crate.  What is random is drawn from a seed. -/
structure HpkeCrate (Seed : Type) where
  PrivateKey : Type
  PublicKey : Type
  EncappedKey : Type
  Context : Type
  privateKeySize : HpkeKemType → Nat
  privateKey : HpkeKemType → Bytes → Option PrivateKey
  publicKey : HpkeKemType → Bytes → Option PublicKey
  encappedKey : HpkeKemType → Bytes → Option EncappedKey
  toBytes : HpkeKemType → EncappedKey → Bytes
  singleShotSeal : HpkeConfig → PublicKey → Bytes → Bytes → Bytes → Seed → Option (EncappedKey × Bytes)
  singleShotOpen : HpkeConfig → PrivateKey → EncappedKey → Bytes → Bytes → Bytes → Option Bytes
  setupSender : HpkeConfig → PublicKey → Bytes → Seed → Option (EncappedKey × Context)
  setupReceiver : HpkeConfig → PrivateKey → EncappedKey → Bytes → Option Context
  exportSecret : Context → Bytes → Nat → Option Bytes

variable {Seed : Type} (hpke : HpkeCrate Seed)

/-- Filled up with zero bytes at the front. -/
def normalize (size : Nat) (privateKey : Bytes) : Bytes :=
  List.replicate (size - privateKey.length) 0 ++ privateKey

/-- `hpke_seal`: the encapsulated key and the ciphertext. -/
def hpkeSeal (config : HpkeConfig) (pkR info aad ptxt : Bytes) (seed : Seed) :
    Except HpkeError (Bytes × Bytes) :=
  config.select do
    let key ← orError .hpkeEncryptionError (hpke.publicKey config.kem pkR)
    let (encapped, ciphertext) ← orError .hpkeEncryptionError
      (hpke.singleShotSeal config key info ptxt aad seed)
    return (hpke.toBytes config.kem encapped, ciphertext)

/-- `hpke_open`. -/
def hpkeOpen (config : HpkeConfig) (kemOutput ciphertext skR info aad : Bytes) :
    Except HpkeError Bytes :=
  config.select do
    let encapped ← orError .hpkeDecryptionError (hpke.encappedKey config.kem kemOutput)
    let key ← orError .hpkeDecryptionError
      (hpke.privateKey config.kem (normalize (hpke.privateKeySize config.kem) skR))
    orError .hpkeDecryptionError (hpke.singleShotOpen config key encapped info ciphertext aad)

/-- `hpke_setup_sender_and_export`. -/
def hpkeSetupSenderAndExport (config : HpkeConfig) (pkR info exporterContext : Bytes)
    (exporterLength : Nat) (seed : Seed) : Except HpkeError (Bytes × Bytes) :=
  config.select do
    let key ← orError .senderSetupError (hpke.publicKey config.kem pkR)
    let (encapped, context) ← orError .senderSetupError (hpke.setupSender config key info seed)
    let secret ← orError .exporterError (hpke.exportSecret context exporterContext exporterLength)
    return (hpke.toBytes config.kem encapped, secret)

/-- `hpke_setup_receiver_and_export`. -/
def hpkeSetupReceiverAndExport (config : HpkeConfig) (enc skR info exporterContext : Bytes)
    (exporterLength : Nat) : Except HpkeError Bytes :=
  config.select do
    let key ← orError .receiverSetupError (hpke.privateKey config.kem skR)
    let encapped ← orError .receiverSetupError (hpke.encappedKey config.kem enc)
    let context ← orError .receiverSetupError (hpke.setupReceiver config key encapped info)
    orError .exporterError (hpke.exportSecret context exporterContext exporterLength)

/-! ### Key pairs -/

/-- The crate is correct for the key pair, and takes private keys of the full length only. -/
structure HpkeCrate.KeyPair (config : HpkeConfig) (privateBytes publicBytes : Bytes) : Prop where
  parses : ∃ sk pk, hpke.privateKey config.kem privateBytes = some sk ∧
    hpke.publicKey config.kem publicBytes = some pk ∧
    (∀ info ptxt aad seed encapped ciphertext,
      hpke.singleShotSeal config pk info ptxt aad seed = some (encapped, ciphertext) →
        hpke.singleShotOpen config sk encapped info ciphertext aad = some ptxt) ∧
    ∀ info seed encapped context, hpke.setupSender config pk info seed = some (encapped, context) →
      ∃ received, hpke.setupReceiver config sk encapped info = some received ∧
        hpke.exportSecret received = hpke.exportSecret context
  encapped : ∀ key, hpke.encappedKey config.kem (hpke.toBytes config.kem key) = some key
  fullLength : ∀ bytes sk, hpke.privateKey config.kem bytes = some sk →
    bytes.length = hpke.privateKeySize config.kem

theorem orError_some {α : Type} (error : HpkeError) (a : α) : orError error (some a) = .ok a := rfl

theorem orError_eq_ok {α : Type} {error : HpkeError} {x : Option α} {a : α} :
    orError error x = .ok a ↔ x = some a := by
  cases x <;> simp [orError]

theorem normalize_shortened (removed : Nat) (encoding : Bytes) :
    normalize (List.replicate removed 0 ++ encoding).length encoding =
      List.replicate removed 0 ++ encoding := by
  simp [normalize]

/-- **Private keys of HPKE**: with any number of leading zero bytes removed from the private key, what
was sealed is opened; and the receiver exports the sender's secret if and only if no byte was
removed. -/
theorem hpke_normalised_iff (hpke : HpkeCrate Seed) (config : HpkeConfig)
    (isSupported : RustCrypto.hpkeSupported config) (publicBytes encoding : Bytes) (removed : Nat)
    (pair : hpke.KeyPair config (List.replicate removed 0 ++ encoding) publicBytes) :
    (∀ info aad ptxt seed kemOutput ciphertext,
      hpkeSeal hpke config publicBytes info aad ptxt seed = .ok (kemOutput, ciphertext) →
        hpkeOpen hpke config kemOutput ciphertext encoding info aad = .ok ptxt) ∧
      ∀ info exporterContext exporterLength seed kemOutput secret,
        hpkeSetupSenderAndExport hpke config publicBytes info exporterContext exporterLength seed =
            .ok (kemOutput, secret) →
          (hpkeSetupReceiverAndExport hpke config kemOutput encoding info exporterContext
            exporterLength = .ok secret ↔ removed = 0) := by
  obtain ⟨⟨sk, pk, isPrivate, isPublic, opens, agrees⟩, encappedBytes, fullLength⟩ := pair
  have full := fullLength _ _ isPrivate
  simp only [hpkeSeal, hpkeOpen, hpkeSetupSenderAndExport, hpkeSetupReceiverAndExport,
    HpkeConfig.select, isSupported, if_true, isPublic, orError_some, ok_bind]
  constructor
  · intro info aad ptxt seed kemOutput ciphertext sealed
    obtain ⟨⟨encapped, _⟩, seals, ⟨⟩⟩ := bind_eq_ok sealed
    rw [← full, normalize_shortened, encappedBytes, isPrivate]
    exact orError_eq_ok.mpr (opens _ _ _ _ _ _ (orError_eq_ok.mp seals))
  · intro info exporterContext exporterLength seed kemOutput secret sent
    obtain ⟨⟨encapped, context⟩, setup, rest⟩ := bind_eq_ok sent
    obtain ⟨_, exported, ⟨⟩⟩ := bind_eq_ok rest
    obtain ⟨received, receives, same⟩ := agrees _ _ _ _ (orError_eq_ok.mp setup)
    constructor
    · -- the key was taken, so it has the full length
      intro ok
      obtain ⟨key, taken, -⟩ := bind_eq_ok ok
      have length := fullLength _ _ (orError_eq_ok.mp taken)
      rw [← full, List.length_append, List.length_replicate] at length
      omega
    · rintro rfl
      rw [List.replicate_zero, List.nil_append] at isPrivate
      rw [isPrivate, encappedBytes]
      simp only [orError_some, ok_bind, receives, same]
      exact exported

/-- Keys of two bytes, where both keys of a pair are the same and everything is sent in the clear. -/
def clearCrate : HpkeCrate Unit where
  PrivateKey := Bytes
  PublicKey := Bytes
  EncappedKey := Bytes
  Context := Bytes
  privateKeySize _ := 2
  privateKey _ bytes := if bytes.length = 2 then some bytes else none
  publicKey _ := some
  encappedKey _ := some
  toBytes _ := id
  singleShotSeal _ pk _ ptxt _ _ := some (pk, ptxt)
  singleShotOpen _ _ _ _ ciphertext _ := some ciphertext
  setupSender _ pk _ _ := some (pk, pk)
  setupReceiver _ sk _ _ := some sk
  exportSecret context _ _ := some context

theorem clearCrate_keyPair (config : HpkeConfig) (x y : UInt8) :
    clearCrate.KeyPair config [x, y] [x, y] := by
  refine ⟨⟨[x, y], [x, y], rfl, rfl, ?_, ?_⟩, fun _ => rfl, ?_⟩
  · rintro _ _ _ _ _ _ ⟨⟩
    rfl
  · rintro _ _ _ _ ⟨⟩
    exact ⟨_, rfl, rfl⟩
  · intro bytes sk taken
    by_contra other
    have refused : clearCrate.privateKey config.kem bytes = none := if_neg other
    rw [refused] at taken
    cases taken

theorem hpke_normalised_iff_sample :
    hpkeOpen clearCrate ⟨.dhKemP521, .hkdfSha512, .aesGcm256⟩ [0, 7] [1] [7] [] [] = .ok [1] :=
  (hpke_normalised_iff clearCrate ⟨.dhKemP521, .hkdfSha512, .aesGcm256⟩ rfl [0, 7] [7] 1
    (clearCrate_keyPair _ 0 7)).1 [] [] [1] () [0, 7] [1] rfl

/-- The sender exports a secret, and the receiver whose private key has lost its leading zero byte
gets an error, although the same encoding opens what is sealed. -/
theorem shortened_key_fails_to_export :
    hpkeSetupSenderAndExport clearCrate ⟨.dhKemP521, .hkdfSha512, .aesGcm256⟩ [0, 7] [] [] 2 () =
        .ok ([0, 7], [0, 7]) ∧
      hpkeSetupReceiverAndExport clearCrate ⟨.dhKemP521, .hkdfSha512, .aesGcm256⟩ [0, 7] [7] [] [] 2 =
        .error .receiverSetupError ∧
      hpkeOpen clearCrate ⟨.dhKemP521, .hkdfSha512, .aesGcm256⟩ [0, 7] [1] [7] [] [] = .ok [1] :=
  ⟨rfl, rfl, rfl⟩

end CoreCrypto.MlsProvider
