import CoreCrypto.Basic
import CoreCrypto.Library.Run

/-!
# The shared random number generator

Random bytes, signature keys and the sending side of HPKE draw from one generator, and `reseed`
replaces it.  Without a seed it takes the default `EntropySeed`, which is 32 zero bytes.  ChaCha20
and the cryptographic libraries are parameters.
-/
namespace CoreCrypto.MlsProvider

open Library

/-- `EntropySeed`: the bounds check is part of the type. -/
structure EntropySeed where
  raw : Bytes
  bounded : raw.length = 32
deriving DecidableEq

namespace EntropySeed

def expectedLen : Nat := 32

instance : Inhabited EntropySeed := ⟨⟨List.replicate 32 0, rfl⟩⟩

/-- `try_from_slice`; the error has the actual and the expected length. -/
def tryFromSlice (data : Bytes) : Except (Nat × Nat) EntropySeed :=
  if short : data.length < expectedLen then .error (data.length, expectedLen)
  else .ok ⟨data.take expectedLen, by rw [expectedLen] at *; simp; omega⟩

end EntropySeed

inductive SignatureScheme where
  | ecdsaSecp256r1Sha256 | ecdsaSecp384r1Sha384 | ecdsaSecp521r1Sha512 | ed25519 | ed448
deriving DecidableEq, Repr

inductive HpkeKemType where
  | dhKemP256 | dhKemP384 | dhKemP521 | dhKem25519 | dhKem448
deriving DecidableEq, Repr

inductive HpkeKdfType where
  | hkdfSha256 | hkdfSha384 | hkdfSha512
deriving DecidableEq, Repr

inductive HpkeAeadType where
  | aesGcm128 | aesGcm256 | chaCha20Poly1305 | export
deriving DecidableEq, Repr

structure HpkeConfig where
  kem : HpkeKemType
  kdf : HpkeKdfType
  aead : HpkeAeadType
deriving DecidableEq, Repr

/-- `mls_provider::Error`, as far as the generator is concerned. -/
inductive Error where
  | rngLockPoison
  | unsufficientEntropy
deriving DecidableEq, Repr

/-- `CryptoError`; the errors of the HPKE library carry a code. -/
inductive CryptoError where
  | insufficientRandomness
  | unsupportedSignatureScheme
  | unsupportedKem
  | hpke (code : Nat)
deriving DecidableEq, Repr

/-- ChaCha20 as a seedable generator, and the library functions that take a generator. -/
structure Primitives where
  Rng : Type
  fromSeed : EntropySeed → Rng
  tryFillBytes : Nat → Rng → Option Bytes × Rng
  /-- `SigningKey::random` or `generate`, with the bytes of the two keys. -/
  signingKey : SignatureScheme → Rng → (Bytes × Bytes) × Rng
  /-- `hpke_core::hpke_seal`: public key, info, associated data, plaintext. -/
  hpkeSeal : HpkeConfig → Bytes → Bytes → Bytes → Bytes → Rng → Except Nat (Bytes × Bytes) × Rng
  /-- `hpke_core::hpke_export_tx`: public key, info, exporter context, length. -/
  hpkeExportTx : HpkeConfig → Bytes → Bytes → Bytes → Nat → Rng → Except Nat (Bytes × Bytes) × Rng

structure RustCrypto (prim : Primitives) where
  rng : prim.Rng
  poisoned : Bool

variable (prim : Primitives) {crypto : RustCrypto prim}

namespace RustCrypto

/-- A new provider is seeded with the entropy it is given by the operating system. -/
def fromEntropy (entropy : EntropySeed) : RustCrypto prim :=
  ⟨prim.fromSeed entropy, false⟩

def newWithSeed (seed : EntropySeed) : RustCrypto prim :=
  ⟨prim.fromSeed seed, false⟩

/-- `rng.write()` and what is done under the guard. -/
def withRng {ε α : Type} (poison : ε) (draw : prim.Rng → Except ε α × prim.Rng) :
    EStateM ε (RustCrypto prim) α := fun crypto =>
  if crypto.poisoned then .error poison crypto
  else
    match draw crypto.rng with
    | (.ok a, rng) => .ok a { crypto with rng }
    | (.error e, rng) => .error e { crypto with rng }

def reseed (seed : Option EntropySeed) : EStateM Error (RustCrypto prim) Unit :=
  withRng prim .rngLockPoison fun _ => (.ok (), prim.fromSeed (seed.getD default))

/-- `random_vec`; `random_array` fills its array in the same way. -/
def randomVec (len : Nat) : EStateM Error (RustCrypto prim) Bytes :=
  withRng prim .rngLockPoison fun rng =>
    match prim.tryFillBytes len rng with
    | (some out, rng) => (.ok out, rng)
    | (none, rng) => (.error .unsufficientEntropy, rng)

def randomArray (n : Nat) : EStateM Error (RustCrypto prim) Bytes :=
  randomVec prim n

def signatureKeyGen (alg : SignatureScheme) :
    EStateM CryptoError (RustCrypto prim) (Bytes × Bytes) :=
  withRng prim .insufficientRandomness fun rng =>
    match alg with
    | .ed448 => (.error .unsupportedSignatureScheme, rng)
    | alg =>
      let (keys, rng) := prim.signingKey alg rng
      (.ok keys, rng)

/-- The configurations that `hpke_seal` and `hpke_setup_sender_and_export` have a case for. -/
def hpkeSupported : HpkeConfig → Bool
  | ⟨.dhKem25519, .hkdfSha256, .aesGcm128⟩ | ⟨.dhKem25519, .hkdfSha256, .chaCha20Poly1305⟩
  | ⟨.dhKemP256, .hkdfSha256, .aesGcm128⟩ | ⟨.dhKemP384, .hkdfSha384, .aesGcm256⟩
  | ⟨.dhKemP521, .hkdfSha512, .aesGcm256⟩ => true
  | _ => false

/-- The sending functions of HPKE: one call of the library for a configuration with a case. -/
def hpkeSend (config : HpkeConfig) (send : prim.Rng → Except Nat (Bytes × Bytes) × prim.Rng) :
    EStateM CryptoError (RustCrypto prim) (Bytes × Bytes) :=
  withRng prim .insufficientRandomness fun rng =>
    if hpkeSupported config then
      let (sent, rng) := send rng
      (sent.mapError .hpke, rng)
    else (.error .unsupportedKem, rng)

def hpkeSeal (config : HpkeConfig) (pkR info aad ptxt : Bytes) :
    EStateM CryptoError (RustCrypto prim) (Bytes × Bytes) :=
  hpkeSend prim config (prim.hpkeSeal config pkR info aad ptxt)

def hpkeSetupSenderAndExport (config : HpkeConfig) (pkR info exporterContext : Bytes)
    (exporterLength : Nat) : EStateM CryptoError (RustCrypto prim) (Bytes × Bytes) :=
  hpkeSend prim config (prim.hpkeExportTx config pkR info exporterContext exporterLength)

end RustCrypto

/-! ### Programs that draw random numbers -/

inductive Call where
  | reseed (seed : Option EntropySeed)
  | randomArray (n : Nat)
  | randomVec (len : Nat)
  | signatureKeyGen (alg : SignatureScheme)
  | hpkeSeal (config : HpkeConfig) (pkR info aad ptxt : Bytes)
  | hpkeSetupSenderAndExport (config : HpkeConfig) (pkR info exporterContext : Bytes)
      (exporterLength : Nat)
deriving DecidableEq

inductive Answer where
  | done (result : Except Error Unit)
  | bytes (result : Except Error Bytes)
  | keys (result : Except CryptoError (Bytes × Bytes))

/-- The result of an operation as an answer, with the state it leaves. -/
def answered {ε σ α : Type} (wrap : Except ε α → Answer) : EStateM.Result ε σ α → Answer × σ
  | .ok a s => (wrap (.ok a), s)
  | .error e s => (wrap (.error e), s)

def perform (crypto : RustCrypto prim) : Call → Answer × RustCrypto prim
  | .reseed seed => answered .done (RustCrypto.reseed prim seed crypto)
  | .randomArray n => answered .bytes (RustCrypto.randomArray prim n crypto)
  | .randomVec len => answered .bytes (RustCrypto.randomVec prim len crypto)
  | .signatureKeyGen alg => answered .keys (RustCrypto.signatureKeyGen prim alg crypto)
  | .hpkeSeal config pkR info aad ptxt =>
    answered .keys (RustCrypto.hpkeSeal prim config pkR info aad ptxt crypto)
  | .hpkeSetupSenderAndExport config pkR info exporterContext exporterLength =>
    answered .keys (RustCrypto.hpkeSetupSenderAndExport prim config pkR info exporterContext
      exporterLength crypto)

def performed (crypto : RustCrypto prim) (call : Call) : RustCrypto prim :=
  (perform prim crypto call).2

/-- The provider after the calls, in a run with this entropy; it is asked for once, when the
provider is made. -/
def after (os : Nat → EntropySeed) (calls : List Call) : RustCrypto prim :=
  run (performed prim) (.fromEntropy prim (os 0)) calls

variable {prim}

theorem withRng_poisoned {ε α : Type} (wrap : Except ε α → Answer) (poison : ε)
    (draw : prim.Rng → Except ε α × prim.Rng) (working : crypto.poisoned = false) :
    (answered wrap (RustCrypto.withRng prim poison draw crypto)).2.poisoned = false := by
  unfold RustCrypto.withRng
  rw [working]
  rcases draw crypto.rng with ⟨_ | _, rng⟩ <;> rfl

/-- No call leaves the lock poisoned. -/
theorem performed_poisoned (call : Call)
    (working : crypto.poisoned = false) : (performed prim crypto call).poisoned = false := by
  cases call <;>
    simp only [performed, perform, RustCrypto.reseed, RustCrypto.randomArray,
      RustCrypto.randomVec, RustCrypto.signatureKeyGen, RustCrypto.hpkeSeal,
      RustCrypto.hpkeSetupSenderAndExport, RustCrypto.hpkeSend] <;>
    exact withRng_poisoned _ _ _ working

theorem after_poisoned (os : Nat → EntropySeed) (calls : List Call) :
    (after prim os calls).poisoned = false :=
  run_invariant (performed prim) (fun _ _ => True) (·.poisoned = false)
    (fun _ call working _ => performed_poisoned call working) _ calls rfl
    (guarded_of_forall _ _ (fun _ _ => trivial) _ _)

theorem performed_reseed (seed : Option EntropySeed) (working : crypto.poisoned = false) :
    performed prim crypto (.reseed seed) = .newWithSeed prim (seed.getD default) := by
  simp [performed, perform, RustCrypto.reseed, RustCrypto.withRng, working, answered,
    RustCrypto.newWithSeed]

theorem after_reseed (os : Nat → EntropySeed) (before : List Call) (seed : Option EntropySeed) :
    after prim os (before ++ [.reseed seed]) = .newWithSeed prim (seed.getD default) := by
  rw [after, run_append, run_cons, run_nil]
  exact performed_reseed seed (after_poisoned os before)

/-! ### Where the seeds come from -/

variable (prim) in
/-- Wherever the program reseeds, the generator is as new: seeded with the seed that was given, or
with entropy of the run, and then not what it is in a run with other entropy. -/
structure ReseedsAfresh (calls : List Call) : Prop where
  given : ∀ os before seed rest, calls = before ++ .reseed (some seed) :: rest →
    after prim os (before ++ [.reseed (some seed)]) = .newWithSeed prim seed
  fresh : ∀ os before rest, calls = before ++ .reseed none :: rest →
    ∃ k, after prim os (before ++ [.reseed none]) = .newWithSeed prim (os k)
  differs : ∀ os other before rest, calls = before ++ .reseed none :: rest →
    (∀ i j, os i ≠ other j) →
    after prim os (before ++ [.reseed none]) ≠ after prim other (before ++ [.reseed none])

/-- **Fresh entropy.** The program reseeds afresh iff it gives a seed wherever it reseeds: without
one, the generator is seeded with zeros in every run. -/
theorem reseedsAfresh_iff_seeds_given (distinct : Function.Injective prim.fromSeed)
    (calls : List Call) : ReseedsAfresh prim calls ↔ Call.reseed none ∉ calls := by
  constructor
  · intro afresh member
    obtain ⟨before, rest, split⟩ := List.append_of_mem member
    -- a run whose entropy is never the default seed
    let ones : EntropySeed := ⟨List.replicate 32 1, rfl⟩
    obtain ⟨k, seeded⟩ := afresh.fresh (fun _ => ones) before rest split
    rw [after_reseed] at seeded
    have same : prim.fromSeed default = prim.fromSeed ones := congrArg RustCrypto.rng seeded
    have clash : (default : EntropySeed) ≠ ones := by decide
    exact clash (distinct same)
  · intro absent
    have never : ∀ before rest, calls ≠ before ++ Call.reseed none :: rest := by
      rintro before rest rfl
      exact absent (by simp)
    exact {
      given := fun os before seed rest _ => after_reseed os before (some seed)
      fresh := fun _ before rest split => absurd split (never before rest)
      differs := fun _ _ before rest split => absurd split (never before rest) }

/-- A generator that counts the bytes it has given, and gives those of its seed in turn. -/
def samplePrimitives : Primitives where
  Rng := EntropySeed × Nat
  fromSeed seed := (seed, 0)
  tryFillBytes len rng :=
    (some ((List.range len).map fun i => rng.1.raw.getD ((rng.2 + i) % 32) 0), (rng.1, rng.2 + len))
  signingKey _ rng := ((rng.1.raw, rng.1.raw), rng)
  hpkeSeal _ _ _ _ ptxt rng := (.ok (rng.1.raw, ptxt), rng)
  hpkeExportTx _ _ _ _ _ rng := (.ok (rng.1.raw, rng.1.raw), rng)

theorem samplePrimitives_distinct : Function.Injective samplePrimitives.fromSeed :=
  fun _ _ same => congrArg Prod.fst same

/-- A program that draws, reseeds with a seed and draws again. -/
theorem seeded_program_reseedsAfresh :
    ReseedsAfresh samplePrimitives
      [.randomVec 4, .reseed (some ⟨List.replicate 32 7, rfl⟩), .randomArray 8] :=
  (reseedsAfresh_iff_seeds_given samplePrimitives_distinct _).mpr (by decide)

/-- Two runs with different entropy draw the same bytes after they have reseeded without a seed:
the first bytes of the zero seed. -/
theorem unseeded_program_draws_zeros :
    let os : Nat → EntropySeed := fun _ => ⟨List.replicate 32 1, rfl⟩
    let other : Nat → EntropySeed := fun _ => ⟨List.replicate 32 2, rfl⟩
    (∀ i j, os i ≠ other j) ∧
      (after samplePrimitives os [.randomVec 4, .reseed none]).rng = (default, 0) ∧
      (after samplePrimitives other [.randomVec 4, .reseed none]).rng = (default, 0) :=
  ⟨fun _ _ => by simp, rfl, rfl⟩

end CoreCrypto.MlsProvider
