import CoreCrypto.TransactionContext.Context
import CoreCrypto.Library.Hoare

/-!
# `ProteusCentral`

The Proteus client: its identity and a cache of sessions over the keystore.  The protocol
itself is third-party code and a parameter (`ProteusLibrary`); what it draws at random is an
argument.  Session ids are strings in the source and stand here as their bytes.
-/

namespace CoreCrypto.Proteus

open Keystore Library

/-- What the Proteus protocol library provides.  `decrypt` and `initFromMessage` read
prekeys from the store they are given and name the prekeys they remove from it. -/
structure ProteusLibrary where
  Identity : Type
  Session : Type
  Envelope : Type
  Seed : Type
  newIdentity : Seed → Identity
  toRawKeyPair : Identity → Bytes × Bytes
  fromRawKeyPair : Bytes → Bytes → Except Nat Identity
  localIdentity : Session → Identity
  serialise : Session → Except Nat Bytes
  deserialise : Identity → Bytes → Except Nat Session
  initFromPrekey : Identity → Bytes → Seed → Except Nat Session
  initFromMessage : Identity → (Nat → Except CryptoKeystoreError (Option Bytes)) → Bytes → Seed →
    Except Nat (Session × Bytes) × List Nat
  encrypt : Session → Bytes → Seed → Except Nat Envelope × Session
  serialiseEnvelope : Envelope → Except Nat Bytes
  decrypt : Session → (Nat → Except CryptoKeystoreError (Option Bytes)) → Bytes → Seed →
    Except Nat Bytes × Session × List Nat
  lastResort : Seed → Except Nat Bytes
  deserialisePrekey : Bytes → Except Nat Unit
  serialiseBundle : Identity → Bytes → Except Nat Bytes

structure ProteusConversationSession (lib : ProteusLibrary) where
  identifier : Bytes
  session : lib.Session

/-- `ProteusSessionCache::CAPACITY`. -/
def proteusSessionCacheCapacity : Nat := 200

structure ProteusCentral (lib : ProteusLibrary) where
  proteusIdentity : lib.Identity
  proteusSessions : LruMap Bytes (ProteusConversationSession lib) proteusSessionCacheCapacity

inductive ProteusError where
  | keystore (error : CryptoKeystoreError)
  | proteus (error : Nat)
  | conversationNotFound (id : Bytes)
  | proteusNotInitialized
  | invalidTransactionContext
  deriving DecidableEq, Repr

variable {S : Type} {lib : ProteusLibrary}

def ofKeystore {σ α : Type} : Except CryptoKeystoreError α → EStateM ProteusError σ α
  | .ok a => pure a
  | .error error => throw (.keystore error)

def ofLibrary {σ α : Type} : Except Nat α → EStateM ProteusError σ α
  | .ok a => pure a
  | .error error => throw (.proteus error)

/-! ### Prekeys -/

/-- `u16::to_be_bytes`. -/
def prekeyKey (id : Nat) : Bytes := [UInt8.ofNat (id / 256), UInt8.ofNat id]

def prekeyId (id : Nat) : EntityId := ⟨.plain .proteusPrekey, prekeyKey id⟩

/-- `PreKeyStore::prekey`. -/
def prekey (rt : Runtime S) (database : Database S) (id : Nat) :
    Except CryptoKeystoreError (Option Bytes) :=
  (database.get rt (prekeyId id)).map fun
    | some (.plain _ _ content) => some content
    | _ => none

/-- `PreKeyStore::remove` of each id in turn. -/
def removePrekeys (database : Database S) (ids : List Nat) : Database S :=
  ids.foldl (fun database id => (database.remove (prekeyId id)).2) database

def lastResortPrekeyId : Nat := 65535

/-- The loop of `get_free_id` with `left` ids before the limit; `none` stands for
`NoFreePrekeyId`. -/
def freeIdFrom (rt : Runtime S) (database : Database S) (id : Nat) :
    Nat → Except CryptoKeystoreError (Option Nat)
  | 0 => .ok none
  | left + 1 => do
    match ← database.get rt (prekeyId id) with
    | none => return some id
    | some _ => freeIdFrom rt database (id + 1) left

/-- `ProteusPrekey::get_free_id`: the limit is `u16::MAX`. -/
def getFreeId (rt : Runtime S) (database : Database S) : Except CryptoKeystoreError (Option Nat) :=
  freeIdFrom rt database 1 (lastResortPrekeyId - 1)

/-! ### Opening the client -/

def identityId : EntityId := ⟨.proteusIdentity, []⟩

def sessionId (id : Bytes) : EntityId := ⟨.proteusSession, id⟩

/-- `Database::save` and `Database::remove` in an operation on the database alone. -/
def saveEntity (rt : Runtime S) (entity : Entity S) : EStateM ProteusError (Database S) Unit := do
  let (outcome, database) := (← get).save rt entity
  set database
  ofKeystore outcome

def createIdentity (lib : ProteusLibrary) (rt : Runtime S) (seed : lib.Seed) :
    EStateM ProteusError (Database S) lib.Identity := do
  let identity := lib.newIdentity seed
  let keyPair := lib.toRawKeyPair identity
  saveEntity rt (.proteusIdentity keyPair.1 keyPair.2)
  return identity

def loadOrCreateIdentity (lib : ProteusLibrary) (rt : Runtime S) (seed : lib.Seed) :
    EStateM ProteusError (Database S) lib.Identity := do
  match ← ofKeystore ((← get).get rt identityId) with
  | some (.proteusIdentity sk pk) => ofLibrary (lib.fromRawKeyPair sk pk)
  | _ => createIdentity lib rt seed

def tryNew (lib : ProteusLibrary) (rt : Runtime S) (seed : lib.Seed) :
    EStateM ProteusError (Database S) (ProteusCentral lib) := do
  let proteusIdentity ← loadOrCreateIdentity lib rt seed
  return { proteusIdentity, proteusSessions := .empty }

/-- The last resort prekey is created if it cannot be found. -/
def lastResortPrekey (rt : Runtime S) (central : ProteusCentral lib) (seed : lib.Seed) :
    EStateM ProteusError (Database S) Bytes := do
  match ← ofKeystore (prekey rt (← get) lastResortPrekeyId) with
  | some lastResort =>
    ofLibrary (lib.deserialisePrekey lastResort)
    ofLibrary (lib.serialiseBundle central.proteusIdentity lastResort)
  | none =>
    let lastResort ← ofLibrary (lib.lastResort seed)
    saveEntity rt (.plain .proteusPrekey (prekeyKey lastResortPrekeyId) lastResort)
    ofLibrary (lib.serialiseBundle central.proteusIdentity lastResort)

/-! ### Sessions -/

/-- What the operations of an open client work on. -/
structure Env (lib : ProteusLibrary) (S : Type) where
  central : ProteusCentral lib
  database : Database S

abbrev Op (lib : ProteusLibrary) (S : Type) := EStateM ProteusError (Env lib S)

def modifySessions (f : LruMap Bytes (ProteusConversationSession lib) proteusSessionCacheCapacity →
    LruMap Bytes (ProteusConversationSession lib) proteusSessionCacheCapacity) : Op lib S Unit :=
  modify fun env => { env with central.proteusSessions := f env.central.proteusSessions }

/-- `ProteusSessionCache::insert`; also how a session changes in place, being the most
recently used entry then. -/
def insertSession (session : ProteusConversationSession lib) : Op lib S Unit :=
  modifySessions (·.insert session.identifier session)

def getOrFetch (rt : Runtime S) (id : Bytes) :
    Op lib S (Option (ProteusConversationSession lib)) := do
  let env ← get
  match env.central.proteusSessions.peek id with
  | some conversation =>
    modifySessions (·.touch id)
    return some conversation
  | none =>
    match ← ofKeystore (env.database.get rt (sessionId id)) with
    | some (.proteusSession key raw) =>
      let session ← ofLibrary (lib.deserialise env.central.proteusIdentity raw)
      insertSession ⟨key, session⟩
      return some ⟨key, session⟩
    | _ => return none

/-- `session_exists`: an error while loading the session counts as absence. -/
def sessionExists (rt : Runtime S) (id : Bytes) : Op lib S Bool := do
  match ← attempt (getOrFetch rt id) with
  | .ok (some _) => return true
  | _ => return false

def sessionSaveByRef (rt : Runtime S) (conversation : ProteusConversationSession lib) :
    Op lib S Unit := do
  let session ← ofLibrary (lib.serialise conversation.session)
  let env ← get
  let (outcome, database) := env.database.save rt (.proteusSession conversation.identifier session)
  set { env with database }
  ofKeystore outcome

def sessionSave (rt : Runtime S) (id : Bytes) : Op lib S Unit := do
  match ← getOrFetch rt id with
  | some conversation => sessionSaveByRef rt conversation
  | none => return ()

def sessionDelete (id : Bytes) : Op lib S Unit := do
  let env ← get
  match env.database.remove (sessionId id) with
  | (.ok (), database) =>
    set { env with database }
    modifySessions (·.remove id)
  | (.error _, _) => return ()

/-- `session_from_prekey`, then saved as `proteus_session_from_prekey` does. -/
def sessionFromPrekey (rt : Runtime S) (id key : Bytes) (seed : lib.Seed) : Op lib S Unit := do
  let env ← get
  let session ← ofLibrary (lib.initFromPrekey env.central.proteusIdentity key seed)
  insertSession ⟨id, session⟩
  sessionSaveByRef rt ⟨id, session⟩

def sessionFromMessage (rt : Runtime S) (id envelope : Bytes) (seed : lib.Seed) :
    Op lib S Bytes := do
  let env ← get
  let (outcome, removed) :=
    lib.initFromMessage env.central.proteusIdentity (prekey rt env.database) envelope seed
  set { env with database := removePrekeys env.database removed }
  let (session, payload) ← ofLibrary outcome
  insertSession ⟨id, session⟩
  sessionSaveByRef rt ⟨id, session⟩
  return payload

def encryptSession (rt : Runtime S) (conversation : ProteusConversationSession lib)
    (plaintext : Bytes) (seed : lib.Seed) : Op lib S Bytes := do
  let (outcome, session) := lib.encrypt conversation.session plaintext seed
  insertSession { conversation with session }
  let envelope ← ofLibrary outcome
  let ciphertext ← ofLibrary (lib.serialiseEnvelope envelope)
  sessionSaveByRef rt { conversation with session }
  return ciphertext

def encrypt (rt : Runtime S) (id plaintext : Bytes) (seed : lib.Seed) : Op lib S Bytes := do
  match ← getOrFetch rt id with
  | some conversation => encryptSession rt conversation plaintext seed
  | none => throw (.conversationNotFound id)

/-- Sessions that do not exist are skipped; the first error ends the batch.  `acc` is the
map of ciphertexts so far. -/
def encryptBatched (rt : Runtime S) (plaintext : Bytes) (acc : AList (fun _ : Bytes => Bytes)) :
    List (Bytes × lib.Seed) → Op lib S (AList (fun _ : Bytes => Bytes))
  | [] => return acc
  | (id, seed) :: rest => do
    match ← getOrFetch rt id with
    | some conversation =>
      let ciphertext ← encryptSession rt conversation plaintext seed
      encryptBatched rt plaintext (acc.insert conversation.identifier ciphertext) rest
    | none => encryptBatched rt plaintext acc rest

def decryptSession (rt : Runtime S) (conversation : ProteusConversationSession lib)
    (ciphertext : Bytes) (seed : lib.Seed) : Op lib S Bytes := do
  let env ← get
  let (outcome, session, removed) :=
    lib.decrypt conversation.session (prekey rt env.database) ciphertext seed
  set { env with database := removePrekeys env.database removed }
  insertSession { conversation with session }
  let plaintext ← ofLibrary outcome
  sessionSaveByRef rt { conversation with session }
  return plaintext

def decrypt (rt : Runtime S) (id ciphertext : Bytes) (seed : lib.Seed) : Op lib S Bytes := do
  match ← getOrFetch rt id with
  | some conversation => decryptSession rt conversation ciphertext seed
  | none => throw (.conversationNotFound id)

/-! ### Through a transaction context -/

open TransactionContext in
/-- Every Proteus call of a context but `proteus_init`: it needs a valid context and an
open client.  What the call did to the client and the database stays, also on an error. -/
def onCentral {H α : Type} (core : Core S H (ProteusCentral lib))
    (inner : TransactionContextInner) (op : Op lib S α) :
    Except ProteusError α × Core S H (ProteusCentral lib) :=
  match inner, core.proteus with
  | .invalid, _ => (.error .invalidTransactionContext, core)
  | .valid _, none => (.error .proteusNotInitialized, core)
  | .valid _, some central =>
    match op ⟨central, core.database⟩ with
    | .ok a env => (.ok a, { core with proteus := some env.central, database := env.database })
    | .error error env =>
      (.error error, { core with proteus := some env.central, database := env.database })

/-- What `proteus_init` does before it installs the client. -/
def openClient (lib : ProteusLibrary) (rt : Runtime S) (seed lastResortSeed : lib.Seed) :
    EStateM ProteusError (Database S) (ProteusCentral lib) := do
  let central ← tryNew lib rt seed
  -- make sure the last resort prekey exists
  let _ ← lastResortPrekey rt central lastResortSeed
  return central

open TransactionContext in
def proteusInit {H : Type} (rt : Runtime S) (core : Core S H (ProteusCentral lib))
    (inner : TransactionContextInner) (seed lastResortSeed : lib.Seed) :
    Except ProteusError Unit × Core S H (ProteusCentral lib) :=
  match inner with
  | .invalid => (.error .invalidTransactionContext, core)
  | .valid _ =>
    match openClient lib rt seed lastResortSeed core.database with
    | .ok central database => (.ok (), { core with proteus := some central, database })
    | .error error database => (.error error, { core with database })

end CoreCrypto.Proteus
