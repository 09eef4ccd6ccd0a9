import CoreCrypto.Keystore.Operation
import CoreCrypto.Library.LruMap

/-!
# `TransactionContext`

A context is opened together with a keystore transaction and ended by `finish` or `abort`;
both leave it invalid.  The cached conversations are values of the parameter type `H`, the
Proteus client is a value of `P`: neither function looks into them.
-/

namespace CoreCrypto.TransactionContext

open Keystore

variable {S H P : Type}

/-- `ConversationCache::CAPACITY`. -/
def conversationCacheCapacity : Nat := 200

/-- The part of an MLS session that outlives a transaction. -/
structure Session (H : Type) where
  conversationCache : Library.LruMap ConversationId H conversationCacheCapacity
  /-- The calls made to the epoch observer so far. -/
  epochChanges : List (ConversationId × Nat)

/-- `CoreCrypto`: what one client shares between its transactions. -/
structure Core (S H P : Type) where
  database : Database S
  mls : Option (Session H)
  proteus : Option P

inductive TransactionContextInner where
  | valid (pendingEpochChanges : List (ConversationId × Nat))
  | invalid
  deriving DecidableEq, Repr

inductive TransactionError where
  | invalidTransactionContext
  | keystore (error : CryptoKeystoreError)
  deriving DecidableEq, Repr

/-- `TransactionContext::new`; `none` while the permit is held by another transaction. -/
def new (core : Core S H P) : Option (Core S H P × TransactionContextInner) :=
  core.database.newTransaction.map fun database => ({ core with database }, .valid [])

def clearConversationCache (session : Session H) : Session H :=
  { session with conversationCache := .empty }

def notifyEpochChanged (changes : List (ConversationId × Nat)) (session : Session H) :
    Session H :=
  { session with epochChanges := session.epochChanges ++ changes }

def finish (rt : Runtime S) (core : Core S H P) (inner : TransactionContextInner)
    (engine : Option CryptoKeystoreError) :
    Except TransactionError Unit × Core S H P × TransactionContextInner :=
  match inner with
  | .invalid => (.error .invalidTransactionContext, core, .invalid)
  | .valid pendingEpochChanges =>
    match core.database.commitTransaction rt engine with
    | (.ok (), database) =>
      let mls := core.mls.map (notifyEpochChanged pendingEpochChanges)
      (.ok (), { core with database, mls }, .invalid)
    | (.error error, database) =>
      -- the conversations may hold changes that never reached the keystore
      let mls := core.mls.map clearConversationCache
      (.error (.keystore error), { core with database, mls }, .invalid)

def abort (core : Core S H P) (inner : TransactionContextInner) :
    Except TransactionError Unit × Core S H P × TransactionContextInner :=
  match inner with
  | .invalid => (.error .invalidTransactionContext, core, .invalid)
  | .valid _ =>
    let mls := core.mls.map clearConversationCache
    match core.database.rollbackTransaction with
    | (.ok (), database) => (.ok (), { core with database, mls }, .invalid)
    | (.error error, database) =>
      (.error (.keystore error), { core with database, mls }, .invalid)

/-- `queue_epoch_changed`. -/
def queueEpochChanged (inner : TransactionContextInner) (conversationId : ConversationId)
    (epoch : Nat) : Except TransactionError TransactionContextInner :=
  match inner with
  | .invalid => .error .invalidTransactionContext
  | .valid pendingEpochChanges =>
    .ok (.valid (pendingEpochChanges ++ [(conversationId, epoch)]))

end CoreCrypto.TransactionContext
