import CoreCrypto.Keystore.Transaction

/-!
# `Database`

The connection, the slot of the open transaction and the semaphore that lets one
transaction exist at a time.  A `KeystoreTransaction` owns its permit, so emptying the slot
gives the permit back.
-/

namespace CoreCrypto.Keystore

variable {S : Type}

structure Database (S : Type) where
  /-- The stored rows in row order; `none` once the connection was taken. -/
  conn : Option (List (Entity S))
  transaction : Option (KeystoreTransaction S)
  /-- Free permits of `transaction_semaphore`. -/
  permits : Nat

namespace Database

/-- `ALLOWED_CONCURRENT_TRANSACTIONS_COUNT`. -/
def allowedConcurrentTransactionsCount : Nat := 1

def open' (rows : List (Entity S)) : Database S :=
  ⟨some rows, none, allowedConcurrentTransactionsCount⟩

/-- Overwrites the slot; a transaction that was in it is dropped with its permit. -/
def setTransaction (db : Database S) (transaction : Option (KeystoreTransaction S)) :
    Database S :=
  { db with
    transaction
    permits := if db.transaction.isSome then db.permits + 1 else db.permits }

/-- Waits for a permit: `none` while there is none. -/
def newTransaction (db : Database S) : Option (Database S) :=
  if 0 < db.permits then
    some ({ db with permits := db.permits - 1 }.setTransaction (some .new))
  else none

def tryNewImmediateTransaction (db : Database S) :
    Except CryptoKeystoreError (Database S) :=
  match db.newTransaction with
  | some db => .ok db
  | none => .error .transactionInProgress

def commitTransaction (rt : Runtime S) (db : Database S)
    (engine : Option CryptoKeystoreError) : Except CryptoKeystoreError Unit × Database S :=
  match db.transaction with
  | none => (.error .mutatingOperationWithoutTransaction, db)
  | some tx =>
    match tx.commit rt db.conn engine with
    | .error error => (.error error, db)
    | .ok rows => (.ok (), { db with conn := some rows }.setTransaction none)

def rollbackTransaction (db : Database S) :
    Except CryptoKeystoreError Unit × Database S :=
  match db.transaction with
  | none => (.error .mutatingOperationWithoutTransaction, db)
  | some _ => (.ok (), db.setTransaction none)

/-- `close`: waits for the permit like `new_transaction`, takes the connection and gives
the permit back. -/
def close (db : Database S) : Option (Except CryptoKeystoreError Unit × Database S) :=
  if 0 < db.permits then
    some (match db.conn with
      | none => (.error .closed, db)
      | some _ => (.ok (), { db with conn := none }))
  else none

/-! ### Writing into the open transaction -/

def modifyTransaction (db : Database S)
    (write : KeystoreTransaction S → KeystoreTransaction S) :
    Except CryptoKeystoreError Unit × Database S :=
  match db.transaction with
  | none => (.error .mutatingOperationWithoutTransaction, db)
  | some tx => (.ok (), { db with transaction := some (write tx) })

def save (rt : Runtime S) (db : Database S) (entity : Entity S) :
    Except CryptoKeystoreError Unit × Database S :=
  db.modifyTransaction (·.save rt entity)

def remove (db : Database S) (id : EntityId) : Except CryptoKeystoreError Unit × Database S :=
  db.modifyTransaction (·.removeByEntityId id)

def removePendingMessagesByConversationId (db : Database S) (conversationId : Bytes) :
    Except CryptoKeystoreError Unit × Database S :=
  db.modifyTransaction (·.removePendingMessagesByConversationId conversationId)

/-! ### Reading through the open transaction -/

def rows (db : Database S) : Except CryptoKeystoreError (List (Entity S)) :=
  match db.conn with
  | none => .error .closed
  | some rows => .ok rows

/-- `get`: a stored row is not found by a text key. -/
def get (rt : Runtime S) (db : Database S) (id : EntityId) :
    Except CryptoKeystoreError (Option (Entity S)) :=
  match db.transaction.bind (·.getByEntityId id) with
  | some cachedRecord => .ok cachedRecord
  | none => db.rows.map
      (·.find? (fun e => id.typ.saveMode ≠ .upsertText ∧ rt.fromEntity e = id))

/-- `search`: the rows of a collection that match, merged with the open transaction. -/
def search (rt : Runtime S) (db : Database S) (typ : EntityType)
    (isMatch : Entity S → Bool) : Except CryptoKeystoreError (List (Entity S)) := do
  let persistedRecords := (← db.rows).filter (fun e => e.typ = typ ∧ isMatch e)
  return match db.transaction with
    | none => persistedRecords
    | some tx => tx.search rt typ isMatch persistedRecords

def loadAll (rt : Runtime S) (db : Database S) (typ : EntityType) :
    Except CryptoKeystoreError (List (Entity S)) := do
  let persistedRecords := (← db.rows).filter (fun e => e.typ = typ)
  return match db.transaction with
    | none => persistedRecords
    | some tx => tx.findAll rt typ persistedRecords

def count (rt : Runtime S) (db : Database S) (typ : EntityType) :
    Except CryptoKeystoreError Nat :=
  (db.loadAll rt typ).map List.length

def childGroups (rt : Runtime S) (db : Database S) (parent : Bytes) :
    Except CryptoKeystoreError (List (Entity S)) :=
  db.search rt .persistedMlsGroup (fun e => e.parentId? = some parent)

def findPendingMessagesByConversationId (rt : Runtime S) (db : Database S)
    (conversationId : Bytes) : Except CryptoKeystoreError (List (Entity S)) :=
  db.search rt .mlsPendingMessage (fun e => e.foreignId? = some conversationId)

end Database

end CoreCrypto.Keystore
