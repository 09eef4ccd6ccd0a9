import CoreCrypto.Keystore.Entity

/-!
# `KeystoreTransaction`

A transaction buffers its writes in memory: `cache` holds the saved entities and `deleted`
the ids to delete.  `commit` executes all saves and then all deletions against the stored
rows, in one transaction of the SQL engine.
-/

namespace CoreCrypto.Keystore

inductive CryptoKeystoreError where
  | closed
  | transactionInProgress
  | mutatingOperationWithoutTransaction
  | rusqliteError (code : Nat)
  | alreadyExists (collectionName : String)
  deriving DecidableEq, Repr

/-- `itertools::unique_by`: of the elements with one key, the first. -/
def uniqueBy {α κ : Type} [DecidableEq κ] (key : α → κ) : List α → List α
  | [] => []
  | a :: rest => a :: (uniqueBy key rest).filter (fun b => key b ≠ key a)

structure KeystoreTransaction (S : Type) where
  cache : AList (fun _ : EntityId => Entity S)
  deleted : List EntityId

variable {S : Type}

namespace KeystoreTransaction

def new : KeystoreTransaction S := ⟨∅, []⟩

/-- Saving takes the entity out of the set of deletions. -/
def save (rt : Runtime S) (tx : KeystoreTransaction S) (entity : Entity S) :
    KeystoreTransaction S :=
  { cache := tx.cache.insert (rt.fromEntity entity) entity
    deleted := tx.deleted.filter (fun id => id ≠ rt.fromEntity entity) }

def removeByEntityId (tx : KeystoreTransaction S) (entityId : EntityId) :
    KeystoreTransaction S :=
  { cache := tx.cache.erase entityId
    deleted := tx.deleted.insert entityId }

/-- Keeps the cached pending messages of other conversations.  The deletion is recorded
under the conversation id, which is not the primary key of any message. -/
def removePendingMessagesByConversationId (tx : KeystoreTransaction S)
    (conversationId : Bytes) : KeystoreTransaction S :=
  { cache :=
      ⟨tx.cache.entries.filter (fun e => e.2.foreignId? ≠ some conversationId),
        tx.cache.nodupKeys.sublist List.filter_sublist⟩
    deleted := tx.deleted.insert ⟨.mlsPendingMessage, conversationId⟩ }

/-- `some (some e)`: the transaction holds the record; `some none`: it holds its deletion;
`none`: it knows nothing about it. -/
def getByEntityId (tx : KeystoreTransaction S) (entityId : EntityId) :
    Option (Option (Entity S)) :=
  if entityId ∈ tx.deleted then some none else (tx.cache.lookup entityId).map some

def findAllInCache (rt : Runtime S) (tx : KeystoreTransaction S) (typ : EntityType) :
    List (Entity S) :=
  (rt.values tx.cache).filter (fun e => e.typ = typ)

def mergeRecords (rt : Runtime S) (tx : KeystoreTransaction S)
    (recordsA recordsB : List (Entity S)) : List (Entity S) :=
  (uniqueBy (Entity.primaryKey rt.toHashes) (recordsA ++ recordsB)).filter
    (fun e => rt.fromEntity e ∉ tx.deleted)

def findAll (rt : Runtime S) (tx : KeystoreTransaction S) (typ : EntityType)
    (persistedRecords : List (Entity S)) : List (Entity S) :=
  tx.mergeRecords rt (tx.findAllInCache rt typ) persistedRecords

def search (rt : Runtime S) (tx : KeystoreTransaction S) (typ : EntityType)
    (isMatch : Entity S → Bool) (persistedRecords : List (Entity S)) : List (Entity S) :=
  tx.mergeRecords rt ((tx.findAllInCache rt typ).filter isMatch) persistedRecords

def childGroups (rt : Runtime S) (tx : KeystoreTransaction S) (parent : Bytes)
    (persistedRecords : List (Entity S)) : List (Entity S) :=
  tx.search rt .persistedMlsGroup (fun e => e.parentId? = some parent) persistedRecords

def findPendingMessagesByConversationId (rt : Runtime S) (tx : KeystoreTransaction S)
    (conversationId : Bytes) (persistedRecords : List (Entity S)) : List (Entity S) :=
  tx.search rt .mlsPendingMessage (fun e => e.foreignId? = some conversationId)
    persistedRecords

end KeystoreTransaction

/-! ### Writing to the stored rows -/

/-- The error of an `INSERT` whose unique key is taken: `SQLITE_CONSTRAINT_UNIQUE`, which the save
of an enrollment translates. -/
def EntityType.keyTaken : EntityType → CryptoKeystoreError
  | plain .storedE2eiEnrollment => .alreadyExists "e2ei_enrollment"
  | _ => .rusqliteError 2067

/-- `Entity::execute_save` on the rows of all collections, in row order. -/
def executeSave (rt : Runtime S) (rows : List (Entity S)) (entity : Entity S) :
    Except CryptoKeystoreError (List (Entity S)) :=
  match entity.typ.saveMode with
  | .insert =>
    if rows.any (fun e => rt.fromEntity e = rt.fromEntity entity) then
      .error entity.typ.keyTaken
    else .ok (rows ++ [entity])
  | .append => .ok (rows ++ [entity])
  | .upsert | .upsertText =>
    .ok (rows.filter (fun e => rt.fromEntity e ≠ rt.fromEntity entity) ++ [entity])

/-- The rows an id in the set of deletions stands for: pending messages are deleted by
conversation, the Proteus identity without any key, and by a text key nothing. -/
def EntityId.selects (rt : Runtime S) (id : EntityId) (entity : Entity S) : Bool :=
  match id.typ with
  | .mlsPendingMessage => entity.foreignId? = some id.id
  | .proteusIdentity => entity.typ = .proteusIdentity
  | typ => typ.saveMode ≠ .upsertText ∧ rt.fromEntity entity = id

/-- `EntityId::execute_delete`. -/
def executeDelete (rt : Runtime S) (rows : List (Entity S)) (id : EntityId) :
    List (Entity S) :=
  rows.filter (fun e => !id.selects rt e)

namespace KeystoreTransaction

def isEmpty (tx : KeystoreTransaction S) : Bool :=
  tx.cache.entries.isEmpty && tx.deleted.isEmpty

/-- What executing the buffered operations makes of the stored rows. -/
def execute (rt : Runtime S) (tx : KeystoreTransaction S) (rows : List (Entity S)) :
    Except CryptoKeystoreError (List (Entity S)) := do
  let saved ← (rt.values tx.cache).foldlM (executeSave rt) rows
  return tx.deleted.foldl (executeDelete rt) saved

/-- `commit` against the connection `conn`; `engine` is the error the SQL engine reports
while it executes the batch, if any.  On an error the engine rolls the batch back. -/
def commit (rt : Runtime S) (tx : KeystoreTransaction S) (conn : Option (List (Entity S)))
    (engine : Option CryptoKeystoreError) : Except CryptoKeystoreError (List (Entity S)) :=
  match conn with
  | none => .error .closed
  | some rows =>
    if tx.isEmpty then .ok rows
    else match engine with
      | some error => .error error
      | none => tx.execute rt rows

end KeystoreTransaction

end CoreCrypto.Keystore
