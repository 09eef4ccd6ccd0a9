import Mathlib.Algebra.BigOperators.Group.Finset.Basic
import CoreCrypto.Keystore.Search

/-!
# Tasks that share a database

The operations of `Database` as tasks that run concurrently.  An operation gives way to others
wherever it waits for a lock: the permit of `transaction_semaphore`, the mutex `transaction` and
the mutex `conn`.  Between two such points it runs alone, under the locks it holds by then.
-/

namespace CoreCrypto.Keystore

open CoreCrypto.Library

variable {S : Type}

inductive Lock where
  | semaphore
  | transaction
  | conn
  deriving DecidableEq, Repr

/-- An operation that reads the connection first and then the open transaction; `all typ true`
is the `load_all` that `count` goes on with while a transaction is open. -/
inductive Listing where
  | all (typ : EntityType) (counted : Bool)
  | search (key : SearchKey)
  | childGroups (parent : Bytes)
  | pendingMessages (conversationId : Bytes)

/-- A write into the open transaction. -/
inductive BufferedWrite (S : Type) where
  | save (entity : Entity S)
  | remove (id : EntityId)
  | removePendingMessages (conversationId : Bytes)

/-- The operations of `Database`.  `get` stands for `get_borrowed` as well, `updateKey` for every
operation that needs the connection alone, and `close` for `wipe`. -/
inductive Call (S : Type) where
  | get (id : EntityId)
  | count (typ : EntityType)
  | loadAll (typ : EntityType)
  | search (key : SearchKey)
  | childGroups (parent : Bytes)
  | findPendingMessagesByConversationId (conversationId : Bytes)
  | save (entity : Entity S)
  | remove (id : EntityId)
  | removePendingMessagesByConversationId (conversationId : Bytes)
  | newTransaction
  | tryNewImmediateTransaction
  | commitTransaction (engine : Option CryptoKeystoreError)
  | rollbackTransaction
  | updateKey
  | close

/-- What is done with the permit: a transaction is opened, by an operation that waits for the
permit or by one that does not, or the connection is taken. -/
inductive PermitUse where
  | openTransaction (waits : Bool)
  | take
  deriving DecidableEq, Repr

/-- What is done under the mutex `transaction`, when it is the first mutex. -/
inductive SlotUse (S : Type) where
  | get (id : EntityId)
  | count (typ : EntityType)
  | write (write : BufferedWrite S)
  | openTransaction
  | commit (engine : Option CryptoKeystoreError)
  | rollback

/-- What is done under the mutex `conn`. -/
inductive ConnUse where
  | get (id : EntityId)
  | count (typ : EntityType)
  | list (listing : Listing)
  | commit (engine : Option CryptoKeystoreError)
  | updateKey
  | take

/-- The answer of an operation. -/
inductive Answer (S : Type) where
  | done
  | record (entity : Option (Entity S))
  | records (entities : List (Entity S))
  | number (count : Nat)

/-- How far a task is with its operation. -/
inductive Task (S : Type) where
  | idle
  | asksPermit (use : PermitUse)
  | asksSlot (use : SlotUse S)
  | runsSlot (use : SlotUse S)
  | asksConn (use : ConnUse)
  | runsConn (use : ConnUse)
  | asksMerge (listing : Listing) (persistedRecords : List (Entity S))
  | runsMerge (listing : Listing) (persistedRecords : List (Entity S))
  | finished (answer : Except CryptoKeystoreError (Answer S))

/-- The first thing an operation waits for. -/
def Call.start : Call S → Task S
  | get id => .asksSlot (.get id)
  | count typ => .asksSlot (.count typ)
  | loadAll typ => .asksConn (.list (.all typ false))
  | search key => .asksConn (.list (.search key))
  | childGroups parent => .asksConn (.list (.childGroups parent))
  | findPendingMessagesByConversationId conversationId =>
    .asksConn (.list (.pendingMessages conversationId))
  | save entity => .asksSlot (.write (.save entity))
  | remove id => .asksSlot (.write (.remove id))
  | removePendingMessagesByConversationId conversationId =>
    .asksSlot (.write (.removePendingMessages conversationId))
  | newTransaction => .asksPermit (.openTransaction true)
  | tryNewImmediateTransaction => .asksPermit (.openTransaction false)
  | commitTransaction engine => .asksSlot (.commit engine)
  | rollbackTransaction => .asksSlot .rollback
  | updateKey => .asksConn .updateKey
  | close => .asksPermit .take

namespace Task

/-- The lock the task waits for. -/
def asks : Task S → Option Lock
  | asksPermit .take => some .semaphore
  | asksPermit (.openTransaction true) => some .semaphore
  | asksSlot _ => some .transaction
  | asksMerge _ _ => some .transaction
  | asksConn _ => some .conn
  | _ => none

/-- The permit is in the hands of the task, not yet in a transaction or given back. -/
def holdsPermit : Task S → Bool
  | asksSlot .openTransaction => true
  | runsSlot .openTransaction => true
  | asksConn .take => true
  | runsConn .take => true
  | _ => false

def holdsSlot : Task S → Bool
  | runsSlot _ => true
  | asksConn (.commit _) => true
  | runsConn (.commit _) => true
  | runsMerge _ _ => true
  | _ => false

def holdsConn : Task S → Bool
  | runsConn _ => true
  | asksMerge _ _ => true
  | runsMerge _ _ => true
  | _ => false

end Task

/-! ### Running one task -/

def BufferedWrite.buffer (rt : Runtime S) (tx : KeystoreTransaction S) :
    BufferedWrite S → KeystoreTransaction S
  | save entity => tx.save rt entity
  | remove id => tx.removeByEntityId id
  | removePendingMessages conversationId =>
    tx.removePendingMessagesByConversationId conversationId

namespace Listing

/-- The records that are read from the connection. -/
def persisted (rt : Runtime S) (rows : List (Entity S)) : Listing → List (Entity S)
  | all typ _ => ofType typ rows
  | search key => findAllMatching rt rows key
  | childGroups parent => findAllMatching rt rows (.parentGroupId parent)
  | pendingMessages conversationId => rows.filter (fun e => e.foreignId? = some conversationId)

/-- The records merged with the open transaction. -/
def merged (rt : Runtime S) (tx : KeystoreTransaction S) (persistedRecords : List (Entity S)) :
    Listing → List (Entity S)
  | all typ _ => tx.findAll rt typ persistedRecords
  | search key => tx.search rt key.typ (key.isMatch rt) persistedRecords
  | childGroups parent => tx.childGroups rt parent persistedRecords
  | pendingMessages conversationId =>
    tx.findPendingMessagesByConversationId rt conversationId persistedRecords

def answer (records : List (Entity S)) : Listing → Answer S
  | all _ true => .number records.length
  | _ => .records records

end Listing

/-- Under the mutex `transaction`. -/
def SlotUse.run (rt : Runtime S) (db : Database S) : SlotUse S → Task S × Database S
  | get id =>
    match db.transaction.bind (·.getByEntityId id) with
    | some cachedRecord => (.finished (.ok (.record cachedRecord)), db)
    | none => (.asksConn (.get id), db)
  | count typ =>
    if db.transaction.isSome then (.asksConn (.list (.all typ true)), db)
    else (.asksConn (.count typ), db)
  | write buffered =>
    let (outcome, db) := db.modifyTransaction (fun tx => buffered.buffer rt tx)
    (.finished (outcome.map fun _ => .done), db)
  | openTransaction => (.finished (.ok .done), db.setTransaction (some .new))
  | commit engine =>
    match db.transaction with
    | none => (.finished (.error .mutatingOperationWithoutTransaction), db)
    | some _ => (.asksConn (.commit engine), db)
  | rollback =>
    let (outcome, db) := db.rollbackTransaction
    (.finished (outcome.map fun _ => .done), db)

/-- Under the mutex `conn`. -/
def ConnUse.run (rt : Runtime S) (db : Database S) : ConnUse → Task S × Database S
  | get id =>
    match db.conn with
    | none => (.finished (.error .closed), db)
    | some rows => (.finished (.ok (.record (storedRow rt rows id))), db)
  | count typ =>
    match db.conn with
    | none => (.finished (.error .closed), db)
    | some rows => (.finished (.ok (.number (ofType typ rows).length)), db)
  | list listing =>
    match db.conn with
    | none => (.finished (.error .closed), db)
    | some rows => (.asksMerge listing (listing.persisted rt rows), db)
  | commit engine =>
    let (outcome, db) := db.commitTransaction rt engine
    (.finished (outcome.map fun _ => .done), db)
  | updateKey =>
    match db.conn with
    | none => (.finished (.error .closed), db)
    | some _ => (.finished (.ok .done), db)
  | take =>
    -- the permit is given back whether or not there was a connection to take
    match db.conn with
    | none => (.finished (.error .closed), { db with permits := db.permits + 1 })
    | some _ => (.finished (.ok .done), { db with conn := none, permits := db.permits + 1 })

/-- With the permit in hand. -/
def PermitUse.granted : PermitUse → Task S
  | openTransaction _ => .asksSlot .openTransaction
  | take => .asksConn .take

/-- The permit is taken if there is one; `try_new_immediate_transaction` does not wait for it. -/
def PermitUse.run (db : Database S) (use : PermitUse) : Task S × Database S :=
  if 0 < db.permits then (use.granted, { db with permits := db.permits - 1 })
  else if use = .openTransaction false then (.finished (.error .transactionInProgress), db)
  else (.asksPermit use, db)

/-- One turn of a task, which stays where it is while the lock it asks for is not free. -/
def Task.advance (rt : Runtime S) (db : Database S) (slotFree connFree : Bool) :
    Task S → Task S × Database S
  | idle => (.idle, db)
  | finished answer => (.finished answer, db)
  | asksPermit use => use.run db
  | asksSlot use => (if slotFree then .runsSlot use else .asksSlot use, db)
  | asksConn use => (if connFree then .runsConn use else .asksConn use, db)
  | asksMerge listing records =>
    (if slotFree then .runsMerge listing records else .asksMerge listing records, db)
  | runsSlot use => use.run rt db
  | runsConn use => use.run rt db
  | runsMerge listing records =>
    match db.transaction with
    | none => (.finished (.ok (listing.answer records)), db)
    | some tx => (.finished (.ok (listing.answer (listing.merged rt tx records))), db)

/-! ### Running many tasks -/

/-- The database, the holders of the two mutexes and the tasks. -/
structure Tasks (ι S : Type) where
  db : Database S
  slotOwner : Option ι
  connOwner : Option ι
  task : ι → Task S

variable {ι : Type} [DecidableEq ι]

/-- The holder of a mutex after a turn of task `i`, which holds it then or does not. -/
def transfer (owner : Option ι) (i : ι) (holds : Bool) : Option ι :=
  if holds then some i else if owner = some i then none else owner

namespace Tasks

/-- A database between two operations, and tasks that are about to begin. -/
def start (db : Database S) (calls : ι → Option (Call S)) : Tasks ι S :=
  ⟨db, none, none, fun i => (calls i).elim .idle Call.start⟩

/-- A turn of task `i`. -/
def turn (rt : Runtime S) (s : Tasks ι S) (i : ι) : Tasks ι S :=
  let (task, db) := (s.task i).advance rt s.db s.slotOwner.isNone s.connOwner.isNone
  { db
    slotOwner := transfer s.slotOwner i task.holdsSlot
    connOwner := transfer s.connOwner i task.holdsConn
    task := Function.update s.task i task }

/-- Task `i` begins an operation when it is done with the one before. -/
def begin (s : Tasks ι S) (i : ι) (call : Call S) : Tasks ι S :=
  match s.task i with
  | .idle => { s with task := Function.update s.task i call.start }
  | .finished _ => { s with task := Function.update s.task i call.start }
  | _ => s

end Tasks

/-- What happens next: a task begins an operation, or takes a turn. -/
inductive Event (ι S : Type) where
  | begin (i : ι) (call : Call S)
  | turn (i : ι)

def Tasks.step (rt : Runtime S) (s : Tasks ι S) : Event ι S → Tasks ι S
  | .begin i call => s.begin i call
  | .turn i => s.turn rt i

/-! ### What one turn does to the locks -/

theorem PermitUse.run_cases (db : Database S) (use : PermitUse) :
    (0 < db.permits ∧ use.run db = (use.granted, { db with permits := db.permits - 1 })) ∨
      use.run db = (.finished (.error .transactionInProgress), db) ∨
      use.run db = (.asksPermit use, db) := by
  unfold run
  split
  next free => exact .inl ⟨free, rfl⟩
  next => split <;> simp

namespace Task

/-- What one turn can make of a task and of the database. -/
inductive Next (db : Database S) (slotFree connFree : Bool) : Task S → Task S × Database S → Prop
  | stays (task : Task S) : Next db slotFree connFree task (task, db)
  | finishes (task : Task S) (answer : Except CryptoKeystoreError (Answer S))
      (after : Database S) : Next db slotFree connFree task (.finished answer, after)
  | granted (use : PermitUse) (after : Database S) :
      Next db slotFree connFree (.asksPermit use) (use.granted, after)
  | slot (use : SlotUse S) (free : slotFree = true) :
      Next db slotFree connFree (.asksSlot use) (.runsSlot use, db)
  | conn (use : ConnUse) (free : connFree = true) :
      Next db slotFree connFree (.asksConn use) (.runsConn use, db)
  | merge (listing : Listing) (records : List (Entity S)) (free : slotFree = true) :
      Next db slotFree connFree (.asksMerge listing records) (.runsMerge listing records, db)
  | get (id : EntityId) : Next db slotFree connFree (.runsSlot (.get id)) (.asksConn (.get id), db)
  | count (typ : EntityType) (use : ConnUse) (counts : use = .count typ ∨ use = .list (.all typ true)) :
      Next db slotFree connFree (.runsSlot (.count typ)) (.asksConn use, db)
  | commit (engine : Option CryptoKeystoreError) (opened : db.transaction.isSome = true) :
      Next db slotFree connFree (.runsSlot (.commit engine)) (.asksConn (.commit engine), db)
  | list (listing : Listing) (records : List (Entity S)) (connected : db.conn.isSome = true) :
      Next db slotFree connFree (.runsConn (.list listing)) (.asksMerge listing records, db)

variable (rt : Runtime S) (db : Database S) (slotFree connFree : Bool) {task : Task S}
  {after : Task S × Database S}

theorem next_runsSlot (use : SlotUse S) :
    Next db slotFree connFree (.runsSlot use) (use.run rt db) := by
  cases use with
  | get id =>
    cases cached : db.transaction.bind (·.getByEntityId id) <;> rw [SlotUse.run, cached]
    · exact .get id
    · exact .finishes _ _ _
  | count typ =>
    cases opened : db.transaction.isSome <;> rw [SlotUse.run, opened]
    · exact .count typ _ (.inl rfl)
    · exact .count typ _ (.inr rfl)
  | commit engine =>
    cases opened : db.transaction <;> rw [SlotUse.run, opened]
    · exact .finishes _ _ _
    · exact .commit engine (by rw [opened]; rfl)
  | _ => exact .finishes _ _ _

theorem next_runsConn (use : ConnUse) :
    Next db slotFree connFree (.runsConn use) (use.run rt db) := by
  cases use with
  | list listing =>
    cases connected : db.conn <;> rw [ConnUse.run, connected]
    · exact .finishes _ _ _
    · exact .list listing _ (by rw [connected]; rfl)
  | commit engine => exact .finishes _ _ _
  | _ => cases connected : db.conn <;> rw [ConnUse.run, connected] <;> exact .finishes _ _ _

theorem next_advance (task : Task S) :
    Next db slotFree connFree task (task.advance rt db slotFree connFree) := by
  cases task with
  | asksPermit use =>
    obtain ⟨-, after⟩ | after | after := use.run_cases db <;> rw [advance, after]
    · exact .granted use _
    · exact .finishes _ _ _
    · exact .stays _
  | asksSlot use =>
    cases slotFree
    · exact .stays _
    · exact .slot use rfl
  | asksConn use =>
    cases connFree
    · exact .stays _
    · exact .conn use rfl
  | asksMerge listing records =>
    cases slotFree
    · exact .stays _
    · exact .merge listing records rfl
  | runsSlot use => exact next_runsSlot rt db slotFree connFree use
  | runsConn use => exact next_runsConn rt db slotFree connFree use
  | runsMerge listing records =>
    cases opened : db.transaction <;> rw [advance, opened] <;> exact .finishes _ _ _
  | _ => exact .stays _

variable {db slotFree connFree}

theorem Next.holdsSlot (next : Next db slotFree connFree task after)
    (holds : after.1.holdsSlot = true) : task.holdsSlot = true ∨ slotFree = true := by
  cases next with
  | stays => exact .inl holds
  | granted use => cases use <;> cases holds
  | slot use free => exact .inr free
  | merge listing records free => exact .inr free
  | conn use => cases use <;> first | exact .inl rfl | cases holds
  | commit => exact .inl rfl
  | count typ use counts => obtain rfl | rfl := counts <;> cases holds
  | _ => cases holds

theorem Next.holdsConn (next : Next db slotFree connFree task after)
    (holds : after.1.holdsConn = true) : task.holdsConn = true ∨ connFree = true := by
  cases next with
  | stays => exact .inl holds
  | granted use => cases use <;> cases holds
  | conn use free => exact .inr free
  | merge => exact .inl rfl
  | list => exact .inl rfl
  | _ => cases holds

end Task

/-- One permit is in the open transaction. -/
def Database.inSlot (db : Database S) : Nat := if db.transaction.isSome then 1 else 0

def Task.inHand (task : Task S) : Nat := if task.holdsPermit then 1 else 0

theorem Database.permits_setTransaction (db : Database S)
    (transaction : Option (KeystoreTransaction S)) :
    (db.setTransaction transaction).permits + (db.setTransaction transaction).inSlot =
      db.permits + db.inSlot + if transaction.isSome then 1 else 0 := by
  cases opened : db.transaction <;> simp [setTransaction, inSlot, opened]

theorem Database.permits_modifyTransaction (db : Database S)
    (write : KeystoreTransaction S → KeystoreTransaction S) :
    (db.modifyTransaction write).2.permits + (db.modifyTransaction write).2.inSlot =
      db.permits + db.inSlot := by
  cases opened : db.transaction <;> simp [modifyTransaction, inSlot, opened]

theorem Database.permits_rollbackTransaction (db : Database S) :
    (db.rollbackTransaction).2.permits + (db.rollbackTransaction).2.inSlot =
      db.permits + db.inSlot := by
  cases opened : db.transaction <;> simp [rollbackTransaction, setTransaction, inSlot, opened]

theorem Database.permits_commitTransaction (rt : Runtime S) (db : Database S)
    (engine : Option CryptoKeystoreError) :
    (db.commitTransaction rt engine).2.permits + (db.commitTransaction rt engine).2.inSlot =
      db.permits + db.inSlot := by
  cases opened : db.transaction with
  | none => simp [commitTransaction, opened]
  | some tx =>
    cases committed : tx.commit rt db.conn engine <;>
      simp [commitTransaction, setTransaction, inSlot, opened, committed]

/-- A turn neither makes nor loses a permit. -/
theorem Task.permits_advance (rt : Runtime S) (db : Database S) (slotFree connFree : Bool)
    (task : Task S) :
    (task.advance rt db slotFree connFree).2.permits +
        (task.advance rt db slotFree connFree).2.inSlot +
        (task.advance rt db slotFree connFree).1.inHand =
      db.permits + db.inSlot + task.inHand := by
  cases task with
  | idle => rfl
  | finished answer => rfl
  | asksPermit use =>
    obtain ⟨free, after⟩ | after | after := use.run_cases db <;> rw [advance, after]
    · have taken : db.permits - 1 + db.inSlot + 1 = db.permits + db.inSlot := by omega
      cases use <;> exact taken
    · rfl
  | asksSlot use => cases slotFree <;> cases use <;> rfl
  | asksConn use => cases connFree <;> cases use <;> rfl
  | asksMerge listing records => cases slotFree <;> rfl
  | runsMerge listing records => cases opened : db.transaction <;> simp [advance, opened, inHand, holdsPermit]
  | runsSlot use =>
    cases use with
    | get id =>
      cases cached : db.transaction.bind (·.getByEntityId id) <;>
        simp [advance, SlotUse.run, cached, inHand, holdsPermit]
    | count typ => cases opened : db.transaction <;>
        simp [advance, SlotUse.run, opened, inHand, holdsPermit]
    | write buffered => exact db.permits_modifyTransaction _
    | openTransaction => exact db.permits_setTransaction _
    | commit engine => cases opened : db.transaction <;>
        simp [advance, SlotUse.run, opened, inHand, holdsPermit]
    | rollback => exact db.permits_rollbackTransaction
  | runsConn use =>
    cases use with
    | commit engine => exact db.permits_commitTransaction rt engine
    | _ => cases connected : db.conn <;>
        simp [advance, ConnUse.run, connected, inHand, holdsPermit, Database.inSlot] <;> omega

/-! ### The invariant of a run -/

/-- The mutexes are held by the tasks that run under them, and the one permit is free, in the
open transaction or in the hands of one task. -/
structure Tasks.Consistent [Fintype ι] (s : Tasks ι S) : Prop where
  slot : ∀ i, s.slotOwner = some i ↔ (s.task i).holdsSlot = true
  conn : ∀ i, s.connOwner = some i ↔ (s.task i).holdsConn = true
  permits : s.db.permits + s.db.inSlot + ∑ i, (s.task i).inHand = 1

/-- Handing a mutex over keeps it in the hands of the task that runs under it. -/
theorem transfer_iff {α : Type} (held : α → Bool) (owner : Option ι) (f : ι → α) (i j : ι) (a : α)
    (owned : ∀ j, owner = some j ↔ held (f j) = true)
    (taken : held a = true → held (f i) = true ∨ owner.isNone = true) :
    transfer owner i (held a) = some j ↔ held (Function.update f i a j) = true := by
  by_cases same : j = i
  · subst same
    rw [Function.update_self, transfer]
    cases held a
    · by_cases owns : owner = some j <;> simp [owns]
    · simp
  · rw [Function.update_of_ne same, ← owned j, transfer]
    cases holds : held a
    · by_cases owns : owner = some i
      · simp [owns, Ne.symm same]
      · simp [owns]
    · -- the mutex was free or held by `i`, so `j` did not hold it
      have notOwned : owner ≠ some j := by
        rcases taken holds with held | free
        · rw [(owned i).mpr held]
          simpa using Ne.symm same
        · rw [Option.isNone_iff_eq_none.mp free]
          simp
      simp [notOwned, Ne.symm same]

theorem sum_update [Fintype ι] {α : Type} (weight : α → Nat) (f : ι → α) (i : ι) (a : α) :
    ∑ j, weight (Function.update f i a j) + weight (f i) = ∑ j, weight (f j) + weight a := by
  have others : ∑ j ∈ Finset.univ.erase i, weight (Function.update f i a j) =
      ∑ j ∈ Finset.univ.erase i, weight (f j) := by
    refine Finset.sum_congr rfl fun j member => ?_
    rw [Function.update_of_ne (Finset.ne_of_mem_erase member)]
  rw [← Finset.add_sum_erase _ _ (Finset.mem_univ i), others,
    ← Finset.add_sum_erase _ (fun j => weight (f j)) (Finset.mem_univ i), Function.update_self]
  omega

theorem Call.start_holds (call : Call S) :
    call.start.holdsSlot = false ∧ call.start.holdsConn = false ∧ call.start.inHand = 0 := by
  cases call <;> exact ⟨rfl, rfl, rfl⟩

namespace Tasks

variable {s : Tasks ι S}

theorem forall_update (p : Task S → Prop) (i : ι) {task : Task S} (others : ∀ j, p (s.task j))
    (own : p task) : ∀ j, p (Function.update s.task i task j) := by
  intro j
  by_cases same : j = i
  · subst same
    simpa only [Function.update_self] using own
  · simpa only [Function.update_of_ne same] using others j

variable [Fintype ι]

theorem consistent_turn (rt : Runtime S) (i : ι) (consistent : s.Consistent) :
    (s.turn rt i).Consistent := by
  have next := (s.task i).next_advance rt s.db s.slotOwner.isNone s.connOwner.isNone
  refine ⟨fun j => transfer_iff Task.holdsSlot s.slotOwner s.task i j _ consistent.slot
    next.holdsSlot, fun j => transfer_iff Task.holdsConn s.connOwner s.task i j _ consistent.conn
    next.holdsConn, ?_⟩
  have kept := (s.task i).permits_advance rt s.db s.slotOwner.isNone s.connOwner.isNone
  have moved := sum_update Task.inHand s.task i
    ((s.task i).advance rt s.db s.slotOwner.isNone s.connOwner.isNone).1
  have before := consistent.permits
  simp only [turn]
  omega

theorem consistent_begin (i : ι) (call : Call S) (consistent : s.Consistent) :
    (s.begin i call).Consistent := by
  have starts := call.start_holds
  have replaced (empty : (s.task i).holdsSlot = false ∧ (s.task i).holdsConn = false ∧
      (s.task i).inHand = 0) :
      Consistent { s with task := Function.update s.task i call.start } := by
    refine ⟨fun j => (consistent.slot j).trans ?_, fun j => (consistent.conn j).trans ?_, ?_⟩
    · by_cases same : j = i
      · subst same
        simp [starts.1, empty.1]
      · simp [same]
    · by_cases same : j = i
      · subst same
        simp [starts.2.1, empty.2.1]
      · simp [same]
    · have moved := sum_update Task.inHand s.task i call.start
      have before := consistent.permits
      rw [starts.2.2, empty.2.2] at moved
      simp only
      omega
  unfold begin
  split
  next idle => exact replaced (by rw [idle]; exact ⟨rfl, rfl, rfl⟩)
  next answer finished => exact replaced (by rw [finished]; exact ⟨rfl, rfl, rfl⟩)
  next => exact consistent

omit [DecidableEq ι] in
theorem consistent_start {db : Database S} (calls : ι → Option (Call S))
    (quiet : db.permits + db.inSlot = 1) : (start db calls).Consistent := by
  have begins (i : ι) : ((start db calls).task i).holdsSlot = false ∧
      ((start db calls).task i).holdsConn = false ∧ ((start db calls).task i).inHand = 0 := by
    simp only [start]
    cases calls i with
    | none => exact ⟨rfl, rfl, rfl⟩
    | some call => exact call.start_holds
  refine ⟨fun i => ?_, fun i => ?_, ?_⟩
  · rw [(begins i).1]
    simp [start]
  · rw [(begins i).2.1]
    simp [start]
  · rw [Finset.sum_eq_zero fun i _ => (begins i).2.2]
    exact quiet

end Tasks

end CoreCrypto.Keystore
