import CoreCrypto.TransactionContext.Context
import CoreCrypto.Library.Run

/-!
# What a finished transaction context leaves behind

The permit and the transaction slot exclude each other, and a valid context owns the transaction in
the slot.  `commit_transaction` empties the slot on success only, while `finish` invalidates the
context either way.
-/

namespace CoreCrypto.TransactionContext

open Keystore Library

variable {S H P : Type} {db db' : Database S} {engine : Option CryptoKeystoreError}
  {rt : Runtime S} {ε α : Type}

/-! ### The client and its steps -/

structure World (S H P : Type) where
  core : Core S H P
  contexts : List TransactionContextInner

inductive Step (S H P : Type) where
  | new
  | access (operation : Operation S CryptoKeystoreError Unit)
  | session (change : Option (Session H) → Option (Session H))
  | proteus (change : Option P → Option P)
  | queueEpochChanged (context : Nat) (conversationId : ConversationId) (epoch : Nat)
  | finish (context : Nat) (engine : Option CryptoKeystoreError)
  | abort (context : Nat)
  | transactionally (operation : Operation S CryptoKeystoreError Unit)
      (engine : Option CryptoKeystoreError)
  | close

/-- Runs a call on the context with this index and stores the context it leaves. -/
def World.onContext (w : World S H P) (context : Nat)
    (call : Core S H P → TransactionContextInner →
      Core S H P × TransactionContextInner) : World S H P :=
  match w.contexts[context]? with
  | none => w
  | some inner =>
    let (core, inner) := call w.core inner
    { core, contexts := w.contexts.set context inner }

/-- A step that has to wait for the permit leaves the world as it is. -/
def World.step (rt : Runtime S) (w : World S H P) : Step S H P → World S H P
  | .new =>
    match TransactionContext.new w.core with
    | none => w
    | some (core, inner) => { core, contexts := w.contexts ++ [inner] }
  | .access operation =>
    { w with core.database := (operation.run w.core.database).2 }
  | .session change => { w with core.mls := change w.core.mls }
  | .proteus change => { w with core.proteus := change w.core.proteus }
  | .queueEpochChanged context conversationId epoch =>
    w.onContext context fun core inner =>
      match TransactionContext.queueEpochChanged inner conversationId epoch with
      | .ok inner => (core, inner)
      | .error _ => (core, inner)
  | .finish context engine =>
    w.onContext context fun core inner => (TransactionContext.finish rt core inner engine).2
  | .abort context =>
    w.onContext context fun core inner => (TransactionContext.abort core inner).2
  | .transactionally operation engine =>
    { w with core.database := (transactionally rt w.core.database operation engine).2 }
  | .close =>
    match w.core.database.close with
    | none => w
    | some (_, database) => { w with core.database := database }

def World.initial (rows : List (Entity S)) (mls : Option (Session H)) (proteus : Option P) :
    World S H P :=
  { core := { database := .open' rows, mls, proteus }, contexts := [] }

/-! ### The permit and the slot -/

/-- The one permit is either free or owned by the transaction in the slot. -/
def PermitBalanced (db : Database S) : Prop :=
  db.permits = if db.transaction.isSome then 0 else 1

theorem PermitBalanced.free (balanced : PermitBalanced db)
    (empty : db.transaction = none) : db.permits = 1 := by
  rw [show db.permits = _ from balanced, empty]
  rfl

theorem balanced_setTransaction_none (balanced : PermitBalanced db) :
    PermitBalanced (db.setTransaction none) := by
  unfold PermitBalanced at *
  simp only [Database.setTransaction, balanced]
  cases db.transaction <;> simp

theorem newTransaction_eq (balanced : PermitBalanced db) (opened : db.newTransaction = some db') :
    db.transaction = none ∧ db' = { conn := db.conn, transaction := some .new, permits := 0 } := by
  unfold PermitBalanced at balanced
  unfold Database.newTransaction at opened
  cases slot : db.transaction with
  | some tx => simp [balanced, slot] at opened
  | none =>
    rw [slot] at balanced
    refine ⟨rfl, ?_⟩
    simpa [balanced, slot, Database.setTransaction] using opened.symm

/-- The commit of the transaction in the slot goes through: the connection is open and
there is nothing to write, or the SQL engine writes everything. -/
def CommitSucceeds (rt : Runtime S) (db : Database S) (engine : Option CryptoKeystoreError) :
    Prop :=
  ∃ rows tx, db.conn = some rows ∧ db.transaction = some tx ∧
    (tx.isEmpty = true ∨ engine = none ∧ ∃ written, tx.execute rt rows = .ok written)

theorem commitTransaction_of_succeeds (succeeds : CommitSucceeds rt db engine) :
    ∃ rows, db.commitTransaction rt engine =
      (.ok (), { db with conn := some rows }.setTransaction none) := by
  obtain ⟨rows, tx, conn, slot, empty | ⟨quiet, written, executed⟩⟩ := succeeds
  · exact ⟨rows, by simp [Database.commitTransaction, KeystoreTransaction.commit, slot, conn, empty]⟩
  · cases none : tx.isEmpty with
    | true =>
      exact ⟨rows, by simp [Database.commitTransaction, KeystoreTransaction.commit, slot, conn, none]⟩
    | false =>
      exact ⟨written, by
        simp [Database.commitTransaction, KeystoreTransaction.commit, slot, conn, none, quiet,
          executed]⟩

theorem commitTransaction_of_not_succeeds (fails : ¬ CommitSucceeds rt db engine) :
    ∃ error, db.commitTransaction rt engine = (.error error, db) := by
  cases slot : db.transaction with
  | none => exact ⟨_, by simp only [Database.commitTransaction, slot]; rfl⟩
  | some tx =>
    cases result : tx.commit rt db.conn engine with
    | error error => exact ⟨error, by simp only [Database.commitTransaction, slot, result]⟩
    | ok written =>
      -- every way to an `Ok` of `commit` is one of those `CommitSucceeds` lists
      refine absurd ?_ fails
      unfold KeystoreTransaction.commit at result
      split at result
      next => cases result
      next rows conn =>
        split at result
        next empty => exact ⟨rows, tx, conn, slot, .inl empty⟩
        next =>
          split at result
          next => cases result
          next quiet => exact ⟨rows, tx, conn, slot, .inr ⟨rfl, written, result⟩⟩

theorem commitTransaction_balanced (rt : Runtime S) (engine : Option CryptoKeystoreError)
    (balanced : PermitBalanced db) : PermitBalanced (db.commitTransaction rt engine).2 := by
  by_cases succeeds : CommitSucceeds rt db engine
  · obtain ⟨rows, committed⟩ := commitTransaction_of_succeeds succeeds
    rw [committed]
    exact balanced_setTransaction_none balanced
  · obtain ⟨error, failed⟩ := commitTransaction_of_not_succeeds succeeds
    rw [failed]
    exact balanced

theorem rollbackTransaction_database (db : Database S) :
    db.rollbackTransaction.2 = db.setTransaction none := by
  unfold Database.rollbackTransaction
  split
  next empty =>
    cases db
    simp_all [Database.setTransaction]
  next => rfl

/-! ### Ending a context -/

@[simp] theorem finish_valid_database (rt : Runtime S) (core : Core S H P)
    (changes : List (ConversationId × Nat)) (engine : Option CryptoKeystoreError) :
    (finish rt core (.valid changes) engine).2.1.database =
      (core.database.commitTransaction rt engine).2 := by
  simp only [finish]
  split <;> simp_all

@[simp] theorem abort_valid_database (core : Core S H P) (changes : List (ConversationId × Nat)) :
    (abort core (.valid changes)).2.1.database = core.database.setTransaction none := by
  rw [← rollbackTransaction_database]
  simp only [abort]
  split <;> simp_all

@[simp] theorem finish_context (rt : Runtime S) (core : Core S H P)
    (inner : TransactionContextInner) (engine : Option CryptoKeystoreError) :
    (finish rt core inner engine).2.2 = .invalid := by
  unfold finish
  split
  next => rfl
  next => split <;> rfl

@[simp] theorem abort_context (core : Core S H P) (inner : TransactionContextInner) :
    (abort core inner).2.2 = .invalid := by
  unfold abort
  split
  next => rfl
  next => simp only; split <;> rfl

/-- What `transactionally` leaves when it had to open the transaction itself. -/
theorem transactionally_opened (rt : Runtime S) (operation : Operation S ε α)
    (engine : Option CryptoKeystoreError) (opened : db.newTransaction = some db') :
    (transactionally rt db operation engine).2 =
      if (operation.run db').1.isOk then ((operation.run db').2.commitTransaction rt engine).2
      else (operation.run db').2.setTransaction none := by
  simp only [transactionally, Database.tryNewImmediateTransaction, opened]
  rcases outcome : operation.run db' with ⟨error | a, after⟩
  · rw [if_neg (by simp [Except.isOk, Except.toBool]), ← rollbackTransaction_database]
    simp only
    split <;> simp_all
  · rw [if_pos (by simp [Except.isOk, Except.toBool])]
    simp only
    split <;> simp_all

theorem transactionally_busy (rt : Runtime S) (operation : Operation S ε α)
    (engine : Option CryptoKeystoreError) (busy : db.newTransaction = none) :
    (transactionally rt db operation engine).2 = (operation.run db).2 := by
  simp only [transactionally, Database.tryNewImmediateTransaction, busy]

/-! ### The invariant over runs -/

def TransactionContextInner.isValid : TransactionContextInner → Bool
  | valid _ => true
  | invalid => false

/-- The permit and the slot exclude each other, and no valid context is left without the
transaction it was opened with. -/
structure Coherent (w : World S H P) : Prop where
  balanced : PermitBalanced w.core.database
  owner : w.contexts.countP TransactionContextInner.isValid + w.core.database.permits ≤ 1

theorem countP_set_context (contexts : List TransactionContextInner) (context : Nat)
    (before after : TransactionContextInner) (found : contexts[context]? = some before) :
    (contexts.set context after).countP TransactionContextInner.isValid +
        before.isValid.toNat =
      contexts.countP TransactionContextInner.isValid + after.isValid.toNat := by
  induction contexts generalizing context with
  | nil => simp at found
  | cons first rest ih =>
    cases context with
    | zero =>
      simp only [List.getElem?_cons_zero, Option.some.injEq] at found
      subst found
      simp only [List.set_cons_zero, List.countP_cons]
      cases first.isValid <;> cases after.isValid <;> simp
    | succ context =>
      have tail := ih context (by simpa using found)
      simp only [List.set_cons_succ, List.countP_cons]
      omega

variable {w : World S H P}

/-- A call on a context keeps the invariant if it keeps the balance, turns no context valid
and frees the permit only by invalidating the context. -/
theorem onContext_coherent (context : Nat)
    {call : Core S H P → TransactionContextInner → Core S H P × TransactionContextInner}
    (coherent : Coherent w) (balanced : ∀ inner, PermitBalanced (call w.core inner).1.database)
    (owner : ∀ inner, (call w.core inner).2.isValid = false ∧ inner.isValid = true ∨
      (call w.core inner).2.isValid = inner.isValid ∧
        (call w.core inner).1.database.permits = w.core.database.permits) :
    Coherent (w.onContext context call) := by
  unfold World.onContext
  split
  next => exact coherent
  next inner found =>
    have count := countP_set_context w.contexts context inner (call w.core inner).2 found
    refine ⟨balanced inner, ?_⟩
    have bound := coherent.owner
    rcases owner inner with ⟨ended, wasValid⟩ | ⟨same, kept⟩
    · have small : (call w.core inner).1.database.permits ≤ 1 := by
        rw [balanced inner]
        split <;> omega
      simp only [ended, wasValid, Bool.toNat_true, Bool.toNat_false] at count
      simp only
      omega
    · simp only [same] at count
      simp only [kept]
      omega

theorem operation_balanced (operation : Operation S ε α)
    (balanced : PermitBalanced db) : PermitBalanced (operation.run db).2 := by
  unfold PermitBalanced at *
  rw [operation.permits, operation.slot, balanced]

theorem transactionally_balanced (rt : Runtime S)
    (operation : Operation S ε α) (engine : Option CryptoKeystoreError)
    (balanced : PermitBalanced db) : PermitBalanced (transactionally rt db operation engine).2 := by
  cases opened : db.newTransaction with
  | none =>
    rw [transactionally_busy rt operation engine opened]
    exact operation_balanced operation balanced
  | some db' =>
    have started : PermitBalanced (operation.run db').2 := by
      obtain ⟨-, rfl⟩ := newTransaction_eq balanced opened
      exact operation_balanced operation rfl
    rw [transactionally_opened rt operation engine opened]
    split
    next => exact commitTransaction_balanced rt engine started
    next => exact balanced_setTransaction_none started

theorem step_coherent (rt : Runtime S) (step : Step S H P)
    (coherent : Coherent w) : Coherent (w.step rt step) := by
  obtain ⟨balanced, owner⟩ := id coherent
  cases step with
  | new =>
    simp only [World.step, TransactionContext.new]
    cases opened : w.core.database.newTransaction with
    | none => exact coherent
    | some db' =>
      obtain ⟨empty, rfl⟩ := newTransaction_eq balanced opened
      have free : w.core.database.permits = 1 := balanced.free empty
      refine ⟨rfl, ?_⟩
      simp only [Option.map_some, List.countP_append, List.countP_singleton,
        TransactionContextInner.isValid, ↓reduceIte]
      omega
  | access operation =>
    exact ⟨operation_balanced operation balanced, by simpa [World.step] using owner⟩
  | session change => exact ⟨balanced, owner⟩
  | proteus change => exact ⟨balanced, owner⟩
  | queueEpochChanged context conversationId epoch =>
    simp only [World.step]
    refine onContext_coherent context coherent ?_ ?_ <;> intro inner
    · cases inner <;> exact balanced
    · cases inner <;> exact .inr ⟨rfl, rfl⟩
  | finish context engine =>
    simp only [World.step]
    refine onContext_coherent context coherent ?_ ?_ <;> intro inner
    · cases inner with
      | invalid => exact balanced
      | valid changes =>
        rw [finish_valid_database]
        exact commitTransaction_balanced rt engine balanced
    · cases inner with
      | invalid => exact .inr ⟨rfl, rfl⟩
      | valid changes => exact .inl ⟨by rw [finish_context]; rfl, rfl⟩
  | abort context =>
    simp only [World.step]
    refine onContext_coherent context coherent ?_ ?_ <;> intro inner
    · cases inner with
      | invalid => exact balanced
      | valid changes =>
        rw [abort_valid_database]
        exact balanced_setTransaction_none balanced
    · cases inner with
      | invalid => exact .inr ⟨rfl, rfl⟩
      | valid changes => exact .inl ⟨by rw [abort_context]; rfl, rfl⟩
  | transactionally operation engine =>
    have after := transactionally_balanced rt operation engine balanced
    refine ⟨after, ?_⟩
    simp only [World.step]
    cases opened : w.core.database.newTransaction with
    | none => simpa [transactionally_busy rt operation engine opened] using owner
    | some db' =>
      obtain ⟨empty, -⟩ := newTransaction_eq balanced opened
      have free : w.core.database.permits = 1 := balanced.free empty
      have small : (transactionally rt w.core.database operation engine).2.permits ≤ 1 := by
        rw [after]
        split <;> omega
      omega
  | close =>
    simp only [World.step, Database.close]
    split
    next => exact coherent
    next database closed =>
      split at closed
      next =>
        simp only [Option.some.injEq] at closed
        split at closed <;> (cases closed; exact ⟨balanced, owner⟩)
      next => cases closed

theorem run_coherent (rt : Runtime S) (rows : List (Entity S)) (mls : Option (Session H))
    (proteus : Option P) (steps : List (Step S H P)) :
    Coherent (run (World.step rt) (World.initial rows mls proteus) steps) :=
  run_invariant (World.step rt) (fun _ _ => True) Coherent
    (fun _ step coherent _ => step_coherent rt step coherent) _ steps ⟨rfl, Nat.le_refl 1⟩
    (guarded_of_forall _ _ (fun _ _ => trivial) _ steps)

/-- **One context at a time.**  In every run at most one context is valid, and none unless a
transaction is open. -/
theorem one_valid_context (rt : Runtime S) (rows : List (Entity S)) (mls : Option (Session H))
    (proteus : Option P) (steps : List (Step S H P)) :
    let w := run (World.step rt) (World.initial rows mls proteus) steps
    w.contexts.countP TransactionContextInner.isValid ≤
      w.core.database.transaction.isSome.toNat := by
  intro w
  have coherent : Coherent w := run_coherent rt rows mls proteus steps
  clear_value w
  have owner := coherent.owner
  rw [coherent.balanced] at owner
  cases opened : w.core.database.transaction with
  | none => simpa [opened] using owner
  | some tx => simpa [opened] using owner

/-! ### What is left behind -/

/-- Every read through `after` answers what `before` answers. -/
structure ReadsAs (rt : Runtime S) (after before : Database S) : Prop where
  get : ∀ id, after.get rt id = before.get rt id
  count : ∀ typ, after.count rt typ = before.count rt typ
  loadAll : ∀ typ, after.loadAll rt typ = before.loadAll rt typ
  search : ∀ typ isMatch, after.search rt typ isMatch = before.search rt typ isMatch
  childGroups : ∀ parent, after.childGroups rt parent = before.childGroups rt parent
  findPendingMessages : ∀ conversationId,
    after.findPendingMessagesByConversationId rt conversationId =
      before.findPendingMessagesByConversationId rt conversationId

/-- No transaction is open, the next one can start, and without a commit everything reads
as before the transaction. -/
structure NothingLeft (rt : Runtime S) (before after : Database S) (committed : Bool) : Prop where
  slot : after.transaction = none
  permit : after.newTransaction.isSome = true
  content : committed = false → ReadsAs rt after { before with transaction := none }

theorem readsAs_of_rows (rt : Runtime S) {after before : Database S}
    (same : after.conn = before.conn) (empty : after.transaction = none) :
    ReadsAs rt after { before with transaction := none } := by
  have rows : after.rows = { before with transaction := none }.rows := by
    simp only [Database.rows, same]
  constructor <;> intros <;>
    simp only [Database.get, Database.count, Database.loadAll, Database.search,
      Database.childGroups, Database.findPendingMessagesByConversationId, empty, rows]

theorem nothingLeft_of_free (rt : Runtime S) {before after : Database S} {committed : Bool}
    (balanced : PermitBalanced after) (empty : after.transaction = none)
    (same : committed = false → after.conn = before.conn) :
    NothingLeft rt before after committed := by
  refine ⟨empty, ?_, fun rolledBack => readsAs_of_rows rt (same rolledBack) empty⟩
  simp [Database.newTransaction, balanced.free empty]

/-- The slot is empty after `commit_transaction` exactly if the commit went through. -/
theorem nothingLeft_commitTransaction_iff (rt : Runtime S) (before : Database S)
    (engine : Option CryptoKeystoreError) (balanced : PermitBalanced db)
    (occupied : db.transaction.isSome = true) :
    NothingLeft rt before (db.commitTransaction rt engine).2
        (db.commitTransaction rt engine).1.isOk ↔ CommitSucceeds rt db engine := by
  by_cases succeeds : CommitSucceeds rt db engine
  · obtain ⟨rows, committed⟩ := commitTransaction_of_succeeds succeeds
    have after := commitTransaction_balanced rt engine balanced
    rw [committed] at after ⊢
    exact iff_of_true (nothingLeft_of_free rt after rfl (by intro h; cases h)) succeeds
  · obtain ⟨error, failed⟩ := commitTransaction_of_not_succeeds succeeds
    refine iff_of_false ?_ succeeds
    intro left
    rw [failed] at left
    rw [left.slot] at occupied
    cases occupied

theorem finish_valid_isOk (rt : Runtime S) (core : Core S H P)
    (changes : List (ConversationId × Nat)) (engine : Option CryptoKeystoreError) :
    (finish rt core (.valid changes) engine).1.isOk =
      (core.database.commitTransaction rt engine).1.isOk := by
  simp only [finish]
  split <;> simp_all [Except.isOk, Except.toBool]

theorem transactionally_opened_isOk (rt : Runtime S) (operation : Operation S ε α)
    (engine : Option CryptoKeystoreError) (opened : db.newTransaction = some db') :
    (transactionally rt db operation engine).1.isOk =
      ((operation.run db').1.isOk &&
        ((operation.run db').2.commitTransaction rt engine).1.isOk) := by
  simp only [transactionally, Database.tryNewImmediateTransaction, opened]
  rcases outcome : operation.run db' with ⟨error | a, after⟩
  · simp only
    split <;> simp_all [Except.isOk, Except.toBool]
  · simp only
    split <;> simp_all [Except.isOk, Except.toBool]

/-- In a coherent world the slot of a valid context is occupied. -/
theorem Coherent.occupied (coherent : Coherent w) {context : Nat}
    {changes : List (ConversationId × Nat)} (found : w.contexts[context]? = some (.valid changes)) :
    w.core.database.transaction.isSome = true := by
  have owner := coherent.owner
  have balanced : w.core.database.permits = _ := coherent.balanced
  have positive : 0 < w.contexts.countP TransactionContextInner.isValid :=
    List.countP_pos_iff.mpr ⟨_, List.mem_of_getElem? found, rfl⟩
  by_contra empty
  rw [if_neg empty] at balanced
  omega

/-- **Ended transactions.** In every reachable world, ending a valid context by `finish`
leaves nothing behind exactly if its commit succeeds, ending it by `abort` always does, an
invalid context changes nothing, and `transactionally` leaves nothing behind of a
transaction it opened exactly if the operation failed or the commit succeeds. -/
theorem ended_transaction_leaves_nothing_iff (rt : Runtime S) (rows : List (Entity S))
    (mls : Option (Session H)) (proteus : Option P) (steps : List (Step S H P)) (w : World S H P)
    (reached : w = run (World.step rt) (World.initial rows mls proteus) steps) :
    (∀ (context : Nat) changes engine,
      w.contexts[context]? = some (TransactionContextInner.valid changes) →
      (NothingLeft rt w.core.database (finish rt w.core (.valid changes) engine).2.1.database
          (finish rt w.core (.valid changes) engine).1.isOk ↔
        CommitSucceeds rt w.core.database engine) ∧
      NothingLeft rt w.core.database (abort w.core (.valid changes)).2.1.database false) ∧
    (∀ engine,
      finish rt w.core .invalid engine = (.error .invalidTransactionContext, w.core, .invalid) ∧
      abort w.core .invalid = (.error .invalidTransactionContext, w.core, .invalid)) ∧
    (∀ (ε α : Type) (operation : Operation S ε α) engine started,
      w.core.database.newTransaction = some started →
      (NothingLeft rt w.core.database (transactionally rt w.core.database operation engine).2
          (transactionally rt w.core.database operation engine).1.isOk ↔
        (operation.run started).1.isOk = false ∨
          CommitSucceeds rt (operation.run started).2 engine)) := by
  have coherent : Coherent w := reached ▸ run_coherent rt rows mls proteus steps
  have balanced := coherent.balanced
  refine ⟨?_, fun _ => ⟨rfl, rfl⟩, ?_⟩
  · intro context changes engine found
    constructor
    · rw [finish_valid_database, finish_valid_isOk]
      exact nothingLeft_commitTransaction_iff rt _ engine balanced (coherent.occupied found)
    · rw [abort_valid_database]
      exact nothingLeft_of_free rt (balanced_setTransaction_none balanced) rfl
        (fun _ => rfl)
  · intro ε α operation engine started opened
    obtain ⟨-, startedEq⟩ := newTransaction_eq balanced opened
    have startedBalanced : PermitBalanced started := by rw [startedEq]; rfl
    have running := operation_balanced operation startedBalanced
    rw [transactionally_opened rt operation engine opened,
      transactionally_opened_isOk rt operation engine opened]
    cases outcome : (operation.run started).1.isOk with
    | false =>
      simp only [Bool.false_eq_true, ↓reduceIte, Bool.false_and, true_or, iff_true]
      refine nothingLeft_of_free rt (balanced_setTransaction_none running) rfl ?_
      intro _
      rw [Database.setTransaction, operation.conn, startedEq]
    | true =>
      simp only [↓reduceIte, Bool.true_and, Bool.true_eq_false, false_or]
      refine nothingLeft_commitTransaction_iff rt _ engine running ?_
      rw [operation.slot, startedEq]
      rfl

/-- A context with one entity to write. -/
def sampleWorld : World Unit Unit Unit :=
  run (World.step (.newestFirst id)) (World.initial [] none none)
    [.new, .access (.save (.newestFirst id) (.plain .consumerData [0] [7]))]

theorem ended_transaction_leaves_nothing_sample :
    NothingLeft (.newestFirst id) sampleWorld.core.database
      (finish (.newestFirst id) sampleWorld.core (.valid []) none).2.1.database
      (finish (.newestFirst id) sampleWorld.core (.valid []) none).1.isOk :=
  (((ended_transaction_leaves_nothing_iff (.newestFirst id) [] none none _ sampleWorld rfl).1
    0 [] none rfl).1).mpr ⟨[], _, rfl, rfl, .inr ⟨rfl, [.plain .consumerData [0] [7]], rfl⟩⟩

/-- The commit fails with a full disk: `finish` invalidates the context and leaves its
transaction in the slot, so the permit is never given back. -/
theorem failed_finish_leaves_transaction :
    sampleWorld.contexts = [.valid []] ∧
    ¬ NothingLeft (.newestFirst id) sampleWorld.core.database
      (finish (.newestFirst id) sampleWorld.core (.valid []) (some (.rusqliteError 13))).2.1.database
      (finish (.newestFirst id) sampleWorld.core (.valid []) (some (.rusqliteError 13))).1.isOk :=
  ⟨rfl, fun left => Bool.noConfusion left.permit⟩

end CoreCrypto.TransactionContext
