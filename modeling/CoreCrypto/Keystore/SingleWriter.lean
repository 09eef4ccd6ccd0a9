import CoreCrypto.Keystore.Tasks

/-!
# One writer at a time

Whatever the order in which tasks take their turns, an open transaction is only written to,
committed or rolled back.  No other transaction takes its place, and the connection is only
taken while there is none.
-/

namespace CoreCrypto.Keystore

open CoreCrypto.Library

variable {S : Type}

/-- What a turn may do to the connection and to the slot of the open transaction. -/
inductive Allowed (rt : Runtime S) (task : Task S) (before after : Database S) : Prop where
  | unchanged (conn : after.conn = before.conn) (slot : after.transaction = before.transaction)
  | opened (opens : task = .runsSlot .openTransaction) (free : before.transaction = none)
      (conn : after.conn = before.conn) (slot : after.transaction = some .new)
  | buffered (write : BufferedWrite S) (tx : KeystoreTransaction S)
      (writes : task = .runsSlot (.write write)) (isOpen : before.transaction = some tx)
      (conn : after.conn = before.conn) (slot : after.transaction = some (write.buffer rt tx))
  | rolledBack (tx : KeystoreTransaction S) (rollsBack : task = .runsSlot .rollback)
      (isOpen : before.transaction = some tx) (conn : after.conn = before.conn)
      (slot : after.transaction = none)
  | committed (engine : Option CryptoKeystoreError) (tx : KeystoreTransaction S)
      (rows written : List (Entity S)) (commits : task = .runsConn (.commit engine))
      (isOpen : before.transaction = some tx) (connected : before.conn = some rows)
      (executed : tx.commit rt (some rows) engine = .ok written)
      (conn : after.conn = some written) (slot : after.transaction = none)
  | taken (takes : task = .runsConn .take) (free : before.transaction = none)
      (conn : after.conn = none) (slot : after.transaction = none)

namespace Task

variable (rt : Runtime S) (db : Database S) (slotFree connFree : Bool)

theorem transaction_advance (task : Task S) (without : task.holdsSlot = false) :
    (task.advance rt db slotFree connFree).2.transaction = db.transaction := by
  cases task with
  | asksPermit use =>
    obtain ⟨-, after⟩ | after | after := use.run_cases db <;> rw [advance, after]
  | runsConn use =>
    cases use with
    | commit engine => cases without
    | _ => cases connected : db.conn <;> simp [advance, ConnUse.run, connected]
  | runsSlot use => cases without
  | runsMerge listing records => cases without
  | _ => rfl

end Task

theorem Database.commitTransaction_cases (rt : Runtime S) (db : Database S)
    (engine : Option CryptoKeystoreError) :
    (∃ error, db.commitTransaction rt engine = (.error error, db)) ∨
      ∃ tx rows written, db.transaction = some tx ∧ db.conn = some rows ∧
        tx.commit rt (some rows) engine = .ok written ∧
        db.commitTransaction rt engine =
          (.ok (), { db with conn := some written }.setTransaction none) := by
  unfold commitTransaction
  cases opened : db.transaction with
  | none => exact .inl ⟨_, rfl⟩
  | some tx =>
    cases executed : tx.commit rt db.conn engine with
    | error error => exact .inl ⟨error, by simp only [executed]⟩
    | ok written =>
      cases connected : db.conn with
      | none =>
        rw [connected] at executed
        cases executed
      | some rows =>
        rw [connected] at executed
        exact .inr ⟨tx, rows, written, rfl, rfl, executed, by simp only [executed]⟩

namespace Task

variable (rt : Runtime S) (db : Database S) {task : Task S}

theorem allowed_runsConn (use : ConnUse)
    (free : (runsConn use : Task S).holdsPermit = true → db.transaction = none) :
    Allowed rt (runsConn use) db (use.run rt db).2 := by
  cases use with
  | commit engine =>
    rw [ConnUse.run]
    obtain ⟨error, failed⟩ | ⟨tx, rows, written, opened, connected, executed, ok⟩ :=
      db.commitTransaction_cases rt engine
    · rw [failed]
      exact .unchanged rfl rfl
    · rw [ok]
      exact .committed engine tx rows written rfl opened connected executed rfl rfl
  | take =>
    cases connected : db.conn with
    | none =>
      refine .unchanged ?_ ?_ <;> simp [ConnUse.run, connected]
    | some rows =>
      refine .taken rfl (free rfl) ?_ ?_ <;> simp [ConnUse.run, connected, free rfl]
  | _ =>
    cases connected : db.conn <;> refine .unchanged ?_ ?_ <;> simp [ConnUse.run, connected]

theorem allowed_runsSlot (use : SlotUse S)
    (free : (runsSlot use : Task S).holdsPermit = true → db.transaction = none) :
    Allowed rt (runsSlot use) db (use.run rt db).2 := by
  cases use with
  | get id =>
    cases cached : db.transaction.bind (·.getByEntityId id) <;>
      refine .unchanged ?_ ?_ <;> simp [SlotUse.run, cached]
  | count typ =>
    cases opened : db.transaction.isSome <;> refine .unchanged ?_ ?_ <;> simp [SlotUse.run, opened]
  | write buffered =>
    cases opened : db.transaction with
    | none => refine .unchanged ?_ ?_ <;> simp [SlotUse.run, Database.modifyTransaction, opened]
    | some tx =>
      refine .buffered buffered tx rfl opened ?_ ?_ <;>
        simp [SlotUse.run, Database.modifyTransaction, opened]
  | openTransaction => exact .opened rfl (free rfl) rfl rfl
  | commit engine =>
    cases opened : db.transaction <;> refine .unchanged ?_ ?_ <;> simp [SlotUse.run, opened]
  | rollback =>
    cases opened : db.transaction with
    | none => refine .unchanged ?_ ?_ <;> simp [SlotUse.run, Database.rollbackTransaction, opened]
    | some tx =>
      refine .rolledBack tx rfl opened ?_ ?_ <;>
        simp [SlotUse.run, Database.rollbackTransaction, Database.setTransaction, opened]

/-- Every turn is allowed if no transaction is open while the task has the permit. -/
theorem advance_allowed (slotFree connFree : Bool) (task : Task S)
    (free : task.holdsPermit = true → db.transaction = none) :
    Allowed rt task db (task.advance rt db slotFree connFree).2 := by
  cases task with
  | runsConn use => exact allowed_runsConn rt db use free
  | runsSlot use => exact allowed_runsSlot rt db use free
  | asksPermit use =>
    obtain ⟨-, after⟩ | after | after := use.run_cases db <;> rw [advance, after] <;>
      exact .unchanged rfl rfl
  | runsMerge listing records =>
    cases opened : db.transaction <;> refine .unchanged ?_ ?_ <;> simp [advance, opened]
  | _ => exact .unchanged rfl rfl

/-- The task is about to commit the open transaction. -/
def commits : Task S → Bool
  | asksConn (.commit _) => true
  | runsConn (.commit _) => true
  | _ => false

theorem holdsSlot_of_commits (commits : task.commits = true) : task.holdsSlot = true := by
  cases task with
  | asksConn use => cases use <;> first | rfl | cases commits
  | runsConn use => cases use <;> first | rfl | cases commits
  | _ => cases commits

/-- A task comes to commit only while a transaction is open. -/
theorem Next.commits {slotFree connFree : Bool} {after : Task S × Database S}
    (next : Next db slotFree connFree task after) (comes : after.1.commits = true)
    (earlier : task.commits = true → db.transaction.isSome = true) :
    after.2.transaction.isSome = true := by
  cases next with
  | stays => exact earlier comes
  | granted use => cases use <;> cases comes
  | conn use => exact earlier (by cases use <;> first | rfl | cases comes)
  | commit engine opened => exact opened
  | count typ use counts => obtain rfl | rfl := counts <;> cases comes
  | _ => cases comes

end Task

/-! ### Every run -/

variable {ι : Type} [DecidableEq ι] [Fintype ι]

namespace Tasks

variable {s : Tasks ι S}

theorem Consistent.free (consistent : s.Consistent) {i : ι}
    (holds : (s.task i).holdsPermit = true) : s.db.transaction = none := by
  have inHand : (s.task i).inHand = 1 := by simp [Task.inHand, holds]
  have one := Finset.add_sum_erase Finset.univ (fun j => (s.task j).inHand) (Finset.mem_univ i)
  have permits := consistent.permits
  have notInSlot : s.db.inSlot = 0 := by
    simp only [inHand] at one
    omega
  cases opened : s.db.transaction with
  | none => rfl
  | some tx => simp [Database.inSlot, opened] at notInSlot

/-- The transaction that a task is about to commit is open. -/
structure Ready (s : Tasks ι S) : Prop where
  consistent : s.Consistent
  committing : ∀ i, (s.task i).commits = true → s.db.transaction.isSome = true

theorem ready_turn (rt : Runtime S) (i : ι) (ready : s.Ready) : (s.turn rt i).Ready := by
  refine ⟨consistent_turn rt i ready.consistent, fun j commits => ?_⟩
  by_cases same : j = i
  · subst same
    simp only [turn, Function.update_self] at commits ⊢
    exact ((s.task j).next_advance rt s.db _ _).commits _ commits (ready.committing j)
  · -- the task that commits keeps the mutex, so another one does not touch the slot
    simp only [turn, Function.update_of_ne same] at commits ⊢
    have owner := (ready.consistent.slot j).mpr (Task.holdsSlot_of_commits commits)
    have without : (s.task i).holdsSlot = false := by
      by_contra holds
      rw [Bool.not_eq_false, ← ready.consistent.slot i, owner] at holds
      exact same (Option.some.inj holds)
    rw [Task.transaction_advance rt s.db _ _ _ without]
    exact ready.committing j commits

omit [Fintype ι] in
theorem begin_db (s : Tasks ι S) (i : ι) (call : Call S) : (s.begin i call).db = s.db := by
  unfold begin
  split <;> rfl

theorem ready_begin (i : ι) (call : Call S) (ready : s.Ready) : (s.begin i call).Ready := by
  have begins : (call.start : Task S).commits = true → s.db.transaction.isSome = true := by
    intro commits
    cases call <;> cases commits
  have replaced := forall_update (fun task => task.commits = true → s.db.transaction.isSome = true)
    i ready.committing begins
  refine ⟨consistent_begin i call ready.consistent, ?_⟩
  rw [begin_db]
  unfold begin
  split
  · exact replaced
  · exact replaced
  · exact ready.committing

theorem ready_run (rt : Runtime S) (events : List (Event ι S)) (ready : s.Ready) :
    (run (step rt) s events).Ready := by
  refine run_invariant (step rt) (fun _ _ => True) Ready ?_ s events ready
    (guarded_of_forall _ _ (fun _ _ => trivial) _ _)
  intro s event ready _
  cases event with
  | begin i call => exact ready_begin i call ready
  | turn i => exact ready_turn rt i ready

end Tasks

/-- What an event may do.  A commit that fails leaves the database as it is, with the transaction
open. -/
structure Lawful (rt : Runtime S) (s : Tasks ι S) (event : Event ι S) (after : Tasks ι S) :
    Prop where
  begin : ∀ i call, event = .begin i call → after.db = s.db
  turn : ∀ i, event = .turn i → Allowed rt (s.task i) s.db after.db
  failedCommit : ∀ i engine error, event = .turn i → s.task i = .runsConn (.commit engine) →
    after.task i = .finished (.error error) → after.db = s.db ∧ s.db.transaction.isSome = true

/-- **Single writer.**  In every run of any number of tasks on an opened database, the open
transaction is only written to, committed and rolled back, the connection is only changed by a
commit or taken while no transaction is open, and a failed commit changes nothing. -/
theorem every_event_lawful (rt : Runtime S) (rows : List (Entity S)) (events : List (Event ι S))
    (event : Event ι S) :
    Lawful rt (run (Tasks.step rt) (.start (Database.open' rows) (fun _ => none)) events) event
      ((run (Tasks.step rt) (.start (Database.open' rows) (fun _ => none)) events).step rt
        event) := by
  have ready : (run (Tasks.step rt) (Tasks.start (Database.open' rows) (fun _ : ι => none))
      events).Ready := by
    refine Tasks.ready_run rt events ⟨Tasks.consistent_start _ rfl, fun i commits => ?_⟩
    cases commits
  generalize run (Tasks.step rt) (Tasks.start (Database.open' rows) (fun _ : ι => none)) events = s
    at ready
  refine ⟨?_, ?_, ?_⟩
  · rintro i call rfl
    exact s.begin_db i call
  · rintro i rfl
    exact Task.advance_allowed rt s.db _ _ (s.task i) ready.consistent.free
  · rintro i engine error rfl commits failed
    refine ⟨?_, ready.committing i (by rw [commits]; rfl)⟩
    simp only [Tasks.step, Tasks.turn, commits, Task.advance, ConnUse.run,
      Function.update_self] at failed ⊢
    obtain ⟨_, unchanged⟩ | ⟨_, _, _, -, -, -, ok⟩ := s.db.commitTransaction_cases rt engine
    · rw [unchanged]
    · rw [ok] at failed
      cases failed

end CoreCrypto.Keystore
