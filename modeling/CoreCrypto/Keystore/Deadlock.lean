import Mathlib.Data.Fintype.Basic
import CoreCrypto.Library.LockOrder
import CoreCrypto.Keystore.SingleWriter

/-!
# Tasks that wait for each other

A commit takes the mutex `transaction` and then `conn`; a listing takes `conn` and then
`transaction`.  Everything else follows one order, so tasks wait for each other in a circle
only if a commit of an open transaction meets a listing.
-/

namespace CoreCrypto.Keystore

open CoreCrypto.Library

variable {S ι : Type}

namespace Tasks

def asks (s : Tasks ι S) (i : ι) (lock : Lock) : Prop :=
  (s.task i).asks = some lock

def holds (s : Tasks ι S) (i : ι) : Lock → Prop
  | .semaphore => (s.task i).holdsPermit = true
  | .transaction => s.slotOwner = some i
  | .conn => s.connOwner = some i

/-- Some tasks wait for each other in a circle. -/
def Deadlocked (s : Tasks ι S) : Prop :=
  CoreCrypto.Library.Deadlocked s.asks s.holds

end Tasks

/-- `load_all`, `search`, `child_groups`, `find_pending_messages_by_conversation_id`, and `count`,
which goes on as a `load_all`. -/
def Call.lists : Call S → Bool
  | count _ => true
  | loadAll _ => true
  | search _ => true
  | childGroups _ => true
  | findPendingMessagesByConversationId _ => true
  | _ => false

def Call.opens : Call S → Bool
  | newTransaction => true
  | tryNewImmediateTransaction => true
  | _ => false

theorem Call.opens_of_lists (call : Call S) (lists : call.lists = true) : call.opens = false := by
  cases call <;> first | rfl | cases lists

/-- A commit runs together with a listing on a connected database, and a transaction is open or
opened meanwhile. -/
structure CommitMeetsListing (db : Database S) (calls : ι → Call S) : Prop where
  connected : db.conn.isSome = true
  commit : ∃ i engine, calls i = .commitTransaction engine
  listing : ∃ j, (calls j).lists = true
  opened : db.transaction.isSome = true ∨ ∃ k, (calls k).opens = true

/-! ### The order of the locks -/

/-- The order in which all operations but the commit take the locks. -/
def connFirst : Lock → Nat
  | .semaphore => 0
  | .conn => 1
  | .transaction => 2

/-- The order in which all operations but the listings take the locks. -/
def slotFirst : Lock → Nat
  | .semaphore => 0
  | .transaction => 1
  | .conn => 2

namespace Task

def holdsLock (task : Task S) : Lock → Bool
  | .semaphore => task.holdsPermit
  | .transaction => task.holdsSlot
  | .conn => task.holdsConn

theorem connFirst_lt (task : Task S) (lock held : Lock) (asks : task.asks = some lock)
    (holds : task.holdsLock held = true) (noCommit : ∀ engine, task ≠ .asksConn (.commit engine)) :
    connFirst held < connFirst lock := by
  cases task with
  | asksPermit use => cases use <;> cases held <;> cases holds
  | asksSlot use =>
    cases asks
    cases held <;> cases use <;> first | decide | cases holds
  | asksMerge listing records =>
    cases asks
    cases held <;> first | decide | cases holds
  | asksConn use =>
    cases asks
    cases use with
    | commit engine => exact absurd rfl (noCommit engine)
    | _ => cases held <;> first | decide | cases holds
  | _ => cases asks

theorem slotFirst_lt (task : Task S) (lock held : Lock) (asks : task.asks = some lock)
    (holds : task.holdsLock held = true)
    (noMerge : ∀ listing records, task ≠ .asksMerge listing records) :
    slotFirst held < slotFirst lock := by
  cases task with
  | asksPermit use => cases use <;> cases held <;> cases holds
  | asksSlot use =>
    cases asks
    cases held <;> cases use <;> first | decide | cases holds
  | asksMerge listing records => exact absurd rfl (noMerge listing records)
  | asksConn use =>
    cases asks
    cases held <;> cases use <;> first | decide | cases holds
  | _ => cases asks

end Task

namespace Tasks

variable [Fintype ι] {s : Tasks ι S}

theorem Consistent.holds_iff (consistent : s.Consistent) (i : ι) (lock : Lock) :
    s.holds i lock ↔ (s.task i).holdsLock lock = true := by
  cases lock with
  | semaphore => rfl
  | transaction => exact consistent.slot i
  | conn => exact consistent.conn i

theorem not_deadlocked_of_no_commit (consistent : s.Consistent)
    (noCommit : ∀ i engine, s.task i ≠ .asksConn (.commit engine)) : ¬ s.Deadlocked :=
  not_deadlocked_of_rank fun i lock held asks holds =>
    (s.task i).connFirst_lt lock held asks ((consistent.holds_iff i held).mp holds) (noCommit i)

theorem not_deadlocked_of_no_merge (consistent : s.Consistent)
    (noMerge : ∀ i listing records, s.task i ≠ .asksMerge listing records) : ¬ s.Deadlocked :=
  not_deadlocked_of_rank fun i lock held asks holds =>
    (s.task i).slotFirst_lt lock held asks ((consistent.holds_iff i held).mp holds) (noMerge i)

end Tasks

/-! ### What the tasks of a run can come to -/

/-- The operations as far as the order of their locks goes. -/
inductive Kind where
  | commit
  | list
  | openTransaction
  | other
  deriving DecidableEq, Repr

def SlotUse.kind : SlotUse S → Kind
  | count _ => .list
  | openTransaction => .openTransaction
  | commit _ => .commit
  | _ => .other

def ConnUse.kind : ConnUse → Kind
  | count _ => .list
  | list _ => .list
  | commit _ => .commit
  | _ => .other

/-- The kind of the operation that the task is about; a `count` may go on as a listing. -/
def Task.kind : Task S → Option Kind
  | idle => none
  | finished _ => none
  | asksPermit (.openTransaction _) => some .openTransaction
  | asksPermit .take => some .other
  | asksSlot use => some use.kind
  | runsSlot use => some use.kind
  | asksConn use => some use.kind
  | runsConn use => some use.kind
  | asksMerge _ _ => some .list
  | runsMerge _ _ => some .list

def Call.kind : Call S → Kind
  | commitTransaction _ => .commit
  | call => if call.lists then .list else if call.opens then .openTransaction else .other

theorem Call.start_kind (call : Call S) : (call.start : Task S).kind = some call.kind := by
  cases call <;> rfl

theorem Task.Next.kind {db : Database S} {slotFree connFree : Bool} {task : Task S}
    {after : Task S × Database S} (next : Next db slotFree connFree task after) :
    after.1.kind = none ∨ after.1.kind = task.kind := by
  cases next with
  | finishes => exact .inl rfl
  | granted use => right; cases use <;> rfl
  | count typ use counts => right; obtain rfl | rfl := counts <;> rfl
  | _ => exact .inr rfl

def Task.merges : Task S → Bool
  | asksMerge _ _ => true
  | _ => false

/-- Without a connection a listing ends before it merges. -/
theorem Task.Next.merges {db : Database S} {slotFree connFree : Bool} {task : Task S}
    {after : Task S × Database S} (next : Next db slotFree connFree task after)
    (closed : db.conn = none) (without : task.merges = false) : after.1.merges = false := by
  cases next with
  | stays => exact without
  | granted use => cases use <;> rfl
  | list listing records connected => simp [closed] at connected
  | _ => rfl

variable [DecidableEq ι]

namespace Tasks

variable {s : Tasks ι S}

theorem kind_turn (rt : Runtime S) (i : ι) {kind : Kind}
    (without : ∀ j, (s.task j).kind ≠ some kind) :
    ∀ j, ((s.turn rt i).task j).kind ≠ some kind := by
  have next := ((s.task i).next_advance rt s.db s.slotOwner.isNone s.connOwner.isNone).kind
  refine forall_update (·.kind ≠ some kind) i without fun same => ?_
  rcases next with none | kept
  · cases none.symm.trans same
  · exact without i (kept.symm.trans same)

variable [Fintype ι]

/-- One of the two orders in which locks are taken is not used by any task. -/
inductive OneOrder (s : Tasks ι S) : Prop where
  | noCommit (without : ∀ j, (s.task j).kind ≠ some .commit)
  | noListing (without : ∀ j, (s.task j).kind ≠ some .list)
  | noTransaction (closed : s.db.transaction = none)
      (without : ∀ j, (s.task j).kind ≠ some .openTransaction)
      (idle : ∀ j, (s.task j).commits = false)
  | noConnection (closed : s.db.conn = none) (idle : ∀ j, (s.task j).merges = false)

omit [DecidableEq ι] in
theorem not_deadlocked_of_oneOrder (consistent : s.Consistent)
    (oneOrder : s.OneOrder) : ¬ s.Deadlocked := by
  cases oneOrder with
  | noCommit without =>
    refine not_deadlocked_of_no_commit consistent fun i engine commits => without i ?_
    rw [commits]
    rfl
  | noListing without =>
    refine not_deadlocked_of_no_merge consistent fun i listing records merges => without i ?_
    rw [merges]
    rfl
  | noTransaction closed without idle =>
    refine not_deadlocked_of_no_commit consistent fun i engine commits => ?_
    have notIdle := idle i
    rw [commits] at notIdle
    cases notIdle
  | noConnection closed idle =>
    refine not_deadlocked_of_no_merge consistent fun i listing records merges => ?_
    have notIdle := idle i
    rw [merges] at notIdle
    cases notIdle

theorem oneOrder_turn (rt : Runtime S) (i : ι) (consistent : s.Consistent)
    (oneOrder : s.OneOrder) : (s.turn rt i).OneOrder := by
  cases oneOrder with
  | noCommit without => exact .noCommit (kind_turn rt i without)
  | noListing without => exact .noListing (kind_turn rt i without)
  | noTransaction closed without idle =>
    have stays : (s.turn rt i).db.transaction = none := by
      cases (s.task i).advance_allowed rt s.db s.slotOwner.isNone s.connOwner.isNone
        (fun _ => closed) with
      | unchanged conn slot => exact slot.trans closed
      | opened opens free conn slot => exact absurd (by rw [opens]; rfl) (without i)
      | buffered write tx writes isOpen conn slot => rw [closed] at isOpen; cases isOpen
      | rolledBack tx rollsBack isOpen conn slot => exact slot
      | committed engine tx rows written commits isOpen connected executed conn slot => exact slot
      | taken takes free conn slot => exact slot
    refine .noTransaction stays (kind_turn rt i without) ?_
    refine forall_update (·.commits = false) i idle ?_
    by_contra comes
    rw [Bool.not_eq_false] at comes
    have opened : (s.turn rt i).db.transaction.isSome = true :=
      ((s.task i).next_advance rt s.db _ _).commits _ comes
        (fun commits => absurd commits (by simp [idle i]))
    rw [stays] at opened
    cases opened
  | noConnection closed idle =>
    have stays : (s.turn rt i).db.conn = none := by
      cases (s.task i).advance_allowed rt s.db s.slotOwner.isNone s.connOwner.isNone
        consistent.free with
      | unchanged conn slot => exact conn.trans closed
      | opened opens free conn slot => exact conn.trans closed
      | buffered write tx writes isOpen conn slot => exact conn.trans closed
      | rolledBack tx rollsBack isOpen conn slot => exact conn.trans closed
      | committed engine tx rows written commits isOpen connected executed conn slot =>
        rw [closed] at connected
        cases connected
      | taken takes free conn slot => exact conn
    exact .noConnection stays (forall_update (·.merges = false) i idle
      (((s.task i).next_advance rt s.db _ _).merges closed (idle i)))

theorem not_deadlocked_run (rt : Runtime S) (turns : List ι) (consistent : s.Consistent)
    (oneOrder : s.OneOrder) : ¬ (run (turn rt) s turns).Deadlocked := by
  have kept := run_invariant (turn rt) (fun _ _ => True) (fun s => s.Consistent ∧ s.OneOrder)
    (fun s i inv _ => ⟨consistent_turn rt i inv.1, oneOrder_turn rt i inv.1 inv.2⟩) s turns
    ⟨consistent, oneOrder⟩ (guarded_of_forall _ _ (fun _ _ => trivial) _ _)
  exact not_deadlocked_of_oneOrder kept.1 kept.2

end Tasks

/-! ### A commit and a listing that meet -/

namespace Tasks

/-- Two tasks and the mutexes, while a transaction is open on a connected database. -/
structure Meeting (s : Tasks ι S) (i j : ι) (first second : Task S)
    (slotOwner connOwner : Option ι) : Prop where
  connected : s.db.conn.isSome = true
  opened : s.db.transaction.isSome = true
  first : s.task i = first
  second : s.task j = second
  slot : s.slotOwner = slotOwner
  conn : s.connOwner = connOwner

variable {s : Tasks ι S} {i j : ι} (rt : Runtime S) {engine : Option CryptoKeystoreError}

theorem Meeting.count (different : i ≠ j) {first : Task S} {typ : EntityType}
    (meeting : s.Meeting i j first (.asksSlot (.count typ)) none none) :
    (run (turn rt) s [j, j]).Meeting i j first (.asksConn (.list (.all typ true))) none none := by
  obtain ⟨connected, opened, isFirst, isSecond, slot, conn⟩ := meeting
  constructor <;>
    simp [turn, isSecond, slot, conn, Task.advance, SlotUse.run, transfer, Task.holdsSlot,
      Task.holdsConn, connected, opened, different, isFirst]

theorem Meeting.list (different : i ≠ j) {first : Task S} {listing : Listing}
    (meeting : s.Meeting i j first (.asksConn (.list listing)) none none) :
    ∃ records, (run (turn rt) s [j, j]).Meeting i j first (.asksMerge listing records) none
      (some j) := by
  obtain ⟨connected, opened, isFirst, isSecond, slot, conn⟩ := meeting
  obtain ⟨rows, isConn⟩ := Option.isSome_iff_exists.mp connected
  refine ⟨listing.persisted rt rows, ?_⟩
  constructor <;>
    simp [turn, isSecond, slot, conn, Task.advance, ConnUse.run, transfer, Task.holdsSlot,
      Task.holdsConn, isConn, opened, different, isFirst]

theorem Meeting.commit (different : i ≠ j) {second : Task S}
    {connOwner : Option ι} (notOwner : connOwner ≠ some i)
    (meeting : s.Meeting i j (.asksSlot (.commit engine)) second none connOwner) :
    (run (turn rt) s [i, i]).Meeting i j (.asksConn (.commit engine)) second (some i)
      connOwner := by
  obtain ⟨connected, opened, isFirst, isSecond, slot, conn⟩ := meeting
  obtain ⟨tx, isOpen⟩ := Option.isSome_iff_exists.mp opened
  constructor <;>
    simp [turn, isFirst, slot, conn, Task.advance, SlotUse.run, transfer, Task.holdsSlot,
      Task.holdsConn, connected, isOpen, different.symm, isSecond, notOwner]

/-- A third task takes the free permit and opens a transaction. -/
theorem meeting_of_open {k : ι} (apartI : i ≠ k) (apartJ : j ≠ k) {waits : Bool}
    (opens : s.task k = .asksPermit (.openTransaction waits)) (free : 0 < s.db.permits)
    (connected : s.db.conn.isSome = true) (slot : s.slotOwner = none) (conn : s.connOwner = none) :
    (run (turn rt) s [k, k, k]).Meeting i j (s.task i) (s.task j) none none := by
  constructor <;>
    simp [turn, opens, slot, conn, Task.advance, PermitUse.run, PermitUse.granted, free,
      SlotUse.run, Database.setTransaction, transfer, Task.holdsSlot, Task.holdsConn, connected,
      apartI, apartJ]

omit [DecidableEq ι] in
theorem Meeting.deadlocked {listing : Listing} {records : List (Entity S)}
    (meeting : s.Meeting i j (.asksConn (.commit engine)) (.asksMerge listing records) (some i)
      (some j)) : s.Deadlocked := by
  have asksConn : s.asks i .conn := by rw [asks, meeting.first]; rfl
  have asksSlot : s.asks j .transaction := by rw [asks, meeting.second]; rfl
  exact deadlocked_of_pair asksConn meeting.conn asksSlot meeting.slot

/-- From a commit and a listing that are about to begin it is a few turns to the circle. -/
theorem Meeting.exists_deadlock (different : i ≠ j) {call : Call S} (lists : call.lists = true)
    (meeting : s.Meeting i j (.asksSlot (.commit engine)) call.start none none) :
    ∃ turns, (run (turn rt) s turns).Deadlocked := by
  have fromList (s : Tasks ι S) (listing : Listing)
      (meeting : s.Meeting i j (.asksSlot (.commit engine)) (.asksConn (.list listing)) none none) :
      ∃ turns, (run (turn rt) s turns).Deadlocked := by
    obtain ⟨records, held⟩ := meeting.list rt different
    have circle := (held.commit rt different (by simpa using different.symm)).deadlocked
    exact ⟨[j, j] ++ [i, i], by simpa [run] using circle⟩
  cases call with
  | loadAll typ => exact fromList s _ meeting
  | search key => exact fromList s _ meeting
  | childGroups parent => exact fromList s _ meeting
  | findPendingMessagesByConversationId conversationId => exact fromList s _ meeting
  | count typ =>
    obtain ⟨turns, circle⟩ := fromList _ _ (meeting.count rt different)
    exact ⟨[j, j] ++ turns, by simpa [run, List.foldl_append] using circle⟩
  | _ => cases lists

end Tasks

variable [Fintype ι]

/-- **Deadlocks.**  Tasks that each run one operation of a database come to wait for each other
in a circle in some order of their turns, if and only if a commit runs together with a listing
while the database is connected and a transaction is open or opened by one of the tasks. -/
theorem deadlock_free_iff_no_commit_meets_listing (rt : Runtime S) (db : Database S)
    (quiet : db.permits + db.inSlot = 1) (calls : ι → Call S) :
    (∀ turns, ¬ (run (Tasks.turn rt) (Tasks.start db fun i => some (calls i)) turns).Deadlocked) ↔
      ¬ CommitMeetsListing db calls := by
  have consistent := Tasks.consistent_start (fun i => some (calls i)) quiet
  have kinds (i : ι) : ((Tasks.start db fun i => some (calls i)).task i).kind =
      some (calls i).kind := (calls i).start_kind
  constructor
  · rintro never ⟨connected, ⟨i, engine, commits⟩, ⟨j, lists⟩, opened⟩
    have starts (k : ι) : (Tasks.start db fun i => some (calls i)).task k = (calls k).start := rfl
    have apartIJ : i ≠ j := by
      rintro rfl
      rw [commits] at lists
      cases lists
    -- it is enough to come to a state in which the two begin while a transaction is open
    have meet (turns : List ι) (meeting : (run (Tasks.turn rt)
        (Tasks.start db fun i => some (calls i)) turns).Meeting i j
          (.asksSlot (.commit engine)) (calls j).start none none) : False := by
      obtain ⟨more, circle⟩ := meeting.exists_deadlock rt apartIJ lists
      exact never (turns ++ more) (by simpa [run, List.foldl_append] using circle)
    by_cases isOpen : db.transaction.isSome = true
    · exact meet [] ⟨connected, isOpen, by rw [run_nil, starts, commits]; rfl, rfl, rfl, rfl⟩
    · obtain ⟨k, opens⟩ := opened.resolve_left isOpen
      have apartI : i ≠ k := by
        rintro rfl
        rw [commits] at opens
        cases opens
      have apartJ : j ≠ k := by
        rintro rfl
        rw [(calls j).opens_of_lists lists] at opens
        cases opens
      have free : 0 < db.permits := by
        simp only [Database.inSlot, isOpen] at quiet
        simp at quiet
        omega
      obtain ⟨waits, asks⟩ : ∃ waits, (calls k).start = .asksPermit (.openTransaction waits) := by
        cases call : calls k with
        | newTransaction => exact ⟨true, rfl⟩
        | tryNewImmediateTransaction => exact ⟨false, rfl⟩
        | _ => rw [call] at opens; cases opens
      have opening := Tasks.meeting_of_open (s := Tasks.start db fun i => some (calls i)) rt apartI
        apartJ asks free connected rfl rfl
      rw [starts, starts, commits] at opening
      exact meet [k, k, k] opening
  · intro apart turns
    apply Tasks.not_deadlocked_run rt turns consistent
    have kindOf {kind : Kind} (without : ∀ i, (calls i).kind ≠ kind) (i : ι) :
        ((Tasks.start db fun i => some (calls i)).task i).kind ≠ some kind := by
      rw [kinds]
      exact fun same => without i (Option.some.inj same)
    by_cases commit : ∃ i engine, calls i = .commitTransaction engine
    · by_cases listing : ∃ j, (calls j).lists = true
      · by_cases connected : db.conn.isSome = true
        · refine .noTransaction ?_ (kindOf fun i same => ?_) fun i => ?_
          · by_contra isOpen
            exact apart ⟨connected, commit, listing, .inl (Option.isSome_iff_ne_none.mpr isOpen)⟩
          · refine apart ⟨connected, commit, listing, .inr ⟨i, ?_⟩⟩
            cases call : calls i <;> rw [call] at same <;> first | rfl | cases same
          · show (calls i).start.commits = false
            cases calls i <;> rfl
        · refine .noConnection (Option.not_isSome_iff_eq_none.mp connected) fun i => ?_
          show (calls i).start.merges = false
          cases calls i <;> rfl
      · refine .noListing (kindOf fun i same => listing ⟨i, ?_⟩)
        cases call : calls i <;> rw [call] at same <;> first | rfl | cases same
    · refine .noCommit (kindOf fun i same => commit ⟨i, ?_⟩)
      cases call : calls i with
      | commitTransaction engine => exact ⟨engine, rfl⟩
      | _ => rw [call] at same; cases same

/-- A commit, a listing of the groups and a read. -/
def sampleCalls : Fin 3 → Call Unit
  | 0 => .commitTransaction none
  | 1 => .loadAll .persistedMlsGroup
  | 2 => .get ⟨.persistedMlsGroup, [1]⟩

theorem deadlock_free_iff_no_commit_meets_listing_sample :
    ¬ (run (Tasks.turn (.newestFirst id))
      (Tasks.start (Database.open' sampleGroups) fun i => some (sampleCalls i))
        [1, 1, 0, 0]).Deadlocked :=
  (deadlock_free_iff_no_commit_meets_listing (.newestFirst id) (Database.open' sampleGroups) rfl
    sampleCalls).mpr (fun meets => by
      rcases meets.opened with isOpen | ⟨k, opens⟩
      · cases isOpen
      · revert opens
        revert k
        decide) _

/-- `load_all` has read the rows and asks for the transaction, `commit_transaction` has taken the
transaction and asks for the connection. -/
theorem commit_and_load_all_wait_for_each_other :
    (run (Tasks.turn (.newestFirst id))
      (Tasks.start (Database.mk (some sampleGroups) (some .new) 0) fun i => some (sampleCalls i))
        [1, 1, 0, 0]).Deadlocked :=
  deadlocked_of_pair (i := 0) (j := 1) (show Tasks.asks _ 0 .conn from rfl)
    (show Tasks.holds _ 1 .conn from rfl) (show Tasks.asks _ 1 .transaction from rfl)
    (show Tasks.holds _ 0 .transaction from rfl)

end CoreCrypto.Keystore
