import CoreCrypto.Keystore.Tasks
import CoreCrypto.TransactionContext.Lifecycle

/-!
# Database handles that outlive their context

`TransactionContext::database` checks that the context is valid and hands out the database that all
contexts share.  What is written through the handle later goes into whichever transaction is open
then.  The Proteus operations keep the read guard of their context, so that its end waits for them.
-/

namespace CoreCrypto.TransactionContext

open Keystore Library

inductive Action (S : Type) where
  /-- The read guard is taken, the context found valid, and the guard kept. -/
  | enter
  /-- `TransactionContext::database`, or `crypto_provider`, whose key store is the database. -/
  | fetch
  | write (write : BufferedWrite S)

section Operations

variable {S : Type}

/-- `ConversationMut::mutate_group`: the handle is fetched first, and after the wait for the group
the operation writes and the group is persisted, if it has changed. -/
def mutateGroup (writes : List (BufferedWrite S)) (persisted : Option (Entity S)) :
    List (Action S) :=
  .fetch :: (writes.map .write ++ persisted.toList.map fun group => .write (.save group))

/-- `add_credential_without_clientid_check`. -/
def addCredential (credential : StoredCredential) : List (Action S) :=
  [.fetch, .write (.save (.storedCredential credential))]

/-- `remove_key_package`, on the ids of the key package and of its two private keys. -/
def removeKeyPackage (keyPackage privateKey encryptionKeyPair : EntityId) : List (Action S) :=
  [.fetch, .write (.remove keyPackage), .write (.remove privateKey),
    .write (.remove encryptionKeyPair)]

/-- `proteus_init`: the new client writes before the guard is taken. -/
def proteusInit (writes : List (BufferedWrite S)) : List (Action S) :=
  .fetch :: (writes.map .write ++ [.enter])

/-- The other Proteus operations: the guard is in scope to the end of the function. -/
def proteusOperation (writes : List (BufferedWrite S)) : List (Action S) :=
  .enter :: .fetch :: writes.map .write

end Operations

/-! ### Tasks -/

/-- An operation that has begun under a context: whether it has the read guard of the context,
whether it has a handle, and what is still to be done. -/
structure Running (S : Type) where
  context : Nat
  entered : Bool
  handle : Bool
  rest : List (Action S)

variable {S H P : Type}

namespace Running

def begin (context : Nat) (operation : List (Action S)) : Running S :=
  ⟨context, false, false, operation⟩

/-- The operation has returned, or was dropped: guard and handle are gone. -/
def ended (running : Running S) : Running S :=
  ⟨running.context, false, false, []⟩

/-- The next thing the operation does is to write through its handle. -/
def writesNext (running : Running S) : Option (BufferedWrite S) :=
  match running.rest with
  | .write write :: _ => if running.handle then some write else none
  | _ => none

end Running

/-- The client, and the contexts and tasks in the order of their creation.  `owner` is the
context that opened the transaction which is in the slot, or was in it last. -/
structure Shared (S H P : Type) where
  core : Core S H P
  contexts : List TransactionContextInner
  owner : Option Nat
  tasks : List (Running S)

inductive SharedEvent (S : Type) where
  | new
  | begin (context : Nat) (operation : List (Action S))
  | turn (i : Nat)
  /-- The operation ends early: an error is returned, or the caller drops it. -/
  | stop (i : Nat)
  | finish (context : Nat) (engine : Option CryptoKeystoreError)
  | abort (context : Nat)

namespace Shared

def initial (rows : List (Entity S)) (mls : Option (Session H)) (proteus : Option P) :
    Shared S H P :=
  { core := { database := .open' rows, mls, proteus }, contexts := [], owner := none, tasks := [] }

def setTask (w : Shared S H P) (i : Nat) (running : Running S) : Shared S H P :=
  { w with tasks := w.tasks.set i running }

/-- The context with this number is valid. -/
def isValid (w : Shared S H P) (context : Nat) : Bool :=
  match w.contexts[context]? with
  | some inner => inner.isValid
  | none => false

/-- A reader keeps `finish` and `abort` waiting. -/
def isEntered (w : Shared S H P) (context : Nat) : Bool :=
  w.tasks.any fun running => running.entered && running.context == context

/-- The write of an operation, into the transaction in the slot, whoever opened it. -/
def writes (rt : Runtime S) (w : Shared S H P) (write : BufferedWrite S) :
    Except CryptoKeystoreError Unit × Database S :=
  w.core.database.modifyTransaction fun tx => write.buffer rt tx

/-- One turn of an operation.  A context that is not valid ends it with an error; a write that
fails does not, since some callers ignore the error. -/
def turn (rt : Runtime S) (w : Shared S H P) (i : Nat) (running : Running S) : Shared S H P :=
  match running.rest with
  | [] => w.setTask i running.ended
  | .enter :: rest =>
    if w.isValid running.context then w.setTask i { running with entered := true, rest }
    else w.setTask i running.ended
  | .fetch :: rest =>
    if w.isValid running.context then w.setTask i { running with handle := true, rest }
    else w.setTask i running.ended
  | .write write :: rest =>
    if running.handle then
      { w.setTask i { running with rest } with core.database := (w.writes rt write).2 }
    else w.setTask i running.ended

/-- `finish` and `abort` hold the write guard of the context while they run. -/
def ending (w : Shared S H P) (context : Nat)
    (call : Core S H P → TransactionContextInner →
      Except TransactionError Unit × Core S H P × TransactionContextInner) : Shared S H P :=
  if w.isEntered context then w
  else match w.contexts[context]? with
    | none => w
    | some inner =>
      let (_, core, inner) := call w.core inner
      { w with core, contexts := w.contexts.set context inner }

/-- A step that has to wait leaves everything as it is. -/
def step (rt : Runtime S) (w : Shared S H P) : SharedEvent S → Shared S H P
  | .new =>
    match TransactionContext.new w.core with
    | none => w
    | some (core, inner) =>
      { w with core, contexts := w.contexts ++ [inner], owner := some w.contexts.length }
  | .begin context operation => { w with tasks := w.tasks ++ [.begin context operation] }
  | .turn i =>
    match w.tasks[i]? with
    | none => w
    | some running => w.turn rt i running
  | .stop i =>
    match w.tasks[i]? with
    | none => w
    | some running => w.setTask i running.ended
  | .finish context engine =>
    w.ending context fun core inner => TransactionContext.finish rt core inner engine
  | .abort context => w.ending context fun core inner => TransactionContext.abort core inner

end Shared

/-- A write that succeeds lands in the transaction of the context its operation began under. -/
def LandsAtHome (rt : Runtime S) (w : Shared S H P) : SharedEvent S → Prop
  | .turn i => ∀ running write, w.tasks[i]? = some running → running.writesNext = some write →
    (w.writes rt write).1 = .ok () → w.owner = some running.context
  | _ => True

/-- A context is ended only while no operation under it, outside of the guard, has the handle and
is about to write. -/
def Quiet (w : Shared S H P) : SharedEvent S → Prop
  | .finish context _ | .abort context => ∀ running ∈ w.tasks,
    running.context = context → running.entered = false → running.writesNext.isNone
  | _ => True

instance (w : Shared S H P) : ∀ event, Decidable (Quiet w event)
  | .finish context _ | .abort context =>
    inferInstanceAs (Decidable (∀ running ∈ w.tasks, running.context = context →
      running.entered = false → running.writesNext.isNone = true))
  | .new | .begin _ _ | .turn _ | .stop _ => .isTrue trivial

/-! ### What holds in every quiet run -/

/-- The permit is where it belongs, a valid context owns the transaction in the slot, and whoever
has a read guard or is about to write does so under a valid context. -/
structure Sane (w : Shared S H P) : Prop where
  balanced : PermitBalanced w.core.database
  owner : ∀ context, w.isValid context = true →
    w.owner = some context ∧ w.core.database.transaction.isSome
  task : ∀ running ∈ w.tasks, (running.entered = true ∨ running.writesNext.isSome) →
    w.isValid running.context = true

namespace Shared

variable {w : Shared S H P} {running : Running S} (rt : Runtime S)

theorem isEntered_of_mem (isTask : running ∈ w.tasks)
    (reader : running.entered = true) : w.isEntered running.context = true := by
  simp only [isEntered, List.any_eq_true]
  exact ⟨running, isTask, by simp [reader]⟩

theorem sane_setTask (sane : Sane w) (i : Nat) (running : Running S)
    (allowed : (running.entered = true ∨ running.writesNext.isSome) →
      w.isValid running.context = true) : Sane (w.setTask i running) where
  balanced := sane.balanced
  owner := sane.owner
  task found isTask := by
    rcases List.mem_or_eq_of_mem_set isTask with old | rfl
    · exact sane.task found old
    · exact allowed

theorem sane_ended (sane : Sane w) (i : Nat) (running : Running S) :
    Sane (w.setTask i running.ended) := by
  refine sane_setTask sane i _ ?_
  rintro (reader | writer)
  · cases reader
  · cases writer

theorem sane_writes (sane : Sane w) (write : BufferedWrite S) :
    Sane { w with core.database := (w.writes rt write).2 } := by
  cases slot : w.core.database.transaction with
  | none =>
    have unchanged : (w.writes rt write).2 = w.core.database := by
      simp [writes, Database.modifyTransaction, slot]
    rw [unchanged]
    exact sane
  | some tx =>
    have changed : (w.writes rt write).2 =
        { w.core.database with transaction := some (write.buffer rt tx) } := by
      simp [writes, Database.modifyTransaction, slot]
    rw [changed]
    refine ⟨?_, fun context valid => ⟨(sane.owner context valid).1, rfl⟩, sane.task⟩
    have balanced := sane.balanced
    rw [PermitBalanced, slot] at balanced
    exact balanced

theorem sane_turn (sane : Sane w) (i : Nat)
    (isTask : running ∈ w.tasks) : Sane (w.turn rt i running) := by
  unfold turn
  split
  next => exact sane_ended sane i running
  next =>
    split
    next valid => exact sane_setTask sane i _ fun _ => valid
    next => exact sane_ended sane i running
  next =>
    split
    next valid => exact sane_setTask sane i _ fun _ => valid
    next => exact sane_ended sane i running
  next write rest next' =>
    split
    next handle =>
      -- it could write, so that its context is valid, and still is after the write
      have valid := sane.task running isTask (.inr (by simp [Running.writesNext, next', handle]))
      exact sane_writes rt (sane_setTask sane i { running with rest } fun _ => valid) write
    next => exact sane_ended sane i running

/-- Opening a transaction waits for the end of every other context. -/
theorem not_isValid_of_newTransaction (sane : Sane w) {database : Database S}
    (opened : w.core.database.newTransaction = some database) (context : Nat) :
    w.isValid context ≠ true := by
  intro valid
  have busy := (sane.owner context valid).2
  rw [(newTransaction_eq sane.balanced opened).1] at busy
  cases busy

theorem sane_new (sane : Sane w) : Sane (w.step rt .new) := by
  simp only [step, TransactionContext.new]
  cases opened : w.core.database.newTransaction with
  | none => exact sane
  | some database =>
    have noneValid := not_isValid_of_newTransaction sane opened
    obtain ⟨-, rfl⟩ := newTransaction_eq sane.balanced opened
    refine ⟨rfl, ?_, ?_⟩
    · intro context valid
      -- every context before the new one was found invalid
      rcases lt_trichotomy context w.contexts.length with before | rfl | after
      · refine absurd ?_ (noneValid context)
        simpa [isValid, List.getElem?_append_left before] using valid
      · exact ⟨rfl, rfl⟩
      · simp [isValid, List.getElem?_append_right after.le, Nat.sub_ne_zero_of_lt after] at valid
    · intro running isTask uses
      exact absurd (sane.task running isTask uses) (noneValid _)

theorem isValid_of_set_invalid {context other : Nat}
    (valid : { w with contexts := w.contexts.set context .invalid }.isValid other = true) :
    other ≠ context ∧ w.isValid other = true := by
  by_cases same : other = context
  · subst same
    by_cases within : other < w.contexts.length <;>
      simp [isValid, within, TransactionContextInner.isValid] at valid
  · exact ⟨same, by simpa [isValid, List.getElem?_set_ne (Ne.symm same)] using valid⟩

/-- `finish` and `abort` invalidate the one context that is valid, and nobody is left who reads or
is about to write under it. -/
theorem sane_ending (sane : Sane w) (context : Nat) (call : Core S H P → TransactionContextInner →
      Except TransactionError Unit × Core S H P × TransactionContextInner)
    (invalidates : ∀ inner, (call w.core inner).2.2 = .invalid)
    (keeps : (call w.core .invalid).2.1 = w.core)
    (balanced : ∀ changes, PermitBalanced (call w.core (.valid changes)).2.1.database)
    (quiet : ∀ running ∈ w.tasks, running.context = context → running.entered = false →
      running.writesNext.isNone) : Sane (w.ending context call) := by
  unfold ending
  split
  next => exact sane
  next free =>
    split
    next => exact sane
    next inner found =>
      simp only [invalidates]
      cases inner with
      | invalid =>
        obtain ⟨within, isInvalid⟩ := List.getElem?_eq_some_iff.mp found
        have same : w.contexts.set context .invalid = w.contexts := by
          rw [← isInvalid, List.set_getElem_self]
        rw [keeps, same]
        exact sane
      | valid changes =>
        have ended := (sane.owner context (by simp [isValid, found,
          TransactionContextInner.isValid])).1
        -- the owner is unique: the context that has ended was the only valid one
        have noneValid : ∀ other, w.isValid other = true → other = context := by
          intro other valid
          have owns := (sane.owner other valid).1
          rw [ended] at owns
          exact (Option.some.inj owns).symm
        refine ⟨balanced changes, ?_, ?_⟩
        · intro other valid
          obtain ⟨different, wasValid⟩ := isValid_of_set_invalid valid
          exact absurd (noneValid other wasValid) different
        · intro running isTask uses
          have under := noneValid _ (sane.task running isTask uses)
          rcases uses with reader | writer
          · exact absurd (under ▸ isEntered_of_mem isTask reader) free
          · cases entered : running.entered with
            | true => exact absurd (under ▸ isEntered_of_mem isTask entered) free
            | false => simp_all

theorem sane_step (w : Shared S H P) (event : SharedEvent S) (sane : Sane w)
    (quiet : Quiet w event) : Sane (w.step rt event) := by
  cases event with
  | new => exact sane_new rt sane
  | begin context operation =>
    refine ⟨sane.balanced, sane.owner, ?_⟩
    intro running isTask
    rcases List.mem_append.mp isTask with old | fresh
    · exact sane.task running old
    · obtain rfl := List.mem_singleton.mp fresh
      -- it starts without a guard and without a handle
      rintro (reader | writer)
      · cases reader
      · simp only [Running.writesNext, Running.begin] at writer
        split at writer <;> cases writer
  | turn i =>
    simp only [step]
    split
    next => exact sane
    next running isTask => exact sane_turn rt sane i (List.mem_of_getElem? isTask)
  | stop i =>
    simp only [step]
    split
    next => exact sane
    next running _ => exact sane_ended sane i running
  | finish context engine =>
    refine sane_ending sane context (TransactionContext.finish rt · · engine)
      (fun inner => finish_context rt _ inner engine) rfl ?_ quiet
    intro changes
    rw [finish_valid_database]
    exact commitTransaction_balanced rt engine sane.balanced
  | abort context =>
    refine sane_ending sane context TransactionContext.abort (abort_context _) rfl ?_ quiet
    intro changes
    rw [abort_valid_database]
    exact balanced_setTransaction_none sane.balanced

theorem sane_initial (rows : List (Entity S)) (mls : Option (Session H)) (proteus : Option P) :
    Sane (initial rows mls proteus) where
  balanced := rfl
  owner context valid := by simp [isValid, initial] at valid
  task running isTask := by simp [initial] at isTask

/-- Who is about to write writes under a valid context, and that one owns the transaction. -/
theorem landsAtHome_of_sane (event : SharedEvent S) (sane : Sane w) : LandsAtHome rt w event := by
  cases event with
  | turn i =>
    intro running write isTask writesNext _
    have valid := sane.task running (List.mem_of_getElem? isTask) (.inr (by simp [writesNext]))
    exact (sane.owner _ valid).1
  | _ => trivial

theorem landsAtHome_of_quiet {rt : Runtime S} {events : List (SharedEvent S)} (sane : Sane w)
    (quiet : Guarded (step rt) Quiet w events) : Guarded (step rt) (LandsAtHome rt) w events :=
  guarded_of_invariant _ _ _ Sane (sane_step rt)
    (fun _ event sane _ => landsAtHome_of_sane rt event sane) w events sane quiet

end Shared

open Shared

/-- **Writes stay in their transaction.** In every run in which no context is ended while an
operation under it, outside of the guard, has the handle and is about to write, each write of an
operation goes into the transaction of the context the operation began under, or fails. -/
theorem writes_land_at_home (rt : Runtime S) (rows : List (Entity S)) (mls : Option (Session H))
    (proteus : Option P) (events : List (SharedEvent S))
    (quiet : Guarded (step rt) Quiet (initial rows mls proteus) events) :
    Guarded (step rt) (LandsAtHome rt) (initial rows mls proteus) events :=
  landsAtHome_of_quiet (sane_initial rows mls proteus) quiet

/-- Two operations under a context that is then finished, and two Proteus operations under the
next one, of which one is still at work when the first try to abort it waits. -/
def sampleEvents : List (SharedEvent Unit) :=
  [.new, .begin 0 (addCredential ⟨[1], [2], 0, 1, [4], [5]⟩),
    .begin 0 (removeKeyPackage ⟨.plain .keyPackage, [1]⟩ ⟨.plain .hpkePrivateKey, [2]⟩
      ⟨.plain .encryptionKeyPair, [3]⟩),
    .turn 1, .turn 0, .turn 1, .turn 0, .turn 1, .turn 1, .finish 0 none,
    .new, .begin 1 (proteusInit [.save (.plain .proteusPrekey [8] [8])]),
    .begin 1 (proteusOperation [.save (.plain .proteusPrekey [9] [9])]), .turn 2, .turn 3, .turn 2,
    .abort 1, .turn 3, .turn 3, .turn 3, .turn 2, .turn 2, .abort 1]

theorem writes_land_at_home_sample :
    Guarded (step (.newestFirst id)) Quiet (initial [] none none : Shared Unit Unit Unit)
        sampleEvents ∧
      Guarded (step (.newestFirst id)) (LandsAtHome (.newestFirst id))
        (initial [] none none : Shared Unit Unit Unit) sampleEvents :=
  have quiet : Guarded (step (.newestFirst id)) Quiet
      (initial [] none none : Shared Unit Unit Unit) sampleEvents := by decide +kernel
  ⟨quiet, writes_land_at_home (.newestFirst id) [] none none sampleEvents quiet⟩

/-- The operation has fetched the handle and waits for its group when its context is aborted and
the next one is created.  The group it persists is stored when the next context is finished. -/
theorem group_of_aborted_context_stored :
    ¬ Guarded (step (.newestFirst id)) (LandsAtHome (.newestFirst id))
        (initial [] none none : Shared Unit Unit Unit)
        [.new, .begin 0 (mutateGroup [] (some (.persistedMlsGroup [1] () none))), .turn 0, .abort 0,
          .new, .turn 0] ∧
      (run (step (.newestFirst id)) (initial [] none none : Shared Unit Unit Unit)
        [.new, .begin 0 (mutateGroup [] (some (.persistedMlsGroup [1] () none))), .turn 0, .abort 0,
          .new, .turn 0, .finish 1 none]).core.database.conn =
        some [.persistedMlsGroup [1] () none] := by
  refine ⟨?_, by decide +kernel⟩
  rintro ⟨-, -, -, -, -, lands, -⟩
  have owner := lands _ _ rfl rfl rfl
  cases owner

/-! ### Operations that keep the guard -/

/-- The operation takes the read guard before it does anything else. -/
def Sheltered : SharedEvent S → Prop
  | .begin _ operation => ∃ rest, operation = .enter :: rest
  | _ => True

/-- Every operation has the guard, is about to take it, or has ended. -/
def Covered (w : Shared S H P) : Prop :=
  ∀ running ∈ w.tasks,
    running.entered = true ∨ running.rest = [] ∨ ∃ rest, running.rest = .enter :: rest

variable {w : Shared S H P}

theorem covered_setTask (covered : Covered w) (i : Nat) {running : Running S}
    (holds : running.entered = true ∨ running.rest = []) : Covered (w.setTask i running) := by
  intro found isTask
  rcases List.mem_or_eq_of_mem_set isTask with old | rfl
  · exact covered found old
  · exact holds.imp_right .inl

theorem covered_ending (covered : Covered w) (context : Nat)
    (call : Core S H P → TransactionContextInner →
      Except TransactionError Unit × Core S H P × TransactionContextInner) :
    Covered (w.ending context call) := by
  unfold ending
  split
  · exact covered
  · split <;> exact covered

theorem covered_step (rt : Runtime S) (w : Shared S H P) (event : SharedEvent S)
    (covered : Covered w) (sheltered : Sheltered event) : Covered (w.step rt event) := by
  cases event with
  | new =>
    simp only [step]
    split <;> exact covered
  | begin context operation =>
    intro running isTask
    rcases List.mem_append.mp isTask with old | fresh
    · exact covered running old
    · obtain rfl := List.mem_singleton.mp fresh
      exact .inr (.inr sheltered)
  | turn i =>
    simp only [step]
    split
    next => exact covered
    next running isTask =>
      have ended : Covered (w.setTask i running.ended) := covered_setTask covered i (.inr rfl)
      have here := covered running (List.mem_of_getElem? isTask)
      unfold turn
      split
      next => exact ended
      next =>
        split
        · exact covered_setTask covered i (.inl rfl)
        · exact ended
      all_goals
        -- past its first step an operation has the guard
        have entered : running.entered = true := by simpa [*] using here
        split
        · exact covered_setTask covered i (.inl entered)
        · exact ended
  | stop i =>
    simp only [step]
    split
    next => exact covered
    next running _ => exact covered_setTask covered i (.inr rfl)
  | finish context engine => exact covered_ending covered context _
  | abort context => exact covered_ending covered context _

theorem quiet_of_covered (event : SharedEvent S) (covered : Covered w) : Quiet w event := by
  have unentered : ∀ running ∈ w.tasks, running.entered = false → running.writesNext.isNone := by
    intro running isTask outside
    rcases covered running isTask with inside | empty | ⟨rest, next'⟩
    · rw [outside] at inside
      cases inside
    · simp [Running.writesNext, empty]
    · simp [Running.writesNext, next']
  cases event with
  | finish context engine => exact fun running isTask _ => unentered running isTask
  | abort context => exact fun running isTask _ => unentered running isTask
  | _ => trivial

/-- **The guard is enough.** If every operation keeps the read guard of its context, as the Proteus
operations do, no write leaves its transaction, whatever the interleaving. -/
theorem sheltered_writes_land_at_home (rt : Runtime S) (rows : List (Entity S))
    (mls : Option (Session H)) (proteus : Option P) {events : List (SharedEvent S)}
    (sheltered : ∀ event ∈ events, Sheltered event) :
    Guarded (step rt) (LandsAtHome rt) (initial rows mls proteus) events := by
  have quiet : Guarded (step rt) Quiet (initial rows mls proteus) events :=
    guarded_of_invariant _ (fun _ event => Sheltered event) _ Covered (covered_step rt)
      (fun w event covered _ => quiet_of_covered event covered) _ _
      (fun running isTask => by cases isTask)
      (guarded_of_forall_mem _ _ _ _ sheltered)
  exact landsAtHome_of_quiet (sane_initial rows mls proteus) quiet

theorem sheltered_writes_land_at_home_sample :
    Guarded (step (.newestFirst id)) (LandsAtHome (.newestFirst id))
      (initial [] none none : Shared Unit Unit Unit)
      [.new, .begin 0 (proteusOperation [.save (.plain .proteusPrekey [9] [9])]), .turn 0, .turn 0,
        .abort 0, .turn 0] :=
  sheltered_writes_land_at_home _ _ _ _ (by simp [Sheltered, proteusOperation])

end CoreCrypto.TransactionContext
