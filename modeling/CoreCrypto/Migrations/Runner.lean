import CoreCrypto.Library.Except
import CoreCrypto.Migrations.MetaMigrations

/-!
# Running migrations, with interruptions

`run_migrations` commits a SQL migration, then its meta migration, then the new version in a pragma,
and only the first is recorded.  A process is the database and the place in the loop: advancing does
not change its result, and stopping does unless nothing that matters was about to be committed.
-/

namespace CoreCrypto.Migrations

open Keystore Library Library.Fallible

/-- The migrations: the SQL of each version, the meta migrations, and how many changes of the
schema a version makes, each of which counts up the pragma `schema_version` (for the pragma
`user_version` these numbers are zero). -/
structure Schema (C E : Type) where
  sql : Nat → C → Except E C
  metaMigration : Nat → Option (C → Except E C)
  schemaChanges : Nat → Nat

/-- What is committed: the history of the runner, which ends with `applied`, the pragma and the
tables. -/
structure Db (C : Type) where
  applied : Nat
  version : Nat
  content : C
  deriving DecidableEq

variable {C E : Type}

namespace Schema

variable (m : Schema C E)

/-- One SQL migration and its record in the history. -/
def apply (db : Db C) (version : Nat) : Except E (Db C) := do
  let content ← m.sql version db.content
  return ⟨version, db.version + m.schemaChanges version, content⟩

/-- `Runner::run` with a target: the report and the database. -/
def runner (db : Db C) (target : Nat) : Except E (List Nat × Db C) := do
  let applied := List.range' (db.applied + 1) (target - db.applied)
  return (applied, ← applied.foldlM m.apply db)

def runMetaMigration (version : Nat) (db : Db C) : Except E (Db C) :=
  match m.metaMigration version with
  | none => .ok db
  | some work => do return { db with content := ← work db.content }

def pragmaUpdate (version : Nat) (db : Db C) : Db C :=
  { db with version }

/-- The body of the loop. -/
def round (db : Db C) (version : Nat) : Except E (Db C) := do
  let (report, db) ← m.runner db version
  match report.max? with
  | none => return db
  | some updated => return pragmaUpdate updated (← m.runMetaMigration updated db)

def runMigrations (target : Nat) (db : Db C) : Except E (Db C) :=
  (List.range' 1 target).foldlM m.round db

/-! ### Processes -/

end Schema

inductive Pc (E : Type) where
  | loop (version : Nat)
  | metaMigration (updated : Nat)
  | pragma (updated : Nat)
  | done
  | failed (error : E)
  deriving DecidableEq

structure Process (C E : Type) where
  db : Db C
  pc : Pc E
  deriving DecidableEq

/-- A process goes on to its next commit, or stops and is started again. -/
inductive Move where
  | advance
  | stop
  deriving DecidableEq

def Process.start (db : Db C) : Process C E :=
  ⟨db, .loop 1⟩

namespace Schema

variable (m : Schema C E) (target : Nat) {final : Db C} {version : Nat}

def advance (process : Process C E) : Process C E :=
  match process.pc with
  | .loop version =>
    if target < version then { process with pc := .done }
    else if version ≤ process.db.applied then { process with pc := .loop (version + 1) }
    else
      match m.apply process.db (process.db.applied + 1) with
      | .error e => { process with pc := .failed e }
      | .ok db => ⟨db, if version ≤ db.applied then .metaMigration version else .loop version⟩
  | .metaMigration updated =>
    match m.runMetaMigration updated process.db with
    | .error e => { process with pc := .failed e }
    | .ok db => ⟨db, .pragma updated⟩
  | .pragma updated => ⟨pragmaUpdate updated process.db, .loop (updated + 1)⟩
  | .done | .failed _ => process

def move (process : Process C E) : Move → Process C E
  | .advance => m.advance target process
  | .stop => .start process.db

/-- Where a process may stop: at a meta migration only if it has nothing to change, and not
between the last SQL migration and its pragma. -/
def MayStop (process : Process C E) : Prop :=
  match process.pc with
  | .metaMigration updated => updated < target ∧ m.runMetaMigration updated process.db = .ok process.db
  | .pragma updated => updated < target
  | .loop _ | .done | .failed _ => True

def StopsSafely (process : Process C E) : Move → Prop
  | .advance => True
  | .stop => m.MayStop target process

instance [DecidableEq C] [DecidableEq E] (process : Process C E) :
    Decidable (m.MayStop target process) := by
  unfold MayStop
  split <;> infer_instance

instance [DecidableEq C] [DecidableEq E] (process : Process C E) (label : Move) :
    Decidable (m.StopsSafely target process label) := by
  cases label <;> unfold StopsSafely <;> infer_instance

/-! ### What is left to do -/

/-- The rest of the loop. -/
def rounds (version : Nat) (db : Db C) : Except E (Db C) :=
  (List.range' version (target + 1 - version)).foldlM m.round db

/-- The result of a process that is not stopped. -/
def remaining (process : Process C E) : Except E (Db C) :=
  match process.pc with
  | .loop version => m.rounds target version process.db
  | .metaMigration updated => do
    m.rounds target (updated + 1)
      (pragmaUpdate updated (← m.runMetaMigration updated process.db))
  | .pragma updated => m.rounds target (updated + 1) (pragmaUpdate updated process.db)
  | .done => .ok process.db
  | .failed e => .error e

/-- Every version before the place in the loop is applied. -/
def Placed (process : Process C E) : Prop :=
  match process.pc with
  | .loop version => 1 ≤ version ∧ version ≤ process.db.applied + 1
  | .metaMigration updated | .pragma updated => process.db.applied = updated ∧ updated ≤ target
  | .done => target ≤ process.db.applied
  | .failed _ => True

variable {m target} {db : Db C} {process : Process C E}

theorem round_of_applied (applied : version ≤ db.applied) : m.round db version = .ok db := by
  simp only [round, runner, Nat.sub_eq_zero_of_le applied, List.range'_zero, List.foldlM_nil]
  rfl

/-- The round of the first version that is not applied. -/
theorem round_next : m.round db (db.applied + 1) = (do
    let db' ← m.apply db (db.applied + 1)
    return pragmaUpdate (db.applied + 1) (← m.runMetaMigration (db.applied + 1) db')) := by
  simp only [round, runner, Nat.add_sub_cancel_left, List.range'_one, List.foldlM_cons,
    List.foldlM_nil, bind_assoc, pure_bind, bind_pure, List.max?_singleton]

theorem rounds_of_lt (past : target < version) : m.rounds target version db = .ok db := by
  rw [rounds, Nat.sub_eq_zero_of_le past]
  rfl

theorem rounds_succ (within : version ≤ target) :
    m.rounds target version db = m.round db version >>= m.rounds target (version + 1) := by
  have split : target + 1 - version = target + 1 - (version + 1) + 1 := by omega
  rw [rounds, split, List.range'_succ, List.foldlM_cons]
  rfl

theorem rounds_of_applied (positive : 1 ≤ version) (applied : version ≤ db.applied + 1) :
    m.rounds target 1 db = m.rounds target version db := by
  induction version, positive using Nat.le_induction with
  | base => rfl
  | succ version positive ih =>
    rw [ih (by omega)]
    by_cases within : version ≤ target
    · rw [rounds_succ within, round_of_applied (by omega)]
      rfl
    · rw [rounds_of_lt (by omega), rounds_of_lt (by omega)]

/-- The next pragma overwrites the one before it. -/
theorem rounds_pragmaUpdate (more : db.applied < target) (version : Nat) :
    m.rounds target (db.applied + 1) (pragmaUpdate version db) =
      m.rounds target (db.applied + 1) db := by
  have same : m.round (pragmaUpdate version db) (db.applied + 1) =
      m.round db (db.applied + 1) := by
    change m.round (pragmaUpdate version db) ((pragmaUpdate version db).applied + 1) = _
    rw [round_next, round_next]
    simp only [apply, pragmaUpdate, runMetaMigration]
    cases m.sql (db.applied + 1) db.content with
    | error e => rfl
    | ok content =>
      cases m.metaMigration (db.applied + 1) with
      | none => rfl
      | some work =>
        simp only [ok_bind, pure_bind]
        cases work content <;> rfl
  rw [rounds_succ more, rounds_succ more, same]

/-! ### One move -/

theorem apply_eq_ok {after : Db C} (ok : m.apply db version = .ok after) :
    after.applied = version := by
  obtain ⟨content, -, ⟨⟩⟩ := bind_eq_ok ok
  rfl

theorem runMetaMigration_eq_ok {after : Db C}
    (ok : m.runMetaMigration version db = .ok after) : after.applied = db.applied := by
  unfold runMetaMigration at ok
  split at ok
  · cases ok
    rfl
  · obtain ⟨content, -, ⟨⟩⟩ := bind_eq_ok ok
    rfl

/-- In the loop at a version that is not applied, the version is the next one. -/
theorem next_of_placed (placed : Placed target (⟨db, .loop version⟩ : Process C E))
    (fresh : ¬ version ≤ db.applied) : version = db.applied + 1 :=
  Nat.le_antisymm placed.2 (Nat.lt_of_not_le fresh)

theorem placed_advance (placed : Placed target process) :
    Placed target (m.advance target process) := by
  obtain ⟨db, pc⟩ := process
  cases pc with
  | loop version =>
    simp only [advance]
    split
    next past => exact Nat.le_of_lt_succ (Nat.lt_of_lt_of_le past placed.2)
    next within =>
      split
      next applied => exact ⟨Nat.le_add_left _ _, Nat.succ_le_succ applied⟩
      next fresh =>
        obtain rfl := next_of_placed placed fresh
        cases applies : m.apply db (db.applied + 1) with
        | error e => trivial
        | ok after =>
          have applied := apply_eq_ok applies
          simp only [applied, le_refl, if_true]
          exact ⟨applied, Nat.le_of_not_lt within⟩
  | metaMigration updated =>
    simp only [advance]
    cases works : m.runMetaMigration updated db with
    | error e => trivial
    | ok after => exact ⟨(runMetaMigration_eq_ok works).trans placed.1, placed.2⟩
  | pragma updated => exact ⟨Nat.le_add_left _ _, Nat.succ_le_succ (Nat.le_of_eq placed.1.symm)⟩
  | done => exact placed
  | failed e => trivial

/-- Advancing does a part of what is left. -/
theorem remaining_advance (placed : Placed target process) :
    m.remaining target (m.advance target process) = m.remaining target process := by
  obtain ⟨db, pc⟩ := process
  cases pc with
  | loop version =>
    simp only [advance]
    split
    next past => exact (rounds_of_lt past).symm
    next within =>
      have within : version ≤ target := Nat.le_of_not_lt within
      split
      next applied =>
        simp only [remaining]
        rw [rounds_succ within, round_of_applied applied, ok_bind]
      next fresh =>
        obtain rfl := next_of_placed placed fresh
        have left : m.remaining target (⟨db, .loop (db.applied + 1)⟩ : Process C E) = _ :=
          rounds_succ within
        rw [left, round_next]
        cases applies : m.apply db (db.applied + 1) with
        | error e => rfl
        | ok after =>
          simp only [apply_eq_ok applies, le_refl, if_true, remaining, ok_bind, bind_assoc,
            pure_bind]
  | metaMigration updated =>
    simp only [advance, remaining]
    cases m.runMetaMigration updated db <;> rfl
  | _ => rfl

/-- A process that is stopped where it may be has the same to do when it is started again. -/
theorem remaining_start (placed : Placed target process) (safe : m.MayStop target process)
    (succeeds : ∀ e, process.pc ≠ .failed e) :
    m.remaining target (.start process.db) = m.remaining target process := by
  obtain ⟨db, pc⟩ := process
  change m.rounds target 1 db = _
  cases pc with
  | loop version => exact rounds_of_applied placed.1 placed.2
  | metaMigration updated =>
    obtain rfl : db.applied = updated := placed.1
    obtain ⟨more, nothing⟩ := safe
    simp only [remaining]
    rw [nothing, ok_bind, rounds_pragmaUpdate more]
    exact rounds_of_applied (Nat.le_add_left _ _) (Nat.le_refl _)
  | pragma updated =>
    obtain rfl : db.applied = updated := placed.1
    simp only [remaining]
    rw [rounds_pragmaUpdate safe]
    exact rounds_of_applied (Nat.le_add_left _ _) (Nat.le_refl _)
  | done =>
    rw [rounds_of_applied (Nat.le_add_left _ _) (Nat.succ_le_succ placed)]
    exact rounds_of_lt (Nat.lt_succ_self _)
  | failed e => exact absurd rfl (succeeds e)

/-! ### Whole runs -/

/-- The process is on its way to the result. -/
def HeadsFor (m : Schema C E) (target : Nat) (final : Db C) (process : Process C E) : Prop :=
  Placed target process ∧ m.remaining target process = .ok final

theorem headsFor_start (ok : m.runMigrations target db = .ok final) :
    m.HeadsFor target final (.start db) :=
  ⟨⟨Nat.le_refl _, Nat.le_add_left _ _⟩, ok⟩

theorem headsFor_move (heads : m.HeadsFor target final process) (label : Move)
    (safe : m.StopsSafely target process label) :
    m.HeadsFor target final (m.move target process label) := by
  obtain ⟨placed, left⟩ := heads
  cases label with
  | advance => exact ⟨placed_advance placed, (remaining_advance placed).trans left⟩
  | stop =>
    refine ⟨⟨Nat.le_refl _, Nat.le_add_left _ _⟩, (remaining_start placed safe ?_).trans left⟩
    intro e failed
    rw [remaining, failed] at left
    cases left

/-- How many moves are left at most. -/
def distance (target : Nat) (process : Process C E) : Nat :=
  match process.pc with
  | .loop version => 3 * (target + 1 - version) + 1
  | .metaMigration updated => 3 * (target - updated) + 3
  | .pragma updated => 3 * (target - updated) + 2
  | .done | .failed _ => 0

/-- A process on its way to the result comes nearer with every move. -/
theorem distance_advance (heads : m.HeadsFor target final process) (running : process.pc ≠ .done) :
    distance target (m.advance target process) < distance target process := by
  obtain ⟨placed, left⟩ := heads
  obtain ⟨db, pc⟩ := process
  cases pc with
  | loop version =>
    simp only [advance]
    split
    next past => exact Nat.succ_pos _
    next within =>
      split
      next applied =>
        simp only [distance]
        omega
      next fresh =>
        obtain rfl := next_of_placed placed fresh
        cases applies : m.apply db (db.applied + 1) with
        | error e => exact Nat.succ_pos _
        | ok after =>
          simp only [apply_eq_ok applies, le_refl, if_true, distance]
          omega
  | metaMigration updated =>
    simp only [advance]
    cases m.runMetaMigration updated db with
    | error e => exact Nat.succ_pos _
    | ok after =>
      simp only [distance]
      omega
  | pragma updated =>
    simp only [advance, distance]
    omega
  | done => exact absurd rfl running
  | failed e => cases left

theorem arrives (heads : m.HeadsFor target final process) :
    ∃ n, run (m.move target) process (List.replicate n .advance) = ⟨final, .done⟩ := by
  induction bound : distance target process using Nat.strong_induction_on generalizing process with
  | _ bound ih =>
    subst bound
    by_cases running : process.pc = .done
    · obtain ⟨db, pc⟩ := process
      obtain rfl : pc = .done := running
      obtain ⟨-, ⟨⟩⟩ := heads
      exact ⟨0, rfl⟩
    · obtain ⟨n, rest⟩ := ih _ (distance_advance heads running)
        (headsFor_move heads .advance trivial) rfl
      exact ⟨n + 1, rest⟩

end Schema

/-- The migrations of the keystore. -/
def keystoreSchema {Rest : Type} (hashes : Hashes) (parse : Parsers)
    (other : Nat → Tables Rest → Except MigrationError (Tables Rest))
    (schemaChanges : Nat → Nat) : Schema (Tables Rest) MigrationError where
  sql := sqlMigration hashes other
  metaMigration := metaMigration parse
  schemaChanges

/-- A credential with a key pair and further ones, at version 15. -/
def sampleV15 (further : List StoredSignatureKeypair) : Db (Tables Unit) :=
  ⟨15, 15, ⟨.untilV15 [⟨[1], [2], 3⟩] (⟨0x0403, [4], [5], [1]⟩ :: further), [], ()⟩⟩

def sampleParsers : Parsers where
  signatureKeyPair keypair := .ok ⟨keypair, [6]⟩
  credential _ := .ok (.basic [1])
  certificate _ := .error "no certificate"
  groupCiphersuite _ := .ok 2

def sampleSchema : Schema (Tables Unit) MigrationError :=
  keystoreSchema sampleHashes sampleParsers (fun _ tables => .ok tables) (fun _ => 1)

/-- The database after the migrations. -/
def sampleV20 : Db (Tables Unit) :=
  ⟨20, 20, ⟨.fromV20 [migratedRow sampleHashes ⟨[1], [2], 3, 2, [4], [6]⟩], [], ()⟩⟩

/-- A run that is stopped once. -/
def sampleMoves (first second : Nat) : List Move :=
  List.replicate first .advance ++ .stop :: List.replicate second .advance

end CoreCrypto.Migrations
