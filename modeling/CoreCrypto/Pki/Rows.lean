import CoreCrypto.Keystore.Overlay
import CoreCrypto.TransactionContext.Lifecycle

/-!
# The rows that readers of the database see

Through the open transaction, or among the stored rows.  Where rows are replaced when they are saved
again, opening and committing a transaction changes none of them, unless it removes a row under a
text: the deletion finds no row, which is seen again after the commit.
-/

namespace CoreCrypto.Pki

open Keystore Library TransactionContext

variable {S : Type} (rt : Runtime S) {tx : KeystoreTransaction S}

/-- The row under an id, through the open transaction if there is one. -/
def row (db : Database S) (id : EntityId) : Option (Entity S) :=
  db.conn.bind fun rows =>
    match db.transaction with
    | none => storedRow rt rows id
    | some tx => tx.read rt rows id

/-- Rows of these types are replaced when they are saved again; sessions are left out, which others
remove. -/
def replaced (typ : EntityType) : Bool :=
  typ.saveMode = .upsert || typ.saveMode = .upsertText && typ ≠ .proteusSession

/-- A connected database whose keys are unique, with the permit where it belongs. -/
structure Healthy (db : Database S) : Prop where
  connected : db.conn.isSome
  distinct : ∀ rows, db.conn = some rows → ∀ typ : EntityType, replaced typ →
    DistinctKeys rt.fromEntity (ofType typ rows)
  keyed : ∀ tx, db.transaction = some tx → tx.WellKeyed rt
  balanced : PermitBalanced db

/-- A removal finds the row that it is about. -/
def Effective (id : EntityId) : Prop := replaced id.typ → id.typ.saveMode = .upsert

/-- What the open transaction removes will be gone after its commit. -/
structure Steady (db : Database S) : Prop extends Healthy rt db where
  removes : ∀ tx, db.transaction = some tx → ∀ id ∈ tx.deleted, Effective id

/-- Inside a transaction; one of our `own` holds nothing whose commit could clash, and from a `safe`
one nothing comes back after the commit. -/
structure Inside (own safe : Prop) (db : Database S) : Prop where
  healthy : Healthy rt db
  opened : db.transaction.isSome
  upserts : own → ∀ tx, db.transaction = some tx →
    ∀ e ∈ tx.cache.entries, e.2.typ.saveMode ≠ .insert
  removes : safe → ∀ tx, db.transaction = some tx → ∀ id ∈ tx.deleted, Effective id

/-- Readers see the same rows. -/
def SameRows (before after : Database S) : Prop :=
  ∀ id : EntityId, replaced id.typ → row rt after id = row rt before id

/-- Readers see the write, and otherwise the same rows. -/
def Wrote (write : Write S) (before after : Database S) : Prop :=
  ∀ id : EntityId, replaced id.typ →
    row rt after id = if id = write.id rt then write.value else row rt before id

def writeType : Write S → EntityType
  | .save entity => entity.typ
  | .remove id => id.typ

variable {rt} {db : Database S}

theorem Inside.steady {own : Prop} (inside : Inside rt own True db) : Steady rt db :=
  ⟨inside.healthy, inside.removes trivial⟩

theorem Healthy.justOpened {rows : List (Entity S)} (distinct : DistinctKeys rt.fromEntity rows) :
    Healthy rt ⟨some rows, some .new, 0⟩ := by
  refine ⟨rfl, ?_, ?_, rfl⟩
  · rintro _ ⟨⟩ typ -
    exact (List.filter_sublist.map _).nodup distinct
  · rintro tx ⟨⟩
    exact KeystoreTransaction.wellKeyed_new _

@[simp] theorem writeType_eq (write : Write S) : (write.id rt).typ = writeType write := by
  cases write <;> rfl

theorem row_open (db : Database S) {rows : List (Entity S)} (connected : db.conn = some rows)
    (opened : db.transaction = some tx) (id : EntityId) : row rt db id = tx.read rt rows id := by
  simp [row, connected, opened]

theorem row_idle (db : Database S) {rows : List (Entity S)} (connected : db.conn = some rows)
    (idle : db.transaction = none) (id : EntityId) : row rt db id = storedRow rt rows id := by
  simp [row, connected, idle]

theorem row_id (healthy : Healthy rt db) {id : EntityId} {entity : Entity S}
    (found : row rt db id = some entity) : rt.fromEntity entity = id := by
  obtain ⟨rows, connected⟩ := Option.isSome_iff_exists.mp healthy.connected
  cases slot : db.transaction with
  | none =>
    rw [row_idle db connected slot] at found
    exact storedRow_id found
  | some tx =>
    rw [row_open db connected slot, KeystoreTransaction.read,
      KeystoreTransaction.getByEntityId] at found
    split at found
    · cases found
    · cases cached : tx.cache.lookup id with
      | none =>
        rw [cached] at found
        exact storedRow_id found
      | some held =>
        rw [cached] at found
        cases found
        exact KeystoreTransaction.lookup_id (healthy.keyed tx slot) cached

/-! ### Opening and closing transactions -/

theorem begin_healthy (healthy : Healthy rt db) (idle : db.transaction = none) :
    ∃ opened, db.newTransaction = some opened ∧ Inside rt True True opened ∧
      SameRows rt db opened := by
  obtain ⟨rows, connected⟩ := Option.isSome_iff_exists.mp healthy.connected
  have free : db.permits = 1 := healthy.balanced.free idle
  refine ⟨⟨db.conn, some .new, 0⟩, ?_, ⟨⟨healthy.connected, healthy.distinct, ?_, rfl⟩, rfl, ?_, ?_⟩,
    ?_⟩
  · simp [Database.newTransaction, Database.setTransaction, free, idle]
  · rintro tx ⟨⟩
    exact KeystoreTransaction.wellKeyed_new rt
  · rintro - tx ⟨⟩ e member
    cases member
  · rintro - tx ⟨⟩ id member
    cases member
  · intro id _
    rw [row_open ⟨db.conn, some .new, 0⟩ connected rfl, row_idle db connected idle,
      KeystoreTransaction.read_new]

theorem newTransaction_busy (healthy : Healthy rt db) (busy : db.transaction.isSome) :
    db.newTransaction = none := by
  have taken : db.permits = 0 := by
    rw [show db.permits = _ from healthy.balanced, busy]
    rfl
  simp [Database.newTransaction, taken]

theorem replaced_cases {typ : EntityType} (isReplaced : replaced typ) :
    typ.saveMode ≠ .append ∧ typ ≠ .mlsPendingMessage ∧ typ ≠ .proteusIdentity := by
  refine ⟨fun append => ?_, ?_, ?_⟩
  · simp [replaced, append] at isReplaced
  · rintro rfl
    cases isReplaced
  · rintro rfl
    cases isReplaced

theorem commit_steady (steady : Steady rt db) {engine : Option CryptoKeystoreError}
    {committed : Database S} (ok : db.commitTransaction rt engine = (.ok (), committed)) :
    Steady rt committed ∧ committed.transaction = none ∧ SameRows rt db committed := by
  have balanced : PermitBalanced committed := by
    have kept := commitTransaction_balanced rt engine steady.balanced
    rwa [ok] at kept
  obtain ⟨tx, rows, saves, deletes, written, slot, connected, allSaves, allDeletes, executed,
    rfl⟩ := Database.commitsTo_of_commitTransaction rt db committed engine ok
  refine ⟨⟨⟨rfl, ?_, by rintro tx ⟨⟩, balanced⟩, by rintro tx ⟨⟩⟩, rfl, ?_⟩
  · rintro _ ⟨⟩ typ isReplaced
    exact distinct_executeIn rt typ (replaced_cases isReplaced).1 saves rows written deletes
      (steady.distinct rows connected typ isReplaced) executed
  · intro id isReplaced
    rw [row_open db connected slot, row_idle _ rfl rfl]
    obtain ⟨unique, notPending, notIdentity⟩ := replaced_cases isReplaced
    refine tx.storedRow_executeIn rt rows written saves deletes id (steady.keyed tx slot) allSaves
      allDeletes ⟨notPending, fun d member => ⟨fun identity => absurd identity notIdentity, ?_⟩⟩
      (fun append => absurd append unique) executed
    -- a row under a text is not removed
    rintro text rfl
    rw [steady.removes tx slot d member isReplaced] at text
    cases text

/-- Rows that are not inserted can always be saved. -/
theorem saves_of_upserts (rt : Runtime S) {entities : List (Entity S)} (rows : List (Entity S))
    (upserts : ∀ e ∈ entities, e.typ.saveMode ≠ .insert) :
    ∃ saved, entities.foldlM (executeSave rt) rows = .ok saved := by
  induction entities generalizing rows with
  | nil => exact ⟨rows, rfl⟩
  | cons entity rest ih =>
    obtain ⟨next, first⟩ : ∃ next, executeSave rt rows entity = .ok next := by
      have upsert := upserts entity List.mem_cons_self
      unfold executeSave
      split <;> simp_all
    obtain ⟨saved, ok⟩ := ih next fun e member => upserts e (List.mem_cons_of_mem _ member)
    refine ⟨saved, ?_⟩
    rw [List.foldlM_cons, first]
    exact ok

theorem commit_own (inside : Inside rt True True db) :
    ∃ committed, db.commitTransaction rt none = (.ok (), committed) ∧ Steady rt committed ∧
      committed.transaction = none ∧ SameRows rt db committed := by
  obtain ⟨rows, connected⟩ := Option.isSome_iff_exists.mp inside.healthy.connected
  obtain ⟨tx, slot⟩ := Option.isSome_iff_exists.mp inside.opened
  have cached : ∀ e ∈ rt.values tx.cache, e.typ.saveMode ≠ .insert := by
    intro e member
    rw [(rt.perm tx.cache).mem_iff, List.mem_map] at member
    obtain ⟨entry, listed, rfl⟩ := member
    exact inside.upserts trivial tx slot entry listed
  obtain ⟨saved, saves⟩ := saves_of_upserts rt rows cached
  have executed : tx.execute rt rows = .ok (tx.deleted.foldl (executeDelete rt) saved) := by
    rw [KeystoreTransaction.execute, saves]
    rfl
  obtain ⟨_, committed⟩ := commitTransaction_of_succeeds
    ⟨rows, tx, connected, slot, .inr ⟨rfl, _, executed⟩⟩
  exact ⟨_, committed, commit_steady inside.steady committed⟩

theorem rollback_steady (healthy : Healthy rt db) : Steady rt (db.setTransaction none) where
  connected := healthy.connected
  distinct := healthy.distinct
  keyed := by
    rintro tx ⟨⟩
  balanced := balanced_setTransaction_none healthy.balanced
  removes := by
    rintro tx ⟨⟩

/-- Rolling back what readers do not see changes nothing for them. -/
theorem row_rollback {id : EntityId}
    (unknown : ∀ tx, db.transaction = some tx → tx.getByEntityId id = none) :
    row rt (db.setTransaction none) id = row rt db id := by
  cases connected : db.conn with
  | none => simp [row, Database.setTransaction, connected]
  | some rows =>
    rw [row_idle (db.setTransaction none) connected rfl]
    cases slot : db.transaction with
    | none => rw [row_idle db connected slot]
    | some tx => simp [row_open db connected slot, KeystoreTransaction.read, unknown tx slot]

/-! ### Writes -/

theorem upserts_buffer {write : Write S}
    (upserts : ∀ e ∈ tx.cache.entries, e.2.typ.saveMode ≠ .insert)
    (upsert : (writeType write).saveMode ≠ .insert) :
    ∀ e ∈ (write.buffer rt tx).cache.entries, e.2.typ.saveMode ≠ .insert := by
  intro e member
  cases write with
  | save entity =>
    simp only [Write.buffer, KeystoreTransaction.save, AList.entries_insert, List.mem_cons] at member
    rcases member with rfl | older
    · exact upsert
    · exact upserts e ((List.kerase_sublist _ _).mem older)
  | remove id => exact upserts e ((List.kerase_sublist _ _).mem member)

theorem effective_buffer {write : Write S} (removes : ∀ id ∈ tx.deleted, Effective id)
    (effective : ∀ id, write = .remove id → Effective id) :
    ∀ id ∈ (write.buffer rt tx).deleted, Effective id := by
  intro id member
  cases write with
  | save entity => exact removes id (List.mem_filter.mp member).1
  | remove removed =>
    rcases List.mem_insert_iff.mp member with rfl | older
    · exact effective id rfl
    · exact removes id older

theorem wellKeyed_buffer (write : Write S) (keyed : tx.WellKeyed rt) :
    (write.buffer rt tx).WellKeyed rt := by
  cases write with
  | save entity => exact KeystoreTransaction.wellKeyed_save rt tx entity keyed
  | remove id => exact KeystoreTransaction.wellKeyed_removeByEntityId rt tx id keyed

theorem read_buffer (write : Write S) (tx : KeystoreTransaction S) (rows : List (Entity S))
    (id : EntityId) :
    (write.buffer rt tx).read rt rows id =
      if id = write.id rt then write.value else tx.read rt rows id := by
  split
  next same =>
    subst same
    cases write <;> simp [Write.buffer, Write.id, Write.value]
  next other =>
    cases write with
    | save entity => exact KeystoreTransaction.read_save_other tx rows other
    | remove removed => exact KeystoreTransaction.read_remove_other rt tx rows other

theorem write_inside {own safe : Prop} (write : Write S) (inside : Inside rt own safe db)
    (upsert : own → (writeType write).saveMode ≠ .insert)
    (effective : safe → ∀ id, write = .remove id → Effective id) :
    ∃ written, write.perform rt db = (.ok (), written) ∧ Inside rt own safe written ∧
      Wrote rt write db written := by
  obtain ⟨rows, connected⟩ := Option.isSome_iff_exists.mp inside.healthy.connected
  obtain ⟨tx, slot⟩ := Option.isSome_iff_exists.mp inside.opened
  refine ⟨_, Write.perform_open rt slot write,
    ⟨⟨inside.healthy.connected, inside.healthy.distinct, ?_, ?_⟩, rfl, ?_, ?_⟩, ?_⟩
  · rintro _ ⟨⟩
    exact wellKeyed_buffer write (inside.healthy.keyed tx slot)
  · have balanced := inside.healthy.balanced
    rw [PermitBalanced, slot] at balanced
    exact balanced
  · rintro mine _ ⟨⟩
    exact upserts_buffer (inside.upserts mine tx slot) (upsert mine)
  · rintro isSafe _ ⟨⟩
    exact effective_buffer (inside.removes isSafe tx slot) (effective isSafe)
  · intro id _
    rw [row_open { db with transaction := some (write.buffer rt tx) } connected rfl,
      row_open db connected slot, read_buffer]

end CoreCrypto.Pki
