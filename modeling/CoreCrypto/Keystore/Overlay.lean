import CoreCrypto.Library.KeyedList
import CoreCrypto.Library.Run
import CoreCrypto.Keystore.Listing

/-!
# An open transaction as an overlay of the stored rows

Of the writes buffered by a transaction the last one to each id counts.  Reads through the open
transaction answer that, and so does the table once it is committed, in whatever order `commit` goes
through its `HashMap` and its `HashSet`.
-/

namespace CoreCrypto.Keystore

open CoreCrypto.Library

variable {S : Type} {α κ : Type} (rt : Runtime S)

/-- A write into the open transaction: `save`, or `remove` and `remove_borrowed`. -/
inductive Write (S : Type) where
  | save (entity : Entity S)
  | remove (id : EntityId)

namespace Write

def id (rt : Runtime S) : Write S → EntityId
  | save entity => rt.fromEntity entity
  | remove id => id

/-- What is to be found under its id after the write. -/
def value : Write S → Option (Entity S)
  | save entity => some entity
  | remove _ => none

def buffer (rt : Runtime S) (tx : KeystoreTransaction S) : Write S → KeystoreTransaction S
  | save entity => tx.save rt entity
  | remove id => tx.removeByEntityId id

/-- `Database::save` and `Database::remove`. -/
def perform (rt : Runtime S) (db : Database S) :
    Write S → Except CryptoKeystoreError Unit × Database S
  | save entity => db.save rt entity
  | remove id => db.remove id

theorem perform_open (rt : Runtime S) {db : Database S} {tx : KeystoreTransaction S}
    (opened : db.transaction = some tx) (write : Write S) :
    write.perform rt db = (.ok (), { db with transaction := some (write.buffer rt tx) }) := by
  cases write <;>
    simp [perform, buffer, Database.save, Database.remove, Database.modifyTransaction, opened]

end Write

/-- The transaction after the writes. -/
def KeystoreTransaction.ofWrites (rt : Runtime S) (writes : List (Write S)) :
    KeystoreTransaction S :=
  run (fun tx write => write.buffer rt tx) .new writes

/-- The database after the writes. -/
def Database.written (rt : Runtime S) (db : Database S) (writes : List (Write S)) : Database S :=
  run (fun db write => (write.perform rt db).2) db writes

/-- The last write to an id. -/
def lastWrite (rt : Runtime S) (writes : List (Write S)) (id : EntityId) : Option (Write S) :=
  lastBy (Write.id rt) writes id

theorem Database.written_open (rows : Option (List (Entity S)))
    (tx : KeystoreTransaction S) (permits : Nat) (writes : List (Write S)) :
    (Database.mk rows (some tx) permits).written rt writes =
      ⟨rows, some (run (fun tx write => write.buffer rt tx) tx writes), permits⟩ := by
  unfold Database.written
  induction writes generalizing tx with
  | nil => rfl
  | cons write rest ih =>
    rw [run_cons, run_cons, Write.perform_open rt rfl write]
    exact ih _

theorem Database.written_new (rows : Option (List (Entity S))) (permits : Nat)
    (writes : List (Write S)) :
    (Database.mk rows (some .new) permits).written rt writes =
      ⟨rows, some (.ofWrites rt writes), permits⟩ :=
  written_open rt rows .new permits writes

/-! ### What the transaction holds after some writes -/

theorem map_snd_kerase (id : EntityId) (entries : List (Sigma (fun _ : EntityId => Entity S)))
    (keyed : ∀ e ∈ entries, rt.fromEntity e.2 = e.1) (nodup : entries.NodupKeys) :
    (entries.kerase id).map Sigma.snd =
      (entries.map Sigma.snd).filter (fun e => rt.fromEntity e ≠ id) := by
  induction entries with
  | nil => rfl
  | cons e rest ih =>
    have keyedHead := keyed e List.mem_cons_self
    have keyedRest : ∀ e ∈ rest, rt.fromEntity e.2 = e.1 :=
      fun e member => keyed e (List.mem_cons_of_mem _ member)
    rw [List.nodupKeys_cons] at nodup
    by_cases same : id = e.1
    · have others : (rest.map Sigma.snd).filter (fun e => rt.fromEntity e ≠ id) =
          rest.map Sigma.snd := by
        rw [List.filter_eq_self]
        intro entity member
        obtain ⟨other, inRest, rfl⟩ := List.mem_map.mp member
        rw [decide_eq_true_eq, keyedRest other inRest, same]
        exact fun sameKey => nodup.1 (sameKey ▸ List.mem_keys_of_mem inRest)
      rw [List.kerase_cons_eq same, List.map_cons, List.filter_cons_of_neg, others]
      simp [keyedHead, same]
    · rw [List.kerase_cons_ne same, List.map_cons, List.map_cons, List.filter_cons_of_pos,
        ih keyedRest nodup.2]
      simpa [keyedHead] using Ne.symm same

namespace KeystoreTransaction

variable (rt : Runtime S)

theorem ofWrites_append (writes : List (Write S)) (write : Write S) :
    ofWrites rt (writes ++ [write]) = write.buffer rt (ofWrites rt writes) := by
  simp [ofWrites, run, List.foldl_append]

theorem wellKeyed_ofWrites (writes : List (Write S)) : (ofWrites rt writes).WellKeyed rt := by
  induction writes using List.reverseRecOn with
  | nil => exact wellKeyed_new rt
  | append_singleton earlier write ih =>
    rw [ofWrites_append]
    cases write with
    | save entity => exact wellKeyed_save rt _ entity ih
    | remove id => exact wellKeyed_removeByEntityId rt _ id ih

theorem lookup_ofWrites (writes : List (Write S)) (id : EntityId) :
    (ofWrites rt writes).cache.lookup id = (lastWrite rt writes id).bind Write.value := by
  induction writes using List.reverseRecOn with
  | nil => rfl
  | append_singleton earlier write ih =>
    rw [ofWrites_append]
    by_cases same : write.id rt = id
    · subst same
      rw [lastWrite, lastBy_append_self]
      cases write with
      | save entity => exact AList.lookup_insert _
      | remove id => exact AList.lookup_erase id _
    · rw [lastWrite, lastBy_append_other _ _ same, ← lastWrite, ← ih]
      cases write with
      | save entity => exact AList.lookup_insert_ne (Ne.symm same)
      | remove removed => exact AList.lookup_erase_ne (Ne.symm same)

theorem mem_deleted_ofWrites (writes : List (Write S)) (id : EntityId) :
    id ∈ (ofWrites rt writes).deleted ↔ lastWrite rt writes id = some (.remove id) := by
  induction writes using List.reverseRecOn with
  | nil => simp [ofWrites, new, lastWrite]
  | append_singleton earlier write ih =>
    rw [ofWrites_append]
    by_cases same : write.id rt = id
    · subst same
      rw [lastWrite, lastBy_append_self]
      cases write with
      | save entity => simp [Write.buffer, save, Write.id]
      | remove id => simp [Write.buffer, removeByEntityId, Write.id]
    · rw [lastWrite, lastBy_append_other _ _ same, ← lastWrite, ← ih]
      cases write with
      | save entity =>
        have other : id ≠ rt.fromEntity entity := Ne.symm same
        simp [Write.buffer, save, other]
      | remove removed =>
        have other : id ≠ removed := Ne.symm same
        simp [Write.buffer, removeByEntityId, other]

/-- A read by id answers the last write to the id, and the stored row if there is none. -/
theorem read_ofWrites (writes : List (Write S)) (rows : List (Entity S)) (id : EntityId) :
    (ofWrites rt writes).read rt rows id =
      match lastWrite rt writes id with
      | some write => write.value
      | none => storedRow rt rows id := by
  have deleted := mem_deleted_ofWrites rt writes id
  rw [read, getByEntityId, lookup_ofWrites]
  cases last : lastWrite rt writes id with
  | none => simp [deleted, last]
  | some write =>
    cases write with
    | save entity => simp [deleted, last, Write.value]
    | remove removed =>
      have same : removed = id := (mem_of_lastBy _ last).2
      simp [deleted, last, same, Write.value]

end KeystoreTransaction

/-! ### Listing a collection -/

theorem uniqueBy_of_distinct [DecidableEq κ] {key : α → κ} {xs : List α}
    (distinct : DistinctKeys key xs) : uniqueBy key xs = xs := by
  simpa [uniqueBy] using uniqueBy_append [] distinct

theorem uniqueBy_distinct [DecidableEq κ] (key : α → κ) (xs : List α) :
    DistinctKeys key (uniqueBy key xs) := by
  induction xs with
  | nil => exact List.nodup_nil
  | cons x rest ih =>
    refine List.nodup_cons.mpr ⟨?_, (List.filter_sublist.map key).nodup ih⟩
    intro member
    obtain ⟨y, inRest, same⟩ := List.mem_map.mp member
    simpa [same] using (List.mem_filter.mp inRest).2

/-- The rows of a collection. -/
def ofType (typ : EntityType) (rows : List (Entity S)) : List (Entity S) :=
  rows.filter (fun e => e.typ = typ)

@[simp] theorem mem_ofType (typ : EntityType) (rows : List (Entity S)) (e : Entity S) :
    e ∈ ofType typ rows ↔ e ∈ rows ∧ e.typ = typ := by
  simp [ofType]

/-- Within a collection the bytes of the primary key tell the ids apart. -/
theorem Runtime.fromEntity_inj {a b : Entity S} (typ : a.typ = b.typ) :
    rt.fromEntity a = rt.fromEntity b ↔ a.primaryKey rt.toHashes = b.primaryKey rt.toHashes := by
  simp [Runtime.fromEntity, typ]

theorem distinct_primaryKey {typ : EntityType} {rows : List (Entity S)}
    (one : ∀ e ∈ rows, e.typ = typ) :
    DistinctKeys (Entity.primaryKey rt.toHashes) rows ↔ DistinctKeys rt.fromEntity rows := by
  have same : rows.map rt.fromEntity =
      (rows.map (Entity.primaryKey rt.toHashes)).map (EntityId.mk typ) := by
    rw [List.map_map]
    exact List.map_congr_left (fun e member => by simp [Runtime.fromEntity, one e member])
  have injective : Function.Injective (EntityId.mk typ) := fun a b equal => by simpa using equal
  rw [DistinctKeys, DistinctKeys, same, List.nodup_map_iff injective]

/-- A row of a collection with a unique key is the one a read by its id finds. -/
theorem storedRow_iff (typ : EntityType) (rows : List (Entity S))
    (stored : DistinctKeys rt.fromEntity (ofType typ rows)) (e : Entity S) (isTyp : e.typ = typ) :
    storedRow rt rows (rt.fromEntity e) = some e ↔ e ∈ rows := by
  have sameTyp (other : Entity S) (sameId : rt.fromEntity other = rt.fromEntity e) :
      decide (other.typ = typ) = true := by
    rw [decide_eq_true_eq, ← isTyp]
    exact congrArg EntityId.typ sameId
  rw [← storedRow_filter rows sameTyp, storedRow]
  refine (find?_key_iff rt.fromEntity stored _ e).trans ?_
  simp [isTyp]

namespace KeystoreTransaction

variable (rt : Runtime S) (tx : KeystoreTransaction S)

/-- Merging cached with stored records of one collection: a cached one hides the stored one of
its id, a deletion hides both. -/
theorem mem_mergeRecords {rt : Runtime S} {typ : EntityType}
    {recordsA recordsB : List (Entity S)} (typA : ∀ e ∈ recordsA, e.typ = typ)
    (typB : ∀ e ∈ recordsB, e.typ = typ) (distinctA : DistinctKeys rt.fromEntity recordsA)
    (distinctB : DistinctKeys rt.fromEntity recordsB) (e : Entity S) :
    e ∈ tx.mergeRecords rt recordsA recordsB ↔
      (e ∈ recordsA ∨ e ∈ recordsB ∧ ∀ a ∈ recordsA, rt.fromEntity a ≠ rt.fromEntity e) ∧
        rt.fromEntity e ∉ tx.deleted := by
  have keysA := (distinct_primaryKey rt typA).mpr distinctA
  have keysB := (distinct_primaryKey rt typB).mpr distinctB
  have hidden (stored : e ∈ recordsB) :
      e.primaryKey rt.toHashes ∉ recordsA.map (Entity.primaryKey rt.toHashes) ↔
        ∀ a ∈ recordsA, rt.fromEntity a ≠ rt.fromEntity e := by
    simp only [List.mem_map, not_exists, not_and]
    refine forall_congr' fun a => forall_congr' fun member => not_congr ?_
    exact (rt.fromEntity_inj (by rw [typA a member, typB e stored])).symm
  rw [mergeRecords, uniqueBy_append _ keysA, uniqueBy_of_distinct keysB]
  simp only [List.mem_filter, List.mem_append, decide_eq_true_eq]
  refine and_congr_left' (or_congr_right (and_congr_right ?_))
  exact hidden

theorem mergeRecords_distinct (recordsA recordsB : List (Entity S)) :
    DistinctKeys (Entity.primaryKey rt.toHashes) (tx.mergeRecords rt recordsA recordsB) :=
  (List.filter_sublist.map _).nodup (uniqueBy_distinct _ _)

theorem mem_findAllInCache (typ : EntityType) (keyed : tx.WellKeyed rt) (e : Entity S) :
    e ∈ tx.findAllInCache rt typ ↔ e.typ = typ ∧ tx.cache.lookup (rt.fromEntity e) = some e := by
  rw [findAllInCache, List.mem_filter, tx.mem_values rt, and_comm, decide_eq_true_eq]
  refine and_congr_right fun _ => ⟨?_, fun found => ⟨_, found⟩⟩
  rintro ⟨id, found⟩
  rw [tx.lookup_id keyed found, found]

theorem findAllInCache_distinct (typ : EntityType)
    (keyed : tx.WellKeyed rt) : DistinctKeys rt.fromEntity (tx.findAllInCache rt typ) :=
  (List.filter_sublist.map _).nodup (tx.values_nodup rt keyed)

theorem mem_findAll (typ : EntityType) (rows : List (Entity S)) (keyed : tx.WellKeyed rt)
    (stored : DistinctKeys rt.fromEntity (ofType typ rows)) (e : Entity S) :
    e ∈ tx.findAll rt typ (ofType typ rows) ↔
      e.typ = typ ∧ tx.read rt rows (rt.fromEntity e) = some e := by
  have inCache := tx.mem_findAllInCache rt typ keyed
  rw [findAll, tx.mem_mergeRecords (fun a member => ((inCache a).mp member).1)
    (fun b member => ((mem_ofType typ rows b).mp member).2)
    (tx.findAllInCache_distinct rt typ keyed) stored, inCache, mem_ofType]
  by_cases isTyp : e.typ = typ
  · have row := storedRow_iff rt typ rows stored e isTyp
    rw [read, getByEntityId]
    by_cases deleted : rt.fromEntity e ∈ tx.deleted
    · simp [deleted]
    · cases found : tx.cache.lookup (rt.fromEntity e) with
      | none =>
        -- nothing in the cache has this id
        have free (a : Entity S) (cached : a ∈ tx.findAllInCache rt typ) :
            rt.fromEntity a ≠ rt.fromEntity e := by
          intro same
          rw [← same, ((inCache a).mp cached).2] at found
          cases found
        simpa [deleted, isTyp, row] using fun _ => free
      | some cached =>
        have sameId := tx.lookup_id keyed found
        have typed : cached ∈ tx.findAllInCache rt typ := by
          rw [inCache, sameId]
          exact ⟨(congrArg EntityId.typ sameId).trans isTyp, found⟩
        have hides : ¬ ∀ a ∈ tx.findAllInCache rt typ, rt.fromEntity a ≠ rt.fromEntity e :=
          fun free => free cached typed sameId
        simp [deleted, isTyp, hides]
  · simp [isTyp]

theorem findAll_distinct (typ : EntityType) (persisted : List (Entity S)) :
    DistinctKeys (Entity.primaryKey rt.toHashes) (tx.findAll rt typ persisted) :=
  tx.mergeRecords_distinct rt _ _

end KeystoreTransaction

/-! ### After the commit -/

theorem distinct_executeSave (typ : EntityType) (unique : typ.saveMode ≠ .append)
    (rows saved : List (Entity S)) (entity : Entity S)
    (stored : DistinctKeys rt.fromEntity (ofType typ rows))
    (ok : executeSave rt rows entity = .ok saved) :
    DistinctKeys rt.fromEntity (ofType typ saved) := by
  by_cases same : entity.typ = typ
  · -- no row of the id is there any more when the entity is added
    obtain ⟨-, rfl⟩ := (executeSave_cases ok).resolve_left fun h => unique (same ▸ h.1)
    rw [ofType, List.filter_append, List.filter_comm]
    simp only [List.filter_cons, same, decide_true, if_true, List.filter_nil, DistinctKeys,
      List.map_append, List.map_cons, List.map_nil]
    refine List.Nodup.append ((List.filter_sublist.map _).nodup stored) (List.nodup_singleton _) ?_
    intro id inRows isNew
    obtain ⟨e, member, rfl⟩ := List.mem_map.mp inRows
    have other := (List.mem_filter.mp member).2
    rw [decide_eq_true_eq] at other
    exact other (List.mem_singleton.mp isNew)
  · have kept : (ofType typ saved).Sublist (ofType typ rows) := by
      rcases executeSave_cases ok with ⟨-, rfl⟩ | ⟨-, rfl⟩
      · simp [ofType, List.filter_append, same]
      · simp only [ofType, List.filter_append, List.filter_cons, same, decide_false,
          Bool.false_eq_true, if_false, List.filter_nil, List.append_nil]
        exact List.filter_sublist.filter _
    exact (kept.map _).nodup stored

theorem distinct_executeIn (typ : EntityType) (unique : typ.saveMode ≠ .append)
    (saves rows written : List (Entity S)) (deletes : List EntityId)
    (stored : DistinctKeys rt.fromEntity (ofType typ rows))
    (ok : executeIn rt saves deletes rows = .ok written) :
    DistinctKeys rt.fromEntity (ofType typ written) := by
  obtain ⟨saved, savesOk, rfl⟩ := executeIn_eq_ok ok
  have savedDistinct : DistinctKeys rt.fromEntity (ofType typ saved) := by
    clear ok
    induction saves generalizing rows with
    | nil => cases savesOk; exact stored
    | cons entity rest ih =>
      rw [List.foldlM_cons] at savesOk
      cases first : executeSave rt rows entity with
      | error error => rw [first] at savesOk; cases savesOk
      | ok next =>
        rw [first] at savesOk
        exact ih next (distinct_executeSave rt typ unique rows next entity stored first) savesOk
  have kept : (deletes.foldl (executeDelete rt) saved).Sublist saved := by
    clear ok savesOk savedDistinct
    induction deletes generalizing saved with
    | nil => exact .refl _
    | cons id rest ih => exact (ih _).trans List.filter_sublist
  exact ((kept.filter _).map _).nodup savedDistinct

/-- `commit_transaction` succeeds: the saves and the deletions are executed in some order in
which the `HashMap` and the `HashSet` yield them. -/
def Database.CommitsTo (rt : Runtime S) (db committed : Database S) : Prop :=
  ∃ tx rows saves deletes written, db.transaction = some tx ∧ db.conn = some rows ∧
    saves.Perm (rt.values tx.cache) ∧ deletes.Perm tx.deleted ∧
    executeIn rt saves deletes rows = .ok written ∧
    committed = { db with conn := some written }.setTransaction none

/-- The order `commit_transaction` meets is one of them. -/
theorem Database.commitsTo_of_commitTransaction (db committed : Database S)
    (engine : Option CryptoKeystoreError)
    (ok : db.commitTransaction rt engine = (.ok (), committed)) : db.CommitsTo rt committed := by
  obtain ⟨conn, slot, permits⟩ := db
  cases slot with
  | none => simp [commitTransaction] at ok
  | some tx =>
    cases conn with
    | none => simp [commitTransaction, KeystoreTransaction.commit] at ok
    | some rows =>
      have execute (written : List (Entity S)) (executes : tx.execute rt rows = .ok written)
          (after : (Database.mk (some written) (some tx) permits).setTransaction none =
            committed) : (Database.mk (some rows) (some tx) permits).CommitsTo rt committed :=
        ⟨tx, rows, _, _, written, rfl, rfl, .refl _, .refl _, executes, after.symm⟩
      simp only [commitTransaction, KeystoreTransaction.commit] at ok
      by_cases empty : tx.isEmpty = true
      · -- without operations no SQL transaction is started, and executing none changes nothing
        have nothing : tx.execute rt rows = .ok rows := by
          simp only [KeystoreTransaction.isEmpty, Bool.and_eq_true, List.isEmpty_iff] at empty
          have noValues : rt.values tx.cache = [] := by
            simpa [empty.1] using rt.perm tx.cache
          rw [KeystoreTransaction.execute, noValues, empty.2]
          rfl
        simp only [empty, if_true, Prod.mk.injEq, true_and] at ok
        exact execute rows nothing ok
      · cases engine with
        | some error => simp [empty] at ok
        | none =>
          cases executes : tx.execute rt rows with
          | error error => simp [empty, executes] at ok
          | ok written =>
            simp only [empty, Bool.false_eq_true, if_false, executes, Prod.mk.injEq,
              true_and] at ok
            exact execute written executes ok

/-! ### Reads through the database -/

variable {db : Database S} {tx : KeystoreTransaction S}

theorem Database.get_open {rows : List (Entity S)} (connected : db.conn = some rows)
    (opened : db.transaction = some tx) {id : EntityId} (found : id.typ.saveMode ≠ .upsertText) :
    db.get rt id = .ok (tx.read rt rows id) := by
  simp only [Database.get, opened, Option.bind_some, KeystoreTransaction.read]
  cases tx.getByEntityId id with
  | none => simp [Database.rows, connected, Except.map, storedRow, found]
  | some cached => rfl

theorem Database.get_idle {rows : List (Entity S)} (connected : db.conn = some rows)
    (idle : db.transaction = none) {id : EntityId} (found : id.typ.saveMode ≠ .upsertText) :
    db.get rt id = .ok (storedRow rt rows id) := by
  simp [Database.get, Database.rows, connected, idle, Except.map, storedRow, found]

theorem Database.loadAll_open (db : Database S) (rows : List (Entity S))
    (tx : KeystoreTransaction S) (connected : db.conn = some rows)
    (opened : db.transaction = some tx) (typ : EntityType) :
    db.loadAll rt typ = .ok (tx.findAll rt typ (ofType typ rows)) := by
  simp [Database.loadAll, Database.rows, connected, opened, bind, Except.bind, pure, Except.pure,
    ofType]

theorem Database.loadAll_idle {rows : List (Entity S)}
    (connected : db.conn = some rows) (idle : db.transaction = none) (typ : EntityType) :
    db.loadAll rt typ = .ok (ofType typ rows) := by
  simp [Database.loadAll, Database.rows, connected, idle, bind, Except.bind, pure, Except.pure,
    ofType]

/-- The answers of `get`, `load_all` and `count` for the entities of a collection agree. -/
structure SameAnswers (rt : Runtime S) (typ : EntityType) (db committed : Database S) : Prop where
  get : ∀ id : EntityId, id.typ = typ → db.get rt id = committed.get rt id
  loadAll : ∃ listed listedAfter, db.loadAll rt typ = .ok listed ∧
    committed.loadAll rt typ = .ok listedAfter ∧ ∀ e, e ∈ listed ↔ e ∈ listedAfter
  count : db.count rt typ = committed.count rt typ

/-- After the commit the row of an id is what a read through the transaction found. -/
theorem storedRow_of_upsert {rt : Runtime S} {rows written saves : List (Entity S)}
    {deletes : List EntityId} {id : EntityId} (keyed : tx.WellKeyed rt)
    (upsert : id.typ.saveMode = .upsert) (allSaves : saves.Perm (rt.values tx.cache))
    (allDeletes : deletes.Perm tx.deleted) (ok : executeIn rt saves deletes rows = .ok written) :
    storedRow rt written id = tx.read rt rows id := by
  -- the collections whose deletions take several rows or none are no upserts
  have byKey : DeletedByKey tx.deleted id := by
    refine ⟨fun pending => ?_, fun _ _ => ⟨fun identity => ?_, fun text => ?_⟩⟩
    · rw [pending] at upsert
      cases upsert
    · rw [identity] at upsert
      cases upsert
    · rw [text] at upsert
      cases upsert
  apply tx.storedRow_executeIn rt rows written saves deletes id keyed allSaves allDeletes byKey ?_ ok
  intro append
  rw [upsert] at append
  cases append

/-- **Overlay and commit agree.**  For a collection with a unique key whose `save` is an upsert,
after any writes into a fresh transaction, reads through the open transaction answer what they
answer once it is committed, in whatever order the commit executes the saves and the deletions. -/
theorem overlay_agrees_with_commit (rt : Runtime S) (typ : EntityType)
    (upsert : typ.saveMode = .upsert) (rows : List (Entity S)) (permits : Nat)
    (stored : DistinctKeys rt.fromEntity (ofType typ rows)) (writes : List (Write S))
    (committed : Database S)
    (commits : ((Database.mk (some rows) (some .new) permits).written rt writes).CommitsTo rt
      committed) :
    SameAnswers rt typ ((Database.mk (some rows) (some .new) permits).written rt writes)
      committed := by
  obtain ⟨tx, stored', saves, deletes, written, opened, connected, allSaves, allDeletes, ok,
    after⟩ := commits
  rw [Database.written_new] at opened connected after ⊢
  obtain rfl : KeystoreTransaction.ofWrites rt writes = tx := Option.some.inj opened
  obtain rfl : rows = stored' := Option.some.inj connected
  have keyed := KeystoreTransaction.wellKeyed_ofWrites rt writes
  have connectedAfter : committed.conn = some written := by rw [after]; rfl
  have idleAfter : committed.transaction = none := by rw [after]; rfl
  have readAfter (id : EntityId) (isTyp : id.typ = typ) :
      storedRow rt written id = (KeystoreTransaction.ofWrites rt writes).read rt rows id :=
    storedRow_of_upsert keyed (isTyp ▸ upsert) allSaves
      allDeletes ok
  have storedAfter := distinct_executeIn rt typ (by simp [upsert]) saves rows written deletes stored
    ok
  have same (e : Entity S) :
      e ∈ (KeystoreTransaction.ofWrites rt writes).findAll rt typ (ofType typ rows) ↔
        e ∈ ofType typ written := by
    rw [KeystoreTransaction.mem_findAll rt _ typ rows keyed stored, mem_ofType, and_comm]
    refine and_congr_left fun isTyp => ?_
    rw [← readAfter (rt.fromEntity e) isTyp, storedRow_iff rt typ written storedAfter e isTyp]
  have listed := Database.loadAll_open rt _ rows _ connected opened typ
  have listedAfter := Database.loadAll_idle rt connectedAfter idleAfter typ
  refine ⟨?_, ⟨_, _, listed, listedAfter, same⟩, ?_⟩
  · intro id isTyp
    have found : id.typ.saveMode ≠ .upsertText := by simp [isTyp, upsert]
    rw [Database.get_open rt connected opened found, ← readAfter id isTyp,
      Database.get_idle rt connectedAfter idleAfter found]
  · have equallyMany := length_eq_of_mem_iff (Entity.primaryKey rt.toHashes)
      (KeystoreTransaction.findAll_distinct rt _ typ (ofType typ rows))
      ((distinct_primaryKey rt fun e member => ((mem_ofType typ written e).mp member).2).mpr
        storedAfter) same
    rw [Database.count, Database.count, listed, listedAfter, Except.map, Except.map, equallyMany]

/-- Two stored groups, of which one is saved anew and the other one removed. -/
def sampleGroups : List (Entity Unit) :=
  [.persistedMlsGroup [1] () none, .persistedMlsGroup [2] () (some [1])]

def sampleWrites : List (Write Unit) :=
  [.remove ⟨.persistedMlsGroup, [1]⟩, .save (.persistedMlsGroup [1] () (some [3])),
    .save (.plain .consumerData [0] [7]), .remove ⟨.persistedMlsGroup, [2]⟩]

theorem overlay_agrees_with_commit_sample :
    SameAnswers (.newestFirst id) .persistedMlsGroup
      ((Database.mk (some sampleGroups) (some .new) 0).written (.newestFirst id) sampleWrites)
      (((Database.mk (some sampleGroups) (some .new) 0).written (.newestFirst id)
        sampleWrites).commitTransaction (.newestFirst id) none).2 :=
  overlay_agrees_with_commit (.newestFirst id) .persistedMlsGroup rfl sampleGroups 0 (by decide)
    sampleWrites _ (Database.commitsTo_of_commitTransaction _ _ _ none rfl)

end CoreCrypto.Keystore
