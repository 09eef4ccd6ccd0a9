import CoreCrypto.Keystore.Database

/-!
# Reading by key before and after a commit

A read by key through the open transaction answers what it answers after the commit, for every
collection with a unique key.  A Proteus identity has none and is read as the first row.
-/

namespace CoreCrypto.Keystore

variable {S : Type} {rt : Runtime S}

/-- The stored row of an id. -/
def storedRow (rt : Runtime S) (rows : List (Entity S)) (id : EntityId) : Option (Entity S) :=
  rows.find? (fun e => rt.fromEntity e = id)

/-- The row of an id as read through a transaction. -/
def KeystoreTransaction.read (rt : Runtime S) (tx : KeystoreTransaction S)
    (rows : List (Entity S)) (id : EntityId) : Option (Entity S) :=
  (tx.getByEntityId id).getD (storedRow rt rows id)

/-- Every cached entity is filed under its own id. -/
def KeystoreTransaction.WellKeyed (rt : Runtime S) (tx : KeystoreTransaction S) : Prop :=
  ∀ e ∈ tx.cache.entries, rt.fromEntity e.2 = e.1

theorem storedRow_id {rows : List (Entity S)} {id : EntityId} {entity : Entity S}
    (found : storedRow rt rows id = some entity) : rt.fromEntity entity = id := by
  simpa using List.find?_some found

/-! ### Saves -/

theorem storedRow_append (rt : Runtime S) (rows : List (Entity S)) (entity : Entity S)
    (id : EntityId) :
    storedRow rt (rows ++ [entity]) id =
      (storedRow rt rows id).or (if rt.fromEntity entity = id then some entity else none) := by
  simp only [storedRow, List.find?_append, List.find?_singleton, decide_eq_true_eq]

theorem storedRow_filter (rows : List (Entity S)) {kept : Entity S → Bool}
    {id : EntityId} (all : ∀ e, rt.fromEntity e = id → kept e = true) :
    storedRow rt (rows.filter kept) id = storedRow rt rows id := by
  rw [storedRow, List.find?_filter, storedRow]
  congr 1
  funext e
  by_cases same : rt.fromEntity e = id
  · simp [same, all e same]
  · simp [same]

theorem storedRow_filter_none (rows : List (Entity S)) {kept : Entity S → Bool}
    {id : EntityId} (dropped : ∀ e, rt.fromEntity e = id → kept e = false) :
    storedRow rt (rows.filter kept) id = none := by
  rw [storedRow, List.find?_filter, List.find?_eq_none]
  intro e _
  by_cases same : rt.fromEntity e = id
  · simp [same, dropped e same]
  · simp [same]

/-- A save that succeeds appends a row, in place of those of its id if the key is unique. -/
theorem executeSave_cases {rows saved : List (Entity S)} {entity : Entity S}
    (ok : executeSave rt rows entity = .ok saved) :
    entity.typ.saveMode = .append ∧ saved = rows ++ [entity] ∨
      entity.typ.saveMode ≠ .append ∧
        saved = rows.filter (fun e => rt.fromEntity e ≠ rt.fromEntity entity) ++ [entity] := by
  unfold executeSave at ok
  split at ok
  next mode =>
    split at ok
    next => cases ok
    next free =>
      have others : ∀ e ∈ rows, decide (rt.fromEntity e ≠ rt.fromEntity entity) = true :=
        fun e member => decide_eq_true fun taken =>
          free (List.any_eq_true.mpr ⟨e, member, decide_eq_true taken⟩)
      rw [List.filter_eq_self.mpr others]
      exact .inr ⟨by simp [mode], (Except.ok.inj ok).symm⟩
  next mode => exact .inl ⟨mode, (Except.ok.inj ok).symm⟩
  all_goals
    next mode => exact .inr ⟨by simp [mode], (Except.ok.inj ok).symm⟩

theorem storedRow_executeSave_other (rt : Runtime S) (rows saved : List (Entity S))
    (entity : Entity S) (id : EntityId) (other : rt.fromEntity entity ≠ id)
    (ok : executeSave rt rows entity = .ok saved) :
    storedRow rt saved id = storedRow rt rows id := by
  rcases executeSave_cases ok with ⟨-, rfl⟩ | ⟨-, rfl⟩
  · rw [storedRow_append, if_neg other, Option.or_none]
  · rw [storedRow_append, if_neg other, Option.or_none]
    apply storedRow_filter
    intro e same
    simpa [same] using other.symm

/-- A saved entity is the row of its id; without a unique key only if there was no row. -/
theorem storedRow_executeSave_self (rt : Runtime S) (rows saved : List (Entity S))
    (entity : Entity S)
    (room : entity.typ.saveMode = .append → storedRow rt rows (rt.fromEntity entity) = none)
    (ok : executeSave rt rows entity = .ok saved) :
    storedRow rt saved (rt.fromEntity entity) = some entity := by
  rcases executeSave_cases ok with ⟨append, rfl⟩ | ⟨-, rfl⟩
  · rw [storedRow_append, room append, if_pos rfl, Option.none_or]
  · rw [storedRow_append, if_pos rfl, storedRow_filter_none, Option.none_or]
    intro e same
    simpa using same

theorem storedRow_saves_other (rt : Runtime S) (id : EntityId) (entities : List (Entity S))
    (rows saved : List (Entity S)) (others : ∀ e ∈ entities, rt.fromEntity e ≠ id)
    (ok : entities.foldlM (executeSave rt) rows = .ok saved) :
    storedRow rt saved id = storedRow rt rows id := by
  induction entities generalizing rows with
  | nil => cases ok; rfl
  | cons entity rest ih =>
    rw [List.foldlM_cons] at ok
    cases first : executeSave rt rows entity with
    | error error => rw [first] at ok; cases ok
    | ok next =>
      rw [first] at ok
      rw [ih next (fun e member => others e (List.mem_cons_of_mem _ member)) ok]
      exact storedRow_executeSave_other rt rows next entity id (others entity List.mem_cons_self)
        first

theorem storedRow_saves_self (rt : Runtime S) (entity : Entity S) (entities : List (Entity S))
    (rows saved : List (Entity S)) (member : entity ∈ entities)
    (distinct : (entities.map rt.fromEntity).Nodup)
    (room : entity.typ.saveMode = .append → storedRow rt rows (rt.fromEntity entity) = none)
    (ok : entities.foldlM (executeSave rt) rows = .ok saved) :
    storedRow rt saved (rt.fromEntity entity) = some entity := by
  induction entities generalizing rows with
  | nil => cases member
  | cons first rest ih =>
    rw [List.map_cons, List.nodup_cons] at distinct
    rw [List.foldlM_cons] at ok
    cases written : executeSave rt rows first with
    | error error => rw [written] at ok; cases ok
    | ok next =>
      rw [written] at ok
      rcases List.mem_cons.mp member with rfl | later
      · -- no later save has this id
        rw [storedRow_saves_other rt _ rest next saved ?_ ok]
        · exact storedRow_executeSave_self rt rows next entity room written
        · intro e inRest same
          exact distinct.1 (same ▸ List.mem_map_of_mem inRest)
      · apply ih next later distinct.2 ?_ ok
        intro mode
        rw [storedRow_executeSave_other rt rows next first _ ?_ written]
        · exact room mode
        · intro same
          exact distinct.1 (same ▸ List.mem_map_of_mem later)

/-- Where keys are not unique, the first row of an id stays the first. -/
theorem storedRow_saves_append {id : EntityId} {entities rows saved : List (Entity S)}
    {row : Entity S} (append : id.typ.saveMode = .append) (stored : storedRow rt rows id = some row)
    (ok : entities.foldlM (executeSave rt) rows = .ok saved) : storedRow rt saved id = some row := by
  induction entities generalizing rows with
  | nil => cases ok; exact stored
  | cons entity rest ih =>
    rw [List.foldlM_cons] at ok
    cases first : executeSave rt rows entity with
    | error error => rw [first] at ok; cases ok
    | ok next =>
      rw [first] at ok
      refine ih ?_ ok
      rcases executeSave_cases first with ⟨-, rfl⟩ | ⟨unique, -⟩
      · rw [storedRow_append, stored, Option.some_or]
      · rw [storedRow_executeSave_other rt rows next entity id ?_ first, stored]
        rintro rfl
        exact unique append

/-! ### Deletions -/

/-- No deletion stands for several rows among which is one of the id, and none of the id for no
row. -/
def DeletedByKey (deleted : List EntityId) (id : EntityId) : Prop :=
  id.typ ≠ .mlsPendingMessage ∧
    ∀ d ∈ deleted, (id.typ = .proteusIdentity → d.typ ≠ .proteusIdentity) ∧
      (id.typ.saveMode = .upsertText → d ≠ id)

theorem selects_eq {id d : EntityId} {entity : Entity S} (same : rt.fromEntity entity = id)
    (byKey : DeletedByKey [d] id) : d.selects rt entity = decide (id = d) := by
  have typ : entity.typ = id.typ := by rw [← same, Runtime.fromEntity_typ]
  have different {t : EntityType} (dTyp : d.typ = t) (idTyp : id.typ ≠ t) : id ≠ d := by
    rintro rfl
    exact idTyp dTyp
  unfold EntityId.selects
  split
  next dTyp =>
    -- a pending message is no row of this id
    have noMessage : entity.foreignId? = none := by
      cases entity with
      | mlsPendingMessage foreignId message => exact absurd typ.symm byKey.1
      | _ => rfl
    simp [noMessage, different dTyp byKey.1]
  next dTyp =>
    have idTyp : id.typ ≠ .proteusIdentity :=
      fun h => (byKey.2 d List.mem_cons_self).1 h dTyp
    simp [typ, idTyp, different dTyp idTyp]
  next =>
    rw [same, decide_eq_decide]
    refine ⟨And.right, ?_⟩
    rintro rfl
    exact ⟨fun text => (byKey.2 id List.mem_cons_self).2 text rfl, rfl⟩

theorem storedRow_deletes (rt : Runtime S) {id : EntityId} {deleted : List EntityId}
    (rows : List (Entity S)) (byKey : DeletedByKey deleted id) :
    storedRow rt (deleted.foldl (executeDelete rt) rows) id =
      if id ∈ deleted then none else storedRow rt rows id := by
  induction deleted generalizing rows with
  | nil => simp
  | cons d rest ih =>
    have head : DeletedByKey [d] id := by
      refine ⟨byKey.1, fun d' member => byKey.2 d' ?_⟩
      rw [List.mem_singleton.mp member]
      exact List.mem_cons_self
    have tail : DeletedByKey rest id :=
      ⟨byKey.1, fun d' member => byKey.2 d' (List.mem_cons_of_mem _ member)⟩
    rw [List.foldl_cons, ih _ tail]
    by_cases same : id = d
    · have dropped : storedRow rt (executeDelete rt rows d) id = none := by
        apply storedRow_filter_none
        intro e eId
        simp [selects_eq eId head, same]
      have member : id ∈ d :: rest := same ▸ List.mem_cons_self
      rw [dropped, if_pos member, ite_self]
    · have kept : storedRow rt (executeDelete rt rows d) id = storedRow rt rows id := by
        apply storedRow_filter
        intro e eId
        simp [selects_eq eId head, same]
      rw [kept]
      simp only [List.mem_cons, same, false_or]

/-! ### A whole commit -/

theorem KeystoreTransaction.values_nodup (rt : Runtime S) (tx : KeystoreTransaction S)
    (keyed : tx.WellKeyed rt) : ((rt.values tx.cache).map rt.fromEntity).Nodup := by
  have ids : (tx.cache.entries.map Sigma.snd).map rt.fromEntity = tx.cache.keys := by
    rw [List.map_map]
    exact List.map_congr_left keyed
  refine ((rt.perm tx.cache).map rt.fromEntity).nodup_iff.mpr ?_
  rw [ids]
  exact tx.cache.keys_nodup

theorem KeystoreTransaction.mem_values (rt : Runtime S) (tx : KeystoreTransaction S)
    (entity : Entity S) : entity ∈ rt.values tx.cache ↔ ∃ id, tx.cache.lookup id = some entity := by
  rw [(rt.perm tx.cache).mem_iff, List.mem_map]
  constructor
  · rintro ⟨⟨id, e⟩, member, rfl⟩
    exact ⟨id, AList.mem_lookup_iff.mpr member⟩
  · rintro ⟨id, found⟩
    exact ⟨⟨id, entity⟩, AList.mem_lookup_iff.mp found, rfl⟩

theorem KeystoreTransaction.lookup_id {tx : KeystoreTransaction S}
    (keyed : tx.WellKeyed rt) {id : EntityId} {entity : Entity S}
    (found : tx.cache.lookup id = some entity) : rt.fromEntity entity = id :=
  keyed ⟨id, entity⟩ (AList.mem_lookup_iff.mp found)

/-- Executing the saves and the deletions in the given order. -/
def executeIn (rt : Runtime S) (saves : List (Entity S)) (deletes : List EntityId)
    (rows : List (Entity S)) : Except CryptoKeystoreError (List (Entity S)) := do
  let saved ← saves.foldlM (executeSave rt) rows
  return deletes.foldl (executeDelete rt) saved

theorem executeIn_eq_ok {saves rows written : List (Entity S)}
    {deletes : List EntityId} (ok : executeIn rt saves deletes rows = .ok written) :
    ∃ saved, saves.foldlM (executeSave rt) rows = .ok saved ∧
      deletes.foldl (executeDelete rt) saved = written := by
  unfold executeIn at ok
  cases first : saves.foldlM (executeSave rt) rows with
  | error error => rw [first] at ok; cases ok
  | ok saved =>
    rw [first] at ok
    exact ⟨saved, rfl, Except.ok.inj ok⟩

theorem KeystoreTransaction.execute_eq (rt : Runtime S) (tx : KeystoreTransaction S)
    (rows : List (Entity S)) :
    tx.execute rt rows = executeIn rt (rt.values tx.cache) tx.deleted rows := rfl

/-- **Reads across a commit**, whatever the order in which the saves and the deletions are
executed. -/
theorem KeystoreTransaction.storedRow_executeIn (rt : Runtime S) (tx : KeystoreTransaction S)
    (rows written saves : List (Entity S)) (deletes : List EntityId) (id : EntityId)
    (keyed : tx.WellKeyed rt) (allSaves : saves.Perm (rt.values tx.cache))
    (allDeletes : deletes.Perm tx.deleted) (byKey : DeletedByKey tx.deleted id)
    (room : id.typ.saveMode = .append → tx.cache.lookup id = none ∨ storedRow rt rows id = none)
    (ok : executeIn rt saves deletes rows = .ok written) :
    storedRow rt written id = tx.read rt rows id := by
  obtain ⟨saved, savesOk, rfl⟩ := executeIn_eq_ok ok
  have byKey' : DeletedByKey deletes id :=
    ⟨byKey.1, fun d member => byKey.2 d (allDeletes.mem_iff.mp member)⟩
  have distinct : (saves.map rt.fromEntity).Nodup :=
    (allSaves.map rt.fromEntity).nodup_iff.mpr (tx.values_nodup rt keyed)
  rw [storedRow_deletes rt saved byKey', KeystoreTransaction.read,
    KeystoreTransaction.getByEntityId]
  simp only [allDeletes.mem_iff]
  split
  next => rfl
  next =>
    cases found : tx.cache.lookup id with
    | none =>
      apply storedRow_saves_other rt id _ rows saved ?_ savesOk
      intro e member same
      obtain ⟨id', found'⟩ := (tx.mem_values rt e).mp (allSaves.mem_iff.mp member)
      have : id' = id := by rw [← tx.lookup_id keyed found', same]
      rw [this, found] at found'
      cases found'
    | some entity =>
      have eId := tx.lookup_id keyed found
      have eTyp : entity.typ = id.typ := by rw [← eId, Runtime.fromEntity_typ]
      rw [← eId]
      apply storedRow_saves_self rt entity _ rows saved ?_ distinct ?_ savesOk
      · exact allSaves.mem_iff.mpr ((tx.mem_values rt entity).mpr ⟨id, found⟩)
      · intro mode
        rw [eTyp] at mode
        rcases room mode with absent | vacant
        · rw [absent] at found
          cases found
        · rwa [eId]

theorem KeystoreTransaction.storedRow_execute (rt : Runtime S) (tx : KeystoreTransaction S)
    (rows written : List (Entity S)) (id : EntityId) (keyed : tx.WellKeyed rt)
    (byKey : DeletedByKey tx.deleted id)
    (room : id.typ.saveMode = .append → tx.cache.lookup id = none ∨ storedRow rt rows id = none)
    (ok : tx.execute rt rows = .ok written) : storedRow rt written id = tx.read rt rows id :=
  tx.storedRow_executeIn rt rows written _ _ id keyed (.refl _) (.refl _) byKey room
    (tx.execute_eq rt rows ▸ ok)

/-- Without a unique key, a row that was stored already hides the one that is saved. -/
theorem KeystoreTransaction.storedRow_execute_append {tx : KeystoreTransaction S}
    {rows written : List (Entity S)} {id : EntityId} (keyed : tx.WellKeyed rt)
    (byKey : DeletedByKey tx.deleted id) (append : id.typ.saveMode = .append)
    (ok : tx.execute rt rows = .ok written) : storedRow rt written id = tx.read rt rows id ∨
      (storedRow rt written id).isSome ∧ storedRow rt written id = storedRow rt rows id := by
  by_cases room : tx.cache.lookup id = none ∨ storedRow rt rows id = none
  · exact .inl (tx.storedRow_execute rt rows written id keyed byKey (fun _ => room) ok)
  · simp only [not_or, ← ne_eq, Option.ne_none_iff_exists'] at room
    obtain ⟨⟨entity, cached⟩, row, stored⟩ := room
    obtain ⟨saved, savesOk, rfl⟩ := executeIn_eq_ok (tx.execute_eq rt rows ▸ ok)
    rw [storedRow_deletes rt saved byKey, storedRow_saves_append append stored savesOk, read,
      getByEntityId, cached, stored]
    split <;> simp

/-! ### Keeping the cache well keyed -/

theorem KeystoreTransaction.wellKeyed_new (rt : Runtime S) :
    (KeystoreTransaction.new : KeystoreTransaction S).WellKeyed rt := by
  intro e member
  cases member

theorem KeystoreTransaction.wellKeyed_save (rt : Runtime S) (tx : KeystoreTransaction S)
    (entity : Entity S) (keyed : tx.WellKeyed rt) : (tx.save rt entity).WellKeyed rt := by
  intro e member
  simp only [KeystoreTransaction.save, AList.entries_insert, List.mem_cons] at member
  rcases member with rfl | older
  · rfl
  · exact keyed e ((List.kerase_sublist _ _).mem older)

theorem KeystoreTransaction.wellKeyed_removeByEntityId (rt : Runtime S) (tx : KeystoreTransaction S)
    (id : EntityId) (keyed : tx.WellKeyed rt) : (tx.removeByEntityId id).WellKeyed rt :=
  fun e member => keyed e ((List.kerase_sublist _ _).mem member)

theorem KeystoreTransaction.wellKeyed_removePendingMessages (rt : Runtime S)
    (tx : KeystoreTransaction S) (conversationId : Bytes) (keyed : tx.WellKeyed rt) :
    (tx.removePendingMessagesByConversationId conversationId).WellKeyed rt :=
  fun e member => keyed e (List.mem_of_mem_filter member)

/-! ### Reads after a write to the transaction -/

@[simp] theorem KeystoreTransaction.read_new (rt : Runtime S) (rows : List (Entity S))
    (id : EntityId) :
    (KeystoreTransaction.new : KeystoreTransaction S).read rt rows id = storedRow rt rows id := by
  simp [KeystoreTransaction.read, KeystoreTransaction.getByEntityId, KeystoreTransaction.new]

@[simp] theorem KeystoreTransaction.read_save_self (rt : Runtime S) (tx : KeystoreTransaction S)
    (rows : List (Entity S)) (entity : Entity S) :
    (tx.save rt entity).read rt rows (rt.fromEntity entity) = some entity := by
  simp [KeystoreTransaction.read, KeystoreTransaction.getByEntityId, KeystoreTransaction.save]

theorem KeystoreTransaction.read_save_other (tx : KeystoreTransaction S) (rows : List (Entity S))
    {entity : Entity S} {id : EntityId} (other : id ≠ rt.fromEntity entity) :
    (tx.save rt entity).read rt rows id = tx.read rt rows id := by
  have same : id ∈ (tx.save rt entity).deleted ↔ id ∈ tx.deleted := by
    simp [KeystoreTransaction.save, other]
  simp only [KeystoreTransaction.read, KeystoreTransaction.getByEntityId, same]
  rw [KeystoreTransaction.save, AList.lookup_insert_ne other]

@[simp] theorem KeystoreTransaction.read_remove_self (rt : Runtime S) (tx : KeystoreTransaction S)
    (rows : List (Entity S)) (id : EntityId) : (tx.removeByEntityId id).read rt rows id = none := by
  simp [KeystoreTransaction.read, KeystoreTransaction.getByEntityId,
    KeystoreTransaction.removeByEntityId]

theorem KeystoreTransaction.read_remove_other (rt : Runtime S) (tx : KeystoreTransaction S)
    (rows : List (Entity S)) {removed id : EntityId} (other : id ≠ removed) :
    (tx.removeByEntityId removed).read rt rows id = tx.read rt rows id := by
  have same : id ∈ (tx.removeByEntityId removed).deleted ↔ id ∈ tx.deleted := by
    simp [KeystoreTransaction.removeByEntityId, other]
  simp only [KeystoreTransaction.read, KeystoreTransaction.getByEntityId, same]
  rw [KeystoreTransaction.removeByEntityId, AList.lookup_erase_ne other]

theorem KeystoreTransaction.read_removePendingMessages
    {tx : KeystoreTransaction S} (rows : List (Entity S)) (conversationId : Bytes) {id : EntityId}
    (keyed : tx.WellKeyed rt) (other : id.typ ≠ .mlsPendingMessage) :
    (tx.removePendingMessagesByConversationId conversationId).read rt rows id =
      tx.read rt rows id := by
  have different : id ≠ ⟨.mlsPendingMessage, conversationId⟩ := by
    rintro rfl
    exact other rfl
  have same : id ∈ (tx.removePendingMessagesByConversationId conversationId).deleted ↔
      id ∈ tx.deleted := by
    simp [KeystoreTransaction.removePendingMessagesByConversationId, different]
  have found : (tx.removePendingMessagesByConversationId conversationId).cache.lookup id =
      tx.cache.lookup id := by
    ext entity
    simp only [KeystoreTransaction.removePendingMessagesByConversationId, ← Option.mem_def,
      AList.mem_lookup_iff, List.mem_filter, and_iff_left_iff_imp]
    intro member
    -- an entity filed under this id is no pending message
    have typ : entity.typ = id.typ := congrArg EntityId.typ (keyed _ member)
    cases entity <;> simp_all [Entity.typ, Entity.foreignId?]
  simp only [KeystoreTransaction.read, KeystoreTransaction.getByEntityId, same, found]

end CoreCrypto.Keystore
