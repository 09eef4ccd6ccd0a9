import CoreCrypto.Keystore.Overlay

/-!
# Collections that are only inserted into

Credentials, Proteus prekeys and enrollments are saved by a plain `INSERT`, which fails on a
key that is taken.  A transaction remembers one write for each id, so a removal followed by a
save of the same id is committed as the save alone, and meets the row that was to be removed.
-/

namespace CoreCrypto.Keystore

open CoreCrypto.Library

variable {S : Type} (rt : Runtime S)

/-- The write executed against the stored rows at once. -/
def Write.execute (rt : Runtime S) (rows : List (Entity S)) :
    Write S → Except CryptoKeystoreError (List (Entity S))
  | save entity => executeSave rt rows entity
  | remove id => .ok (executeDelete rt rows id)

/-- The writes executed one by one. -/
def oneByOne (rt : Runtime S) (rows : List (Entity S)) (writes : List (Write S)) :
    Except CryptoKeystoreError (List (Entity S)) :=
  writes.foldlM (Write.execute rt) rows

/-- All writes are to collections that are only inserted into. -/
def InsertOnly (rt : Runtime S) (writes : List (Write S)) : Prop :=
  ∀ write ∈ writes, (write.id rt).typ.saveMode = .insert

/-! ### Plain inserts and deletions by key -/

/-- No row has the id of the entity. -/
def Vacant (rt : Runtime S) (rows : List (Entity S)) (entity : Entity S) : Prop :=
  ∀ row ∈ rows, rt.fromEntity row ≠ rt.fromEntity entity

theorem executeSave_insert (rows saved : List (Entity S)) (entity : Entity S)
    (insert : entity.typ.saveMode = .insert) :
    executeSave rt rows entity = .ok saved ↔ Vacant rt rows entity ∧ saved = rows ++ [entity] := by
  rw [executeSave, insert]
  simp only
  split
  next taken =>
    obtain ⟨row, member, same⟩ := List.any_eq_true.mp taken
    rw [decide_eq_true_eq] at same
    simpa using fun vacant : Vacant rt rows entity => absurd same (vacant row member)
  next free =>
    have vacant : Vacant rt rows entity := by
      intro row member same
      exact free (List.any_eq_true.mpr ⟨row, member, by simpa using same⟩)
    simp [vacant, eq_comm]

theorem selects_insert (id : EntityId) (insert : id.typ.saveMode = .insert)
    (entity : Entity S) : id.selects rt entity = decide (rt.fromEntity entity = id) := by
  unfold EntityId.selects
  split
  next typ => rw [typ] at insert; cases insert
  next typ => rw [typ] at insert; cases insert
  next => simp [insert]

/-- The saves go through if none of their ids is taken, and then they only add rows. -/
theorem saves_insert {rt : Runtime S} {saves : List (Entity S)} (rows saved : List (Entity S))
    (insert : ∀ e ∈ saves, e.typ.saveMode = .insert) (distinct : DistinctKeys rt.fromEntity saves) :
    saves.foldlM (executeSave rt) rows = .ok saved ↔
      (∀ e ∈ saves, Vacant rt rows e) ∧ saved = rows ++ saves := by
  induction saves generalizing rows with
  | nil => simp [pure, Except.pure, eq_comm]
  | cons entity rest ih =>
    have insertHead := insert entity List.mem_cons_self
    have insertRest : ∀ e ∈ rest, e.typ.saveMode = .insert :=
      fun e member => insert e (List.mem_cons_of_mem _ member)
    rw [DistinctKeys, List.map_cons, List.nodup_cons] at distinct
    have others (e : Entity S) (member : e ∈ rest) : rt.fromEntity entity ≠ rt.fromEntity e :=
      fun same => distinct.1 (same ▸ List.mem_map_of_mem member)
    rw [List.foldlM_cons]
    cases first : executeSave rt rows entity with
    | error error =>
      have taken : ¬ Vacant rt rows entity := by
        intro vacant
        have ok := (executeSave_insert rt rows _ entity insertHead).mpr ⟨vacant, rfl⟩
        rw [first] at ok
        cases ok
      simp [bind, Except.bind, taken]
    | ok next =>
      obtain ⟨vacant, rfl⟩ := (executeSave_insert rt rows next entity insertHead).mp first
      simp only [bind, Except.bind]
      rw [ih _ insertRest distinct.2, List.append_assoc, List.singleton_append]
      refine and_congr_left fun _ => ?_
      simp only [List.mem_cons, forall_eq_or_imp, vacant, true_and]
      refine forall_congr' fun e => forall_congr' fun member => ?_
      -- a later save only meets the rows that were there before
      simp only [Vacant, List.mem_append, List.mem_singleton, or_imp, forall_and, forall_eq]
      exact and_iff_left (others e member)

theorem deletes_insert {deletes : List EntityId} (rows : List (Entity S))
    (insert : ∀ id ∈ deletes, id.typ.saveMode = .insert) :
    deletes.foldl (executeDelete rt) rows = rows.filter (fun e => rt.fromEntity e ∉ deletes) := by
  induction deletes generalizing rows with
  | nil => simp
  | cons id rest ih =>
    rw [List.foldl_cons, ih _ fun d member => insert d (List.mem_cons_of_mem _ member),
      executeDelete, List.filter_filter]
    congr 1
    funext e
    simp [selects_insert rt id (insert id List.mem_cons_self), not_or, Bool.and_comm]

/-! ### One by one -/

theorem lastWrite_append_isNone (writes : List (Write S)) (write : Write S) (id : EntityId) :
    (lastWrite rt (writes ++ [write]) id).isNone =
      ((lastWrite rt writes id).isNone && decide (id ≠ write.id rt)) := by
  by_cases same : write.id rt = id
  · subst same
    rw [lastWrite, lastBy_append_self]
    simp
  · rw [lastWrite, lastBy_append_other _ _ same, ← lastWrite]
    simp [Ne.symm same]

/-- The stored rows that no write was about, followed by the cached entities. -/
def overlaid (rt : Runtime S) (rows : List (Entity S)) (writes : List (Write S)) :
    List (Entity S) :=
  rows.filter (fun e => (lastWrite rt writes (rt.fromEntity e)).isNone) ++
    (KeystoreTransaction.ofWrites rt writes).cache.entries.map Sigma.snd

theorem overlaid_save (rows : List (Entity S)) (writes : List (Write S))
    (entity : Entity S) (vacant : Vacant rt (overlaid rt rows writes) entity) :
    (overlaid rt rows (writes ++ [.save entity])).Perm (overlaid rt rows writes ++ [entity]) := by
  have keyed := KeystoreTransaction.wellKeyed_ofWrites rt writes
  have others (shown : List (Entity S)) (among : shown ⊆ overlaid rt rows writes) :
      shown.filter (fun e => rt.fromEntity e ≠ rt.fromEntity entity) = shown := by
    rw [List.filter_eq_self]
    intro e member
    simpa using vacant e (among member)
  have stored : rows.filter (fun e => (lastWrite rt (writes ++ [.save entity])
      (rt.fromEntity e)).isNone) =
        rows.filter (fun e => (lastWrite rt writes (rt.fromEntity e)).isNone) := by
    rw [← others (rows.filter fun e => (lastWrite rt writes (rt.fromEntity e)).isNone)
      (List.subset_append_left _ _), List.filter_filter]
    congr 1
    funext e
    rw [lastWrite_append_isNone, Bool.and_comm]
    rfl
  have cached : (KeystoreTransaction.ofWrites rt (writes ++ [.save entity])).cache.entries.map
      Sigma.snd = entity :: (KeystoreTransaction.ofWrites rt writes).cache.entries.map Sigma.snd := by
    rw [KeystoreTransaction.ofWrites_append, Write.buffer, KeystoreTransaction.save,
      AList.entries_insert, List.map_cons, map_snd_kerase rt _ _ keyed
        (KeystoreTransaction.ofWrites rt writes).cache.nodupKeys,
      others _ (List.subset_append_right _ _)]
  rw [overlaid, stored, cached]
  exact List.perm_middle.trans (List.perm_append_singleton _ _).symm

theorem overlaid_remove (rows : List (Entity S)) (writes : List (Write S)) (id : EntityId) :
    overlaid rt rows (writes ++ [.remove id]) =
      (overlaid rt rows writes).filter (fun e => rt.fromEntity e ≠ id) := by
  have keyed := KeystoreTransaction.wellKeyed_ofWrites rt writes
  rw [overlaid, overlaid, KeystoreTransaction.ofWrites_append, List.filter_append,
    List.filter_filter]
  congr 1
  · congr 1
    funext e
    rw [lastWrite_append_isNone, Bool.and_comm]
    rfl
  · exact map_snd_kerase rt id _ keyed (KeystoreTransaction.ofWrites rt writes).cache.nodupKeys

/-- One by one the writes make of the rows what the transaction shows. -/
theorem oneByOne_perm (rows table : List (Entity S)) (writes : List (Write S))
    (insertOnly : InsertOnly rt writes) (ok : oneByOne rt rows writes = .ok table) :
    table.Perm (overlaid rt rows writes) := by
  induction writes using List.reverseRecOn generalizing table with
  | nil =>
    cases ok
    simp [overlaid, lastWrite, KeystoreTransaction.ofWrites, KeystoreTransaction.new]
  | append_singleton earlier write ih =>
    have insertEarlier : InsertOnly rt earlier :=
      fun w member => insertOnly w (List.mem_append_left _ member)
    have insertLast := insertOnly write (List.mem_append_right _ List.mem_cons_self)
    rw [oneByOne, List.foldlM_append] at ok
    cases first : oneByOne rt rows earlier with
    | error error => rw [← oneByOne, first] at ok; cases ok
    | ok middle =>
      have soFar := ih middle insertEarlier first
      rw [← oneByOne, first] at ok
      have last : write.execute rt middle = .ok table := by
        simp only [List.foldlM_cons, List.foldlM_nil, bind_pure] at ok
        exact ok
      cases write with
      | save entity =>
        obtain ⟨vacant, rfl⟩ := (executeSave_insert rt middle table entity insertLast).mp last
        have free : Vacant rt (overlaid rt rows earlier) entity :=
          fun e member => vacant e (soFar.mem_iff.mpr member)
        exact (soFar.append_right _).trans (overlaid_save rt rows earlier entity free).symm
      | remove id =>
        cases last
        rw [overlaid_remove, executeDelete]
        simp only [selects_insert rt id insertLast, decide_not]
        exact soFar.filter _

/-! ### The commit -/

theorem KeystoreTransaction.mem_values_ofWrites (writes : List (Write S)) (entity : Entity S) :
    entity ∈ rt.values (ofWrites rt writes).cache ↔
      lastWrite rt writes (rt.fromEntity entity) = some (.save entity) := by
  have keyed := wellKeyed_ofWrites rt writes
  have value (id : EntityId) : (lastWrite rt writes id).bind Write.value = some entity ↔
      lastWrite rt writes id = some (.save entity) := by
    cases lastWrite rt writes id with
    | none => simp
    | some write => cases write <;> simp [Write.value]
  rw [mem_values, ← value, ← lookup_ofWrites]
  constructor
  · rintro ⟨id, found⟩
    rwa [lookup_id keyed found]
  · intro found
    exact ⟨_, found⟩

/-- **Insert-only commits.**  Suppose the writes go through one by one.  Then the commit, in
whatever order it executes the saves and the deletions, succeeds with the same table if and only
if no stored row has a save as the last write to its id. -/
theorem insert_commit_iff_no_stored_id_saved_last (rt : Runtime S) (rows table : List (Entity S))
    (writes : List (Write S)) (insertOnly : InsertOnly rt writes)
    (inOrder : oneByOne rt rows writes = .ok table) (saves : List (Entity S))
    (deletes : List EntityId)
    (allSaves : saves.Perm (rt.values (KeystoreTransaction.ofWrites rt writes).cache))
    (allDeletes : deletes.Perm (KeystoreTransaction.ofWrites rt writes).deleted) :
    (∃ written, executeIn rt saves deletes rows = .ok written ∧ written.Perm table) ↔
      ∀ row ∈ rows, ∀ entity, lastWrite rt writes (rt.fromEntity row) ≠ some (.save entity) := by
  have keyed := KeystoreTransaction.wellKeyed_ofWrites rt writes
  have saved (e : Entity S) :
      e ∈ saves ↔ lastWrite rt writes (rt.fromEntity e) = some (.save e) :=
    allSaves.mem_iff.trans (KeystoreTransaction.mem_values_ofWrites rt writes e)
  have deleted (id : EntityId) : id ∈ deletes ↔ lastWrite rt writes id = some (.remove id) :=
    allDeletes.mem_iff.trans (KeystoreTransaction.mem_deleted_ofWrites rt writes id)
  have insertSaves (e : Entity S) (member : e ∈ saves) : e.typ.saveMode = .insert :=
    insertOnly _ (mem_of_lastBy _ ((saved e).mp member)).1
  have insertDeletes (id : EntityId) (member : id ∈ deletes) : id.typ.saveMode = .insert :=
    insertOnly _ (mem_of_lastBy _ ((deleted id).mp member)).1
  have distinct : DistinctKeys rt.fromEntity saves :=
    (allSaves.map rt.fromEntity).nodup_iff.mpr (KeystoreTransaction.values_nodup rt _ keyed)
  constructor
  · rintro ⟨written, ok, -⟩ row member entity last
    obtain ⟨_, savesOk, -⟩ := executeIn_eq_ok ok
    have sameId : rt.fromEntity entity = rt.fromEntity row := (mem_of_lastBy _ last).2
    have inSaves : entity ∈ saves := (saved entity).mpr (sameId ▸ last)
    exact ((saves_insert rows _ insertSaves distinct).mp savesOk).1 entity inSaves row
      member sameId.symm
  · intro notSaved
    have vacant (e : Entity S) (member : e ∈ saves) : Vacant rt rows e :=
      fun row inRows same => notSaved row inRows e (same ▸ (saved e).mp member)
    have savesOk := (saves_insert rows _ insertSaves distinct).mpr ⟨vacant, rfl⟩
    refine ⟨deletes.foldl (executeDelete rt) (rows ++ saves), ?_, ?_⟩
    · rw [executeIn, savesOk]
      rfl
    · have kept : rows.filter (fun e => rt.fromEntity e ∉ deletes) =
          rows.filter (fun e => (lastWrite rt writes (rt.fromEntity e)).isNone) := by
        apply List.filter_congr
        intro row member
        cases last : lastWrite rt writes (rt.fromEntity row) with
        | none => simp [deleted, last]
        | some write =>
          cases write with
          | save entity => exact absurd last (notSaved row member entity)
          | remove id =>
            have sameId : id = rt.fromEntity row := (mem_of_lastBy _ last).2
            simp [deleted, last, sameId]
      have notDeleted : saves.filter (fun e => rt.fromEntity e ∉ deletes) = saves := by
        rw [List.filter_eq_self]
        intro e member
        simp [deleted, (saved e).mp member]
      rw [deletes_insert rt _ insertDeletes, List.filter_append, kept, notDeleted]
      refine List.Perm.trans ?_ (oneByOne_perm rt rows table writes insertOnly inOrder).symm
      exact (allSaves.trans (rt.perm _)).append_left _

def sampleCredential (credential : Bytes) : Entity Unit :=
  .storedCredential ⟨[1], credential, 0, 1, [4], [5]⟩

def samplePrekey (id prekey : UInt8) : Entity Unit :=
  .plain .proteusPrekey [id] [prekey]

/-- One of two stored prekeys is removed, and a third one is saved, removed and saved anew. -/
theorem insert_commit_iff_no_stored_id_saved_last_sample :
    ∃ written, executeIn (.newestFirst id) [samplePrekey 7 6] [⟨.plain .proteusPrekey, [9]⟩]
        [samplePrekey 8 8, samplePrekey 9 9] = .ok written ∧
      written.Perm [samplePrekey 8 8, samplePrekey 7 6] :=
  (insert_commit_iff_no_stored_id_saved_last (.newestFirst id) _ _
    [.remove ⟨.plain .proteusPrekey, [9]⟩, .save (samplePrekey 7 7),
      .remove ⟨.plain .proteusPrekey, [7]⟩, .save (samplePrekey 7 6)]
    (by simp [InsertOnly, Write.id, samplePrekey, Entity.typ, EntityType.saveMode]) rfl _ _ (.refl _)
    (.refl _)).mpr
    (by simp [lastWrite, lastBy, Write.id, Runtime.fromEntity, samplePrekey, Entity.typ,
      Entity.primaryKey])

/-- A stored credential is removed and the credential with the same key is saved: one by one the
row is replaced, but the commit fails on the key. -/
theorem replaced_credential_fails_to_commit :
    oneByOne (.newestFirst id) [sampleCredential [2]]
        [.remove ⟨.storedCredential, [4]⟩, .save (sampleCredential [3])] =
      .ok [sampleCredential [3]] ∧
    (KeystoreTransaction.ofWrites (.newestFirst id)
        [.remove ⟨.storedCredential, [4]⟩, .save (sampleCredential [3])]).commit
      (.newestFirst id) (some [sampleCredential [2]]) none = .error (.rusqliteError 2067) :=
  ⟨rfl, rfl⟩

end CoreCrypto.Keystore
