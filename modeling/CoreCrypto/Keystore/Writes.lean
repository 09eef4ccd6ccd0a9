import CoreCrypto.Keystore.Reads

/-!
# Writes of a transaction and the pending messages

`Writes` tells which ids the writes made to a transaction were about: reads under other ids
do not notice them.  Pending messages are not read by id but listed by conversation, and
deleted by conversation when the transaction is committed, so they have lemmas of their own.
-/

namespace CoreCrypto.Keystore

variable {S : Type} {rt : Runtime S}

/-- The second transaction is the first after saves and removals under ids with `p`. -/
inductive Writes (rt : Runtime S) (p : EntityId → Prop) (before : KeystoreTransaction S) :
    KeystoreTransaction S → Prop
  | refl : Writes rt p before before
  | save {tx : KeystoreTransaction S} (entity : Entity S) (allowed : p (rt.fromEntity entity))
      (earlier : Writes rt p before tx) : Writes rt p before (tx.save rt entity)
  | remove {tx : KeystoreTransaction S} (id : EntityId) (allowed : p id)
      (earlier : Writes rt p before tx) : Writes rt p before (tx.removeByEntityId id)

namespace Writes

variable {rt : Runtime S} {p q : EntityId → Prop} {before middle after : KeystoreTransaction S}

theorem trans (first : Writes rt p before middle) (second : Writes rt p middle after) :
    Writes rt p before after := by
  induction second with
  | refl => exact first
  | save entity allowed _ ih => exact .save entity allowed ih
  | remove id allowed _ ih => exact .remove id allowed ih

theorem mono (writes : Writes rt p before after) (wider : ∀ id, p id → q id) :
    Writes rt q before after := by
  induction writes with
  | refl => exact .refl
  | save entity allowed _ ih => exact .save entity (wider _ allowed) ih
  | remove id allowed _ ih => exact .remove id (wider _ allowed) ih

theorem read_eq (writes : Writes rt p before after) (rows : List (Entity S)) (id : EntityId)
    (other : ¬ p id) : after.read rt rows id = before.read rt rows id := by
  induction writes with
  | refl => rfl
  | save entity allowed _ ih =>
    rw [KeystoreTransaction.read_save_other _ rows, ih]
    rintro rfl
    exact other allowed
  | remove removed allowed _ ih =>
    rw [KeystoreTransaction.read_remove_other rt _ rows, ih]
    rintro rfl
    exact other allowed

theorem mem_deleted (writes : Writes rt p before after) (id : EntityId) (other : ¬ p id) :
    id ∈ after.deleted ↔ id ∈ before.deleted := by
  induction writes with
  | refl => rfl
  | save entity allowed _ ih =>
    have different : id ≠ rt.fromEntity entity := by
      rintro rfl
      exact other allowed
    simp [KeystoreTransaction.save, different, ih]
  | remove removed allowed _ ih =>
    have different : id ≠ removed := by
      rintro rfl
      exact other allowed
    simp [KeystoreTransaction.removeByEntityId, different, ih]

theorem wellKeyed (writes : Writes rt p before after) (keyed : before.WellKeyed rt) :
    after.WellKeyed rt := by
  induction writes with
  | refl => exact keyed
  | save entity _ _ ih => exact KeystoreTransaction.wellKeyed_save rt _ entity ih
  | remove id _ _ ih => exact KeystoreTransaction.wellKeyed_removeByEntityId rt _ id ih

end Writes

/-! ### Pending messages in the cache of a transaction -/

/-- The cached pending messages of a conversation. -/
def KeystoreTransaction.cachedPending (tx : KeystoreTransaction S) (conversationId : Bytes) :
    List (Entity S) :=
  (tx.cache.entries.map Sigma.snd).filter (fun e => e.foreignId? = some conversationId)

theorem Entity.typ_of_foreignId {entity : Entity S} {conversationId : Bytes}
    (foreign : entity.foreignId? = some conversationId) : entity.typ = .mlsPendingMessage := by
  cases entity <;> simp_all [Entity.foreignId?, Entity.typ]

theorem filter_kerase (kept : Entity S → Bool) (id : EntityId)
    (entries : List (Sigma (fun _ : EntityId => Entity S)))
    (dropped : ∀ e ∈ entries, e.1 = id → kept e.2 = false) :
    ((entries.kerase id).map Sigma.snd).filter kept = (entries.map Sigma.snd).filter kept := by
  induction entries with
  | nil => rfl
  | cons e rest ih =>
    by_cases same : id = e.1
    · rw [List.kerase_cons_eq same]
      simp [dropped e List.mem_cons_self same.symm]
    · rw [List.kerase_cons_ne same]
      have tail := ih (fun e member => dropped e (List.mem_cons_of_mem _ member))
      simp only [List.map_cons, List.filter_cons, tail]

theorem KeystoreTransaction.cachedPending_save {tx : KeystoreTransaction S} {entity : Entity S}
    (conversationId : Bytes) (keyed : tx.WellKeyed rt) (other : entity.typ ≠ .mlsPendingMessage) :
    (tx.save rt entity).cachedPending conversationId = tx.cachedPending conversationId := by
  have notForeign : entity.foreignId? ≠ some conversationId :=
    fun foreign => other (Entity.typ_of_foreignId foreign)
  have erased := filter_kerase (fun e => e.foreignId? = some conversationId)
    (rt.fromEntity entity) tx.cache.entries (fun e member same => by
      -- the entry that is replaced has the collection of the new one
      have typ : e.2.typ = entity.typ := by
        have key := keyed e member
        rw [same] at key
        simpa using congrArg EntityId.typ key
      simp only [decide_eq_false_iff_not]
      intro foreign
      exact other (typ ▸ Entity.typ_of_foreignId foreign))
  simp only [cachedPending, save, AList.entries_insert, List.map_cons, List.filter_cons,
    notForeign, decide_false, Bool.false_eq_true, if_false]
  exact erased

theorem KeystoreTransaction.cachedPending_remove {tx : KeystoreTransaction S} {id : EntityId}
    (conversationId : Bytes) (keyed : tx.WellKeyed rt) (other : id.typ ≠ .mlsPendingMessage) :
    (tx.removeByEntityId id).cachedPending conversationId = tx.cachedPending conversationId := by
  refine filter_kerase (fun e => e.foreignId? = some conversationId) id tx.cache.entries ?_
  intro e member same
  have typ : e.2.typ = id.typ := by
    have key := keyed e member
    rw [same] at key
    simpa using congrArg EntityId.typ key
  simp only [decide_eq_false_iff_not]
  intro foreign
  exact other (typ ▸ Entity.typ_of_foreignId foreign)

theorem Writes.cachedPending_eq {p : EntityId → Prop} {before after : KeystoreTransaction S}
    (writes : Writes rt p before after) (conversationId : Bytes) (keyed : before.WellKeyed rt)
    (others : ∀ id, p id → id.typ ≠ .mlsPendingMessage) :
    after.cachedPending conversationId = before.cachedPending conversationId := by
  induction writes with
  | refl => rfl
  | save entity allowed earlier ih =>
    rw [KeystoreTransaction.cachedPending_save conversationId (earlier.wellKeyed keyed)
      (others _ allowed), ih]
  | remove id allowed earlier ih =>
    rw [KeystoreTransaction.cachedPending_remove conversationId (earlier.wellKeyed keyed)
      (others _ allowed), ih]

/-! ### What a commit leaves of the pending messages -/

/-- Saving adds a pending message at most: it has no key that could replace another. -/
theorem mem_executeSave (rt : Runtime S) (rows saved : List (Entity S)) (entity : Entity S)
    (ok : executeSave rt rows entity = .ok saved) (message : Entity S) (conversationId : Bytes)
    (foreign : message.foreignId? = some conversationId) :
    message ∈ saved ↔ message ∈ rows ∨ message = entity := by
  rcases executeSave_cases ok with ⟨-, rfl⟩ | ⟨unique, rfl⟩
  · simp
  · have different : rt.fromEntity message ≠ rt.fromEntity entity := by
      intro same
      have sameTyp : message.typ = entity.typ := congrArg EntityId.typ same
      rw [← sameTyp, Entity.typ_of_foreignId foreign] at unique
      exact unique rfl
    simp [different]

theorem mem_saves (rt : Runtime S) (entities rows saved : List (Entity S))
    (ok : entities.foldlM (executeSave rt) rows = .ok saved) (message : Entity S)
    (conversationId : Bytes) (foreign : message.foreignId? = some conversationId) :
    message ∈ saved ↔ message ∈ rows ∨ message ∈ entities := by
  induction entities generalizing rows with
  | nil =>
    cases ok
    simp
  | cons entity rest ih =>
    rw [List.foldlM_cons] at ok
    cases first : executeSave rt rows entity with
    | error e => rw [first] at ok; cases ok
    | ok middle =>
      rw [first] at ok
      rw [ih middle ok, mem_executeSave rt rows middle entity first message conversationId foreign,
        List.mem_cons, or_assoc]

theorem selects_pending (rt : Runtime S) (id : EntityId) (message : Entity S)
    (conversationId : Bytes) (foreign : message.foreignId? = some conversationId) :
    id.selects rt message = decide (id = ⟨.mlsPendingMessage, conversationId⟩) := by
  have typ := Entity.typ_of_foreignId foreign
  obtain ⟨idTyp, key⟩ := id
  cases idTyp <;>
    simp [EntityId.selects, foreign, typ, Runtime.fromEntity, eq_comm]

theorem mem_deletes (rt : Runtime S) (deleted : List EntityId) (rows : List (Entity S))
    {message : Entity S} {conversationId : Bytes}
    (foreign : message.foreignId? = some conversationId) :
    message ∈ deleted.foldl (executeDelete rt) rows ↔
      message ∈ rows ∧ (⟨.mlsPendingMessage, conversationId⟩ : EntityId) ∉ deleted := by
  induction deleted generalizing rows with
  | nil => simp
  | cons id rest ih =>
    have selected := selects_pending rt id message conversationId foreign
    rw [List.foldl_cons, ih, executeDelete, List.mem_filter, selected, List.mem_cons]
    by_cases same : id = ⟨.mlsPendingMessage, conversationId⟩
    · simp [same]
    · simp [same, Ne.symm same]

/-- A pending message is stored after a commit if it was stored or cached and its
conversation was not cleared. -/
theorem KeystoreTransaction.mem_execute (rt : Runtime S) (tx : KeystoreTransaction S)
    (rows written : List (Entity S)) (ok : tx.execute rt rows = .ok written) (message : Entity S)
    (conversationId : Bytes) (foreign : message.foreignId? = some conversationId) :
    message ∈ written ↔
      (message ∈ rows ∨ message ∈ tx.cachedPending conversationId) ∧
        (⟨.mlsPendingMessage, conversationId⟩ : EntityId) ∉ tx.deleted := by
  unfold execute at ok
  cases saves : (rt.values tx.cache).foldlM (executeSave rt) rows with
  | error e => rw [saves] at ok; cases ok
  | ok saved =>
    rw [saves] at ok
    cases ok
    have cached : message ∈ rt.values tx.cache ↔ message ∈ tx.cachedPending conversationId := by
      rw [(rt.perm tx.cache).mem_iff, cachedPending, List.mem_filter]
      simp [foreign]
    rw [mem_deletes rt tx.deleted saved foreign,
      mem_saves rt _ rows saved saves message conversationId foreign, cached]

end CoreCrypto.Keystore
