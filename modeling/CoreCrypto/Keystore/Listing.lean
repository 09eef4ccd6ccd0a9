import CoreCrypto.Keystore.Writes

/-!
# Listing the pending messages

`find_pending_messages_by_conversation_id` merges the cached messages of a transaction with the
stored ones.  The order of the cached ones is that of a `HashMap`, so a write that has nothing
to do with them may still change the order in which they are listed, but nothing else.
-/

namespace CoreCrypto.Keystore

variable {S : Type} {α κ : Type}

/-- Elements with different keys are all kept, and hide the later ones with their keys. -/
theorem uniqueBy_append [DecidableEq κ] {key : α → κ} {xs : List α} (ys : List α)
    (distinct : (xs.map key).Nodup) :
    uniqueBy key (xs ++ ys) = xs ++ (uniqueBy key ys).filter (fun y => key y ∉ xs.map key) := by
  induction xs with
  | nil => simp
  | cons x rest ih =>
    rw [List.map_cons, List.nodup_cons] at distinct
    have others : rest.filter (fun y => decide (key y ≠ key x)) = rest := by
      rw [List.filter_eq_self]
      intro y member
      simp only [decide_eq_true_eq]
      intro same
      exact distinct.1 (same ▸ List.mem_map_of_mem member)
    simp only [List.cons_append, uniqueBy, ih distinct.2, List.filter_append, others,
      List.filter_filter, List.map_cons, List.mem_cons, not_or]
    congr 3
    funext y
    simp

theorem uniqueBy_sublist [DecidableEq κ] (key : α → κ) (xs : List α) :
    (uniqueBy key xs).Sublist xs := by
  induction xs with
  | nil => exact .slnil
  | cons x rest ih => exact .cons_cons x (List.filter_sublist.trans ih)

theorem exists_mem_uniqueBy [DecidableEq κ] (key : α → κ) {xs : List α} {x : α} (member : x ∈ xs) :
    ∃ y ∈ uniqueBy key xs, key y = key x := by
  induction xs with
  | nil => cases member
  | cons head rest ih =>
    by_cases same : key x = key head
    · exact ⟨head, List.mem_cons_self, same.symm⟩
    · obtain ⟨y, kept, sameKey⟩ := ih
        ((List.mem_cons.mp member).resolve_left fun isHead => same (congrArg key isHead))
      exact ⟨y, List.mem_cons_of_mem _ (List.mem_filter.mpr ⟨kept, by simpa [sameKey] using same⟩),
        sameKey⟩

/-- The stored messages of the conversation. -/
def storedFor (rows : List (Entity S)) (conversationId : Bytes) : List (Entity S) :=
  rows.filter fun e => e.typ = .mlsPendingMessage ∧ e.foreignId? = some conversationId

theorem mem_storedFor (rows : List (Entity S)) (conversationId : Bytes) (e : Entity S) :
    e ∈ storedFor rows conversationId ↔ e ∈ rows ∧ e.foreignId? = some conversationId := by
  simp only [storedFor, List.mem_filter, decide_eq_true_eq]
  exact and_congr_right fun _ => and_iff_right_of_imp Entity.typ_of_foreignId

namespace KeystoreTransaction

theorem cached_perm (rt : Runtime S) (tx : KeystoreTransaction S) (conversationId : Bytes) :
    ((tx.findAllInCache rt .mlsPendingMessage).filter
      (fun e => e.foreignId? = some conversationId)).Perm (tx.cachedPending conversationId) := by
  have same : (tx.findAllInCache rt .mlsPendingMessage).filter
      (fun e => e.foreignId? = some conversationId) =
        (rt.values tx.cache).filter (fun e => e.foreignId? = some conversationId) := by
    rw [findAllInCache, List.filter_filter]
    congr 1
    funext e
    by_cases foreign : e.foreignId? = some conversationId
    · simp [foreign, Entity.typ_of_foreignId foreign]
    · simp [foreign]
  rw [same, cachedPending]
  exact (rt.perm tx.cache).filter _

theorem cached_nodup (rt : Runtime S) (tx : KeystoreTransaction S) (conversationId : Bytes)
    (keyed : tx.WellKeyed rt) :
    (((tx.findAllInCache rt .mlsPendingMessage).filter
      (fun e => e.foreignId? = some conversationId)).map (Entity.primaryKey rt.toHashes)).Nodup := by
  have ids := tx.values_nodup rt keyed
  have sublist : ((tx.findAllInCache rt .mlsPendingMessage).filter
      (fun e => e.foreignId? = some conversationId)).Sublist (rt.values tx.cache) :=
    List.filter_sublist.trans List.filter_sublist
  have distinct := (sublist.map rt.fromEntity).nodup ids
  refine (List.nodup_map_iff_inj_on (List.Nodup.of_map _ distinct)).mpr ?_
  intro first firstMember second secondMember sameKey
  have firstForeign := (List.mem_filter.mp firstMember).2
  have secondForeign := (List.mem_filter.mp secondMember).2
  simp only [decide_eq_true_eq] at firstForeign secondForeign
  apply List.inj_on_of_nodup_map distinct firstMember secondMember
  simp only [Runtime.fromEntity, Entity.typ_of_foreignId firstForeign,
    Entity.typ_of_foreignId secondForeign, sameKey]

/-- What is listed, but for the order. -/
def listing (rt : Runtime S) (tx : KeystoreTransaction S) (conversationId : Bytes)
    (persisted : List (Entity S)) : List (Entity S) :=
  (tx.cachedPending conversationId ++ (uniqueBy (Entity.primaryKey rt.toHashes) persisted).filter
    (fun e => e.primaryKey rt.toHashes ∉
      (tx.cachedPending conversationId).map (Entity.primaryKey rt.toHashes))).filter
    (fun e => rt.fromEntity e ∉ tx.deleted)

theorem findPendingMessages_perm (rt : Runtime S) (tx : KeystoreTransaction S)
    (conversationId : Bytes) (persisted : List (Entity S)) (keyed : tx.WellKeyed rt) :
    (tx.findPendingMessagesByConversationId rt conversationId persisted).Perm
      (tx.listing rt conversationId persisted) := by
  have cached := tx.cached_perm rt conversationId
  have keys := cached.map (Entity.primaryKey rt.toHashes)
  rw [findPendingMessagesByConversationId, search, mergeRecords,
    uniqueBy_append _ (tx.cached_nodup rt conversationId keyed), listing]
  apply List.Perm.filter
  refine cached.append (.of_eq (List.filter_congr ?_))
  intro e _
  exact decide_eq_decide.mpr (not_congr keys.mem_iff)

theorem foreignId_of_listed {rt : Runtime S} {tx : KeystoreTransaction S} (keyed : tx.WellKeyed rt)
    {rows : List (Entity S)} {conversationId : Bytes} {e : Entity S}
    (listed : e ∈ tx.findPendingMessagesByConversationId rt conversationId
      (storedFor rows conversationId)) : e.foreignId? = some conversationId := by
  have found := (tx.findPendingMessages_perm rt conversationId _ keyed).mem_iff.mp listed
  rcases List.mem_append.mp (List.mem_filter.mp found).1 with cached | stored
  · simpa using (List.mem_filter.mp cached).2
  · exact ((mem_storedFor _ _ _).mp ((uniqueBy_sublist _ _).mem (List.mem_filter.mp stored).1)).2

/-- Nothing is listed if the keys of all messages, saved or stored, are marked as removed. -/
theorem findPendingMessages_eq_nil_iff {rt : Runtime S} {tx : KeystoreTransaction S}
    (keyed : tx.WellKeyed rt) (rows : List (Entity S)) (conversationId : Bytes) :
    tx.findPendingMessagesByConversationId rt conversationId (storedFor rows conversationId) = [] ↔
      ∀ e, e ∈ tx.cachedPending conversationId ∨ e ∈ storedFor rows conversationId →
        rt.fromEntity e ∈ tx.deleted := by
  have listed := tx.findPendingMessages_perm rt conversationId (storedFor rows conversationId) keyed
  rw [← List.perm_nil, listed.congr_left, List.perm_nil, listing, List.filter_eq_nil_iff]
  simp only [List.mem_append, List.mem_filter, decide_eq_true_eq, not_not]
  constructor
  · rintro hidden e (cached | stored)
    · exact hidden e (.inl cached)
    · obtain ⟨shown, kept, sameKey⟩ := exists_mem_uniqueBy (Entity.primaryKey rt.toHashes) stored
      have typ {e'} (foreign : e'.foreignId? = some conversationId)
          (same : e'.primaryKey rt.toHashes = e.primaryKey rt.toHashes) :
          rt.fromEntity e' = rt.fromEntity e := by
        rw [Runtime.fromEntity, Runtime.fromEntity, same, Entity.typ_of_foreignId foreign,
          Entity.typ_of_foreignId ((mem_storedFor _ _ _).mp stored).2]
      by_cases shadowed : shown.primaryKey rt.toHashes ∈
          (tx.cachedPending conversationId).map (Entity.primaryKey rt.toHashes)
      · obtain ⟨cached, isCached, same⟩ := List.mem_map.mp shadowed
        have foreign := (List.mem_filter.mp isCached).2
        rw [← typ (by simpa using foreign) (same.trans sameKey)]
        exact hidden cached (.inl isCached)
      · have isStored := (uniqueBy_sublist _ _).mem kept
        rw [← typ ((mem_storedFor _ _ _).mp isStored).2 sameKey]
        exact hidden shown (.inr ⟨kept, shadowed⟩)
  · rintro hidden e (cached | ⟨kept, -⟩)
    · exact hidden e (.inl cached)
    · exact hidden e (.inr ((uniqueBy_sublist _ _).mem kept))

/-- A removal leaves nothing to be listed, now or later: every stored message of the conversation has
a key that is marked as removed, or the id of the conversation itself as its key. -/
def Clearable (rt : Runtime S) (tx : KeystoreTransaction S) (rows : List (Entity S))
    (conversationId : Bytes) : Prop :=
  ∀ e ∈ rows, e.foreignId? = some conversationId →
    rt.fromEntity e = ⟨.mlsPendingMessage, conversationId⟩ ∨ rt.fromEntity e ∈ tx.deleted

theorem clearable_of_listed_nil {rt : Runtime S} {tx : KeystoreTransaction S}
    (keyed : tx.WellKeyed rt) {rows : List (Entity S)} {conversationId : Bytes}
    (empty : tx.findPendingMessagesByConversationId rt conversationId
      (storedFor rows conversationId) = []) : tx.Clearable rt rows conversationId :=
  fun e stored foreign => .inr ((findPendingMessages_eq_nil_iff keyed rows conversationId).mp empty e
    (.inr ((mem_storedFor _ _ _).mpr ⟨stored, foreign⟩)))

theorem Clearable.congr {rt : Runtime S} {p : EntityId → Prop} {tx tx' : KeystoreTransaction S}
    (writes : Writes rt p tx tx') (others : ∀ id, p id → id.typ ≠ .mlsPendingMessage)
    (rows : List (Entity S)) (conversationId : Bytes) :
    tx'.Clearable rt rows conversationId ↔ tx.Clearable rt rows conversationId := by
  refine forall₂_congr fun e _ => forall_congr' fun foreign => or_congr_right ?_
  exact writes.mem_deleted _ fun written => others _ written (Entity.typ_of_foreignId foreign)

theorem listed_removed_eq_nil_iff {rt : Runtime S} {tx : KeystoreTransaction S}
    (keyed : tx.WellKeyed rt) (rows : List (Entity S)) (conversationId : Bytes) :
    (tx.removePendingMessagesByConversationId conversationId).findPendingMessagesByConversationId rt
        conversationId (storedFor rows conversationId) = [] ↔ tx.Clearable rt rows conversationId := by
  have none (e) : e ∉ (tx.removePendingMessagesByConversationId conversationId).cachedPending
      conversationId := by
    simp only [cachedPending, removePendingMessagesByConversationId, List.mem_filter, List.mem_map,
      decide_eq_true_eq]
    rintro ⟨⟨entry, ⟨-, other⟩, rfl⟩, foreign⟩
    exact other foreign
  have deleted (id) : id ∈ (tx.removePendingMessagesByConversationId conversationId).deleted ↔
      id = ⟨.mlsPendingMessage, conversationId⟩ ∨ id ∈ tx.deleted := List.mem_insert_iff
  rw [findPendingMessages_eq_nil_iff (wellKeyed_removePendingMessages rt tx conversationId keyed)]
  simp only [none, deleted, false_or, mem_storedFor, and_imp, Clearable]

end KeystoreTransaction

/-- Writes to other collections change at most the order of the listed messages. -/
theorem Writes.findPendingMessages_perm {rt : Runtime S} {p : EntityId → Prop}
    {before after : KeystoreTransaction S} (writes : Writes rt p before after)
    {conversationId : Bytes} {persisted : List (Entity S)} (keyed : before.WellKeyed rt)
    (others : ∀ id, p id → id.typ ≠ .mlsPendingMessage)
    (foreign : ∀ e ∈ persisted, e.foreignId? = some conversationId) :
    (after.findPendingMessagesByConversationId rt conversationId persisted).Perm
      (before.findPendingMessagesByConversationId rt conversationId persisted) := by
  have cached := writes.cachedPending_eq conversationId keyed others
  have same : after.listing rt conversationId persisted =
      before.listing rt conversationId persisted := by
    rw [KeystoreTransaction.listing, KeystoreTransaction.listing, cached]
    apply List.filter_congr
    intro e member
    -- what is listed is a pending message, and their deletions are not touched
    have typ : e.typ = .mlsPendingMessage := by
      rw [List.mem_append] at member
      rcases member with member | member
      · have isForeign := (List.mem_filter.mp member).2
        simp only [decide_eq_true_eq] at isForeign
        exact Entity.typ_of_foreignId isForeign
      · have stored := (uniqueBy_sublist _ _).mem (List.mem_filter.mp member).1
        exact Entity.typ_of_foreignId (foreign e stored)
    have kept := writes.mem_deleted (rt.fromEntity e) (fun written => others _ written typ)
    simp only [kept]
  exact (after.findPendingMessages_perm rt conversationId persisted (writes.wellKeyed keyed)).trans
    (same ▸ (before.findPendingMessages_perm rt conversationId persisted keyed).symm)

end CoreCrypto.Keystore
