import CoreCrypto.Keystore.Listing

/-!
# The rows of pending messages

The messages saved in the open transaction and the stored ones.  A recorded deletion takes a stored
message away only at the commit, and every listing before that still shows it.
-/

namespace CoreCrypto.Keystore

variable {S : Type}

namespace KeystoreTransaction

/-- The message is a pending one of the conversation, saved or stored. -/
def PendingRow (tx : KeystoreTransaction S) (rows : List (Entity S)) (conversationId : Bytes)
    (message : Entity S) : Prop :=
  message.foreignId? = some conversationId ∧
    (message ∈ tx.cachedPending conversationId ∨ message ∈ rows)

variable {rows : List (Entity S)} {conversationId : Bytes} {message : Entity S}
  {tx : KeystoreTransaction S} {rt : Runtime S}

@[simp] theorem pendingRow_new :
    (new : KeystoreTransaction S).PendingRow rows conversationId message ↔
      message.foreignId? = some conversationId ∧ message ∈ rows := by
  simp only [PendingRow, new, cachedPending, AList.empty_entries, List.map_nil, List.filter_nil,
    List.not_mem_nil, false_or]

/-- Once the saved messages are removed, only stored ones are left. -/
theorem mem_of_pendingRow_removed
    (row : (tx.removePendingMessagesByConversationId conversationId).PendingRow rows conversationId
      message) : message ∈ rows := by
  obtain ⟨foreign, cached | stored⟩ := row
  · simp only [cachedPending, removePendingMessagesByConversationId, List.mem_filter,
      List.mem_map, decide_eq_true_eq] at cached
    obtain ⟨⟨entry, ⟨-, other⟩, same⟩, foreign⟩ := cached
    exact absurd (same ▸ foreign) other
  · exact stored

theorem pendingRow_of_removed {removed : Bytes}
    (row : (tx.removePendingMessagesByConversationId removed).PendingRow rows conversationId
      message) : tx.PendingRow rows conversationId message := by
  refine ⟨row.1, row.2.imp_left fun cached => ?_⟩
  simp only [cachedPending, removePendingMessagesByConversationId, List.mem_filter,
    List.mem_map, decide_eq_true_eq] at cached ⊢
  obtain ⟨⟨entry, ⟨member, -⟩, same⟩, isForeign⟩ := cached
  exact ⟨⟨entry, member, same⟩, isForeign⟩

theorem mem_cachedPending_of_kerase {entityId : EntityId}
    (cached : message ∈ ((tx.cache.entries.kerase entityId).map (·.2)).filter
      fun entity => entity.foreignId? = some conversationId) :
    message ∈ tx.cachedPending conversationId := by
  obtain ⟨member, foreign⟩ := List.mem_filter.mp cached
  obtain ⟨entry, kept, same⟩ := List.mem_map.mp member
  exact List.mem_filter.mpr
    ⟨List.mem_map.mpr ⟨entry, (List.kerase_sublist _ _).mem kept, same⟩, foreign⟩

theorem pendingRow_of_removeByEntityId {entityId : EntityId}
    (row : (tx.removeByEntityId entityId).PendingRow rows conversationId message) :
    tx.PendingRow rows conversationId message :=
  ⟨row.1, row.2.imp_left mem_cachedPending_of_kerase⟩

/-- A saved message is the only one that appears. -/
theorem pendingRow_save {entity : Entity S}
    (row : (tx.save rt entity).PendingRow rows conversationId message) :
    tx.PendingRow rows conversationId message ∨ message = entity := by
  obtain ⟨foreign, cached | stored⟩ := row
  · simp only [cachedPending, save, AList.entries_insert, List.map_cons, List.filter_cons] at cached
    split at cached
    · rcases List.mem_cons.mp cached with same | older
      · exact .inr same
      · exact .inl ⟨foreign, .inl (mem_cachedPending_of_kerase older)⟩
    · exact .inl ⟨foreign, .inl (mem_cachedPending_of_kerase cached)⟩
  · exact .inl ⟨foreign, .inr stored⟩

theorem pendingRow_of_execute {written : List (Entity S)} (ok : tx.execute rt rows = .ok written)
    (foreign : message.foreignId? = some conversationId) (member : message ∈ written) :
    tx.PendingRow rows conversationId message := by
  obtain ⟨found, -⟩ := (tx.mem_execute rt rows written ok message conversationId foreign).mp member
  exact ⟨foreign, found.symm⟩

end KeystoreTransaction

theorem Writes.pendingRow_iff {rt : Runtime S} {p : EntityId → Prop}
    {before after : KeystoreTransaction S} (writes : Writes rt p before after)
    (keyed : before.WellKeyed rt) (others : ∀ id, p id → id.typ ≠ .mlsPendingMessage)
    (rows : List (Entity S)) (conversationId : Bytes) (message : Entity S) :
    after.PendingRow rows conversationId message ↔
      before.PendingRow rows conversationId message := by
  rw [KeystoreTransaction.PendingRow, writes.cachedPending_eq conversationId keyed others,
    KeystoreTransaction.PendingRow]

end CoreCrypto.Keystore
