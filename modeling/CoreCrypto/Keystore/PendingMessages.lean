import Mathlib.Data.List.Infix
import CoreCrypto.Keystore.Overlay

/-!
# The pending messages of one transaction

A message is filed under a hash of its conversation id and its text, but a removal under the
conversation id alone, which neither hides a stored message nor is taken back by a later save.
Messages with one key take each other's place, also those of different conversations.
-/

namespace CoreCrypto.Keystore

open CoreCrypto.Library

variable {S : Type} {rt : Runtime S}

/-- An operation on the pending messages: `save` of a message, or
`remove_pending_messages_by_conversation_id`. -/
inductive PendingOperation where
  | save (conversationId message : Bytes)
  | removeAll (conversationId : Bytes)
  deriving DecidableEq, Repr

namespace PendingOperation

def saved? : PendingOperation → Option (Bytes × Bytes)
  | save conversationId message => some (conversationId, message)
  | removeAll _ => none

def buffer (rt : Runtime S) (tx : KeystoreTransaction S) :
    PendingOperation → KeystoreTransaction S
  | save conversationId message => tx.save rt (.mlsPendingMessage conversationId message)
  | removeAll conversationId => tx.removePendingMessagesByConversationId conversationId

/-- The operation on a table of conversation ids and messages. -/
def onTable (table : List (Bytes × Bytes)) : PendingOperation → List (Bytes × Bytes)
  | save conversationId message => table ++ [(conversationId, message)]
  | removeAll conversationId => table.filter (fun entry => entry.1 ≠ conversationId)

end PendingOperation

open PendingOperation

/-- The transaction after the operations. -/
def KeystoreTransaction.ofPending (rt : Runtime S) (operations : List PendingOperation) :
    KeystoreTransaction S :=
  run (fun tx operation => operation.buffer rt tx) .new operations

/-- The entry of a pending message. -/
def Entity.pending? : Entity S → Option (Bytes × Bytes)
  | mlsPendingMessage foreignId message => some (foreignId, message)
  | _ => none

def storedPending (rows : List (Entity S)) : List (Bytes × Bytes) :=
  rows.filterMap Entity.pending?

def savedPending (operations : List PendingOperation) : List (Bytes × Bytes) :=
  operations.filterMap PendingOperation.saved?

/-- What the operations make of a table of messages, taken in order. -/
def inOrder (table : List (Bytes × Bytes)) (operations : List PendingOperation) :
    List (Bytes × Bytes) :=
  run onTable table operations

/-- The primary key of a pending message. -/
def pendingKey (rt : Runtime S) (entry : Bytes × Bytes) : Bytes :=
  rt.xxh3 (entry.1 ++ entry.2)

/-- The key that the transaction remembers an operation under. -/
def PendingOperation.mark (rt : Runtime S) : PendingOperation → Bytes
  | save conversationId message => pendingKey rt (conversationId, message)
  | removeAll conversationId => conversationId

/-- The last operation under the key is a removal. -/
def Marked (rt : Runtime S) (operations : List PendingOperation) (key : Bytes) : Prop :=
  lastBy (mark rt) operations key = some (removeAll key)

instance (operations : List PendingOperation) (key : Bytes) : Decidable (Marked rt operations key) :=
  inferInstanceAs (Decidable (_ = _))

/-- The message is left of the saved ones, and it was saved last under its key. -/
def Newest (rt : Runtime S) (operations : List PendingOperation) (entry : Bytes × Bytes) : Prop :=
  entry ∈ inOrder [] operations ∧
    lastBy (pendingKey rt) (savedPending operations) (pendingKey rt entry) = some entry

theorem mem_storedPending (rows : List (Entity S)) (conversationId message : Bytes) :
    (conversationId, message) ∈ storedPending rows ↔
      Entity.mlsPendingMessage conversationId message ∈ rows := by
  rw [storedPending, List.mem_filterMap]
  constructor
  · rintro ⟨e, member, pending⟩
    cases e <;> simp_all [Entity.pending?]
  · intro member
    exact ⟨_, member, rfl⟩

/-! ### In order -/

theorem inOrder_append (table : List (Bytes × Bytes)) (operations : List PendingOperation)
    (operation : PendingOperation) :
    inOrder table (operations ++ [operation]) = operation.onTable (inOrder table operations) := by
  simp [inOrder, run, List.foldl_append]

/-- A message of the table counts until its conversation is removed, independently of the saved
ones. -/
theorem mem_inOrder (table : List (Bytes × Bytes)) (operations : List PendingOperation)
    (entry : Bytes × Bytes) :
    entry ∈ inOrder table operations ↔
      (entry ∈ table ∧ removeAll entry.1 ∉ operations) ∨ entry ∈ inOrder [] operations := by
  induction operations using List.reverseRecOn with
  | nil => simp [inOrder]
  | append_singleton earlier operation ih =>
    rw [inOrder_append, inOrder_append]
    cases operation with
    | save savedId saved => simp [onTable, ih, or_assoc]
    | removeAll removed =>
      by_cases same : entry.1 = removed
      · simp [onTable, same]
      · simp [onTable, same, ih]

theorem newest_append_save (operations : List PendingOperation) (saved entry : Bytes × Bytes) :
    Newest rt (operations ++ [save saved.1 saved.2]) entry ↔
      entry = saved ∨ pendingKey rt saved ≠ pendingKey rt entry ∧ Newest rt operations entry := by
  have savedLast : savedPending (operations ++ [save saved.1 saved.2]) =
      savedPending operations ++ [saved] := by simp [savedPending, saved?]
  rw [Newest, inOrder_append, savedLast]
  by_cases same : pendingKey rt saved = pendingKey rt entry
  · rw [← same, lastBy_append_self]
    simpa [onTable, eq_comm] using fun isSaved => .inr isSaved
  · have other : entry ≠ saved := fun isSaved => same (congrArg _ isSaved.symm)
    rw [lastBy_append_other _ _ same]
    simp [onTable, other, same, Newest]

theorem newest_append_removeAll (operations : List PendingOperation) (conversationId : Bytes)
    (entry : Bytes × Bytes) : Newest rt (operations ++ [removeAll conversationId]) entry ↔
      Newest rt operations entry ∧ entry.1 ≠ conversationId := by
  have savedSame : savedPending (operations ++ [removeAll conversationId]) =
      savedPending operations := by simp [savedPending, saved?]
  simp [Newest, inOrder_append, onTable, savedSame, and_right_comm]

theorem removed_of_marked {operations : List PendingOperation} {key : Bytes}
    (marked : Marked rt operations key) : removeAll key ∈ operations :=
  (mem_of_lastBy _ marked).1

/-! ### In the transaction -/

namespace KeystoreTransaction

theorem ofPending_append (rt : Runtime S) (operations : List PendingOperation)
    (operation : PendingOperation) :
    ofPending rt (operations ++ [operation]) = operation.buffer rt (ofPending rt operations) := by
  simp [ofPending, run, List.foldl_append]

theorem wellKeyed_ofPending (rt : Runtime S) (operations : List PendingOperation) :
    (ofPending rt operations).WellKeyed rt := by
  induction operations using List.reverseRecOn with
  | nil => exact wellKeyed_new rt
  | append_singleton earlier operation ih =>
    rw [ofPending_append]
    cases operation with
    | save conversationId message => exact wellKeyed_save rt _ _ ih
    | removeAll conversationId => exact wellKeyed_removePendingMessages rt _ _ ih

theorem typ_ofPending (rt : Runtime S) (operations : List PendingOperation) :
    ∀ cached ∈ (ofPending rt operations).cache.entries, cached.2.typ = .mlsPendingMessage := by
  induction operations using List.reverseRecOn with
  | nil => exact fun _ cached => absurd cached List.not_mem_nil
  | append_singleton earlier operation ih =>
    rw [ofPending_append]
    intro cached member
    cases operation with
    | save conversationId message =>
      rcases List.mem_cons.mp member with rfl | older
      · rfl
      · exact ih cached ((List.kerase_sublist _ _).mem older)
    | removeAll conversationId => exact ih cached (List.mem_of_mem_filter member)

/-- The cache holds the newest messages. -/
theorem lookup_ofPending (rt : Runtime S) (operations : List PendingOperation)
    (entry : Bytes × Bytes) :
    (ofPending rt operations).cache.lookup (rt.fromEntity (.mlsPendingMessage entry.1 entry.2)) =
      some (.mlsPendingMessage entry.1 entry.2) ↔ Newest rt operations entry := by
  induction operations using List.reverseRecOn with
  | nil => simp [ofPending, new, Newest, inOrder]
  | append_singleton earlier operation ih =>
    rw [ofPending_append]
    cases operation with
    | save conversationId message =>
      rw [newest_append_save earlier (conversationId, message), ← ih]
      simp only [buffer, KeystoreTransaction.save]
      by_cases same : rt.fromEntity (.mlsPendingMessage entry.1 entry.2 : Entity S) =
          rt.fromEntity (.mlsPendingMessage conversationId message)
      · have sameKey : pendingKey rt (conversationId, message) = pendingKey rt entry :=
          (congrArg EntityId.id same).symm
        rw [same, AList.lookup_insert]
        simp [sameKey, Prod.ext_iff, eq_comm]
      · have other : pendingKey rt (conversationId, message) ≠ pendingKey rt entry := fun sameKey =>
          same (congrArg (EntityId.mk .mlsPendingMessage) sameKey.symm)
        rw [AList.lookup_insert_ne same]
        refine ⟨fun found => .inr ⟨other, found⟩, ?_⟩
        rintro (rfl | ⟨-, found⟩)
        · exact absurd rfl other
        · exact found
    | removeAll conversationId =>
      rw [newest_append_removeAll, ← ih, ← Option.mem_def, ← Option.mem_def, AList.mem_lookup_iff,
        AList.mem_lookup_iff]
      simp [buffer, removePendingMessagesByConversationId, Entity.foreignId?]

/-- The set of deletions holds the keys whose last operation is a removal. -/
theorem mem_deleted_ofPending (rt : Runtime S) (operations : List PendingOperation) (id : EntityId) :
    id ∈ (ofPending rt operations).deleted ↔
      id.typ = .mlsPendingMessage ∧ Marked rt operations id.id := by
  induction operations using List.reverseRecOn with
  | nil => simp [ofPending, new, Marked]
  | append_singleton earlier operation ih =>
    obtain ⟨typ, key⟩ := id
    rw [ofPending_append]
    by_cases same : operation.mark rt = key
    · subst same
      rw [Marked, lastBy_append_self]
      cases operation with
      | save conversationId message =>
        have saved (isTyp : typ = .mlsPendingMessage) : EntityId.mk typ (mark rt
            (.save conversationId message)) =
              rt.fromEntity (.mlsPendingMessage conversationId message) := by
          rw [isTyp]
          rfl
        simp only [buffer, KeystoreTransaction.save, List.mem_filter, ih, decide_eq_true_eq,
          Option.some.injEq, reduceCtorEq, and_false, iff_false]
        exact fun kept => kept.2 (saved kept.1.1)
      | removeAll conversationId =>
        simpa [buffer, removePendingMessagesByConversationId, mark] using
          fun earlierToo => (ih.mp earlierToo).1
    · rw [Marked, lastBy_append_other _ _ same, ← Marked, ← ih]
      cases operation with
      | save conversationId message =>
        simp only [buffer, KeystoreTransaction.save, List.mem_filter, decide_eq_true_eq]
        exact and_iff_left fun isSaved => same (congrArg EntityId.id isSaved).symm
      | removeAll conversationId =>
        simp only [buffer, removePendingMessagesByConversationId, List.mem_insert_iff]
        exact or_iff_right fun isRemoved => same (congrArg EntityId.id isRemoved).symm

end KeystoreTransaction

/-! ### Listing -/

/-- Of elements that the key tells apart none is dropped. -/
theorem mem_uniqueBy_of_injOn {α κ : Type} [DecidableEq κ] {key : α → κ} {xs : List α}
    (injective : ∀ x ∈ xs, ∀ y ∈ xs, key x = key y → x = y) (e : α) :
    e ∈ uniqueBy key xs ↔ e ∈ xs := by
  induction xs with
  | nil => rfl
  | cons x rest ih =>
    have tail := ih fun a inA b inB =>
      injective a (List.mem_cons_of_mem _ inA) b (List.mem_cons_of_mem _ inB)
    simp only [uniqueBy, List.mem_cons, List.mem_filter, tail, decide_eq_true_eq]
    refine ⟨fun shown => shown.imp_right And.left, ?_⟩
    rintro (same | later)
    · exact .inl same
    · by_cases same : key e = key x
      · exact .inl (injective e (List.mem_cons_of_mem _ later) x List.mem_cons_self same)
      · exact .inr ⟨later, same⟩

theorem foreignId_iff (e : Entity S) (conversationId : Bytes) :
    e.foreignId? = some conversationId ↔
      ∃ message, e = .mlsPendingMessage conversationId message := by
  cases e <;> simp [Entity.foreignId?, eq_comm]

theorem mem_cachedPending_iff {rt : Runtime S} {tx : KeystoreTransaction S}
    (keyed : tx.WellKeyed rt) (conversationId : Bytes) (e : Entity S) :
    e ∈ tx.cachedPending conversationId ↔
      tx.cache.lookup (rt.fromEntity e) = some e ∧ e.foreignId? = some conversationId := by
  simp only [KeystoreTransaction.cachedPending, List.mem_filter, List.mem_map, decide_eq_true_eq]
  refine and_congr_left fun _ => ⟨?_, fun found => ⟨_, AList.mem_lookup_iff.mp found, rfl⟩⟩
  rintro ⟨⟨id, cached⟩, member, rfl⟩
  rw [keyed _ member]
  exact AList.mem_lookup_iff.mpr member

/-- What is listed for a conversation. -/
def listedPending (rt : Runtime S) (rows : List (Entity S)) (tx : KeystoreTransaction S)
    (conversationId : Bytes) : List (Entity S) :=
  tx.findPendingMessagesByConversationId rt conversationId (storedFor rows conversationId)

theorem Database.findPending_open (rt : Runtime S) (rows : List (Entity S))
    (tx : KeystoreTransaction S) (permits : Nat) (conversationId : Bytes) :
    (Database.mk (some rows) (some tx) permits).findPendingMessagesByConversationId rt
        conversationId = .ok (listedPending rt rows tx conversationId) := by
  have stored : rows.filter (fun e => e.typ = .mlsPendingMessage ∧
      decide (e.foreignId? = some conversationId) = true) = storedFor rows conversationId :=
    List.filter_congr fun e _ => by simp
  exact congrArg (fun stored => Except.ok
    (tx.findPendingMessagesByConversationId rt conversationId stored)) stored

/-- The message is listed for its conversation while the transaction is open. -/
def Retrievable (rt : Runtime S) (rows : List (Entity S)) (tx : KeystoreTransaction S)
    (message : Bytes × Bytes) : Prop :=
  ∃ found, (Database.mk (some rows) (some tx) 0).findPendingMessagesByConversationId rt message.1 =
    .ok found ∧ .mlsPendingMessage message.1 message.2 ∈ found

/-- The key tells the stored messages of the conversation apart. -/
def StoredApart (rt : Runtime S) (rows : List (Entity S)) (conversationId : Bytes) : Prop :=
  ∀ m m', .mlsPendingMessage conversationId m ∈ rows → .mlsPendingMessage conversationId m' ∈ rows →
    pendingKey rt (conversationId, m) = pendingKey rt (conversationId, m') → m = m'

section Listing

variable {rows : List (Entity S)} {tx : KeystoreTransaction S}

theorem mem_listedPending (conversationId message : Bytes) :
    .mlsPendingMessage conversationId message ∈ listedPending rt rows tx conversationId ↔
      Retrievable rt rows tx (conversationId, message) := by
  simp [Retrievable, Database.findPending_open]

/-- Of the messages of a conversation, one is listed for each key. -/
theorem retrievable_unique {p q : Bytes × Bytes} (sameId : p.1 = q.1)
    (sameKey : pendingKey rt p = pendingKey rt q) (first : Retrievable rt rows tx p)
    (second : Retrievable rt rows tx q) : p = q := by
  obtain ⟨c, m⟩ := p
  obtain ⟨c', m'⟩ := q
  cases sameId
  have same := List.inj_on_of_nodup_map (tx.mergeRecords_distinct rt _ _)
    ((mem_listedPending c m).mpr first) ((mem_listedPending c m').mpr second) sameKey
  cases same
  rfl

/-- A message is listed if the transaction holds it, or if it is stored and the transaction holds no
other one of the conversation under its key. -/
theorem retrievable_iff {conversationId : Bytes} (distinct : StoredApart rt rows conversationId)
    (keyed : tx.WellKeyed rt) (message : Bytes) :
    Retrievable rt rows tx (conversationId, message) ↔
      (tx.cache.lookup (rt.fromEntity (.mlsPendingMessage conversationId message)) =
          some (.mlsPendingMessage conversationId message) ∨
        .mlsPendingMessage conversationId message ∈ rows ∧
          ∀ e, tx.cache.lookup (rt.fromEntity (.mlsPendingMessage conversationId message)) = some e →
            e.foreignId? ≠ some conversationId) ∧
        rt.fromEntity (.mlsPendingMessage conversationId message) ∉ tx.deleted := by
  have listed (stored : List (Entity S)) :=
    (tx.findPendingMessages_perm rt conversationId stored keyed).mem_iff
      (a := .mlsPendingMessage conversationId message)
  have apart : ∀ x ∈ storedFor rows conversationId,
      ∀ y ∈ storedFor rows conversationId,
        x.primaryKey rt.toHashes = y.primaryKey rt.toHashes → x = y := by
    intro x isX y isY same
    simp only [mem_storedFor, foreignId_iff] at isX isY
    obtain ⟨storedX, m, rfl⟩ := isX
    obtain ⟨storedY, m', rfl⟩ := isY
    rw [distinct m m' storedX storedY same]
  have shadowed : (.mlsPendingMessage conversationId message : Entity S).primaryKey rt.toHashes ∉
      (tx.cachedPending conversationId).map (Entity.primaryKey rt.toHashes) ↔
      ∀ e, tx.cache.lookup (rt.fromEntity (.mlsPendingMessage conversationId message)) = some e →
        e.foreignId? ≠ some conversationId := by
    simp only [List.mem_map, not_exists, not_and, mem_cachedPending_iff keyed]
    constructor
    · intro absent e found foreign
      have key := KeystoreTransaction.lookup_id keyed found
      exact absent e ⟨key.symm ▸ found, foreign⟩ (congrArg EntityId.id key)
    · rintro none e ⟨found, foreign⟩ same
      have key : rt.fromEntity e = rt.fromEntity (.mlsPendingMessage conversationId message) := by
        rw [Runtime.fromEntity, Entity.typ_of_foreignId foreign, same]
        rfl
      exact none e (key ▸ found) foreign
  rw [← mem_listedPending, listedPending, listed]
  simp only [KeystoreTransaction.listing, List.mem_filter, List.mem_append, decide_eq_true_eq,
    mem_cachedPending_iff keyed, mem_uniqueBy_of_injOn apart, mem_storedFor,
    shadowed]
  simp [Entity.foreignId?]

/-- A message is listed if it is the newest one under its key, or if it is stored and no newest
message of the conversation has its key; and only if its key is not marked as removed. -/
theorem retrievable_ofPending_iff {entry : Bytes × Bytes} (distinct : StoredApart rt rows entry.1)
    (operations : List PendingOperation) :
    Retrievable rt rows (.ofPending rt operations) entry ↔
      (Newest rt operations entry ∨ entry ∈ storedPending rows ∧
        ∀ other, other.1 = entry.1 → pendingKey rt other = pendingKey rt entry →
          ¬ Newest rt operations other) ∧ ¬ Marked rt operations (pendingKey rt entry) := by
  have keyed := KeystoreTransaction.wellKeyed_ofPending rt operations
  rw [retrievable_iff distinct keyed, KeystoreTransaction.lookup_ofPending,
    KeystoreTransaction.mem_deleted_ofPending, ← mem_storedPending]
  have hidden : (∀ e, (KeystoreTransaction.ofPending rt operations).cache.lookup
      (rt.fromEntity (.mlsPendingMessage entry.1 entry.2)) = some e →
        e.foreignId? ≠ some entry.1) ↔ ∀ other : Bytes × Bytes, other.1 = entry.1 →
          pendingKey rt other = pendingKey rt entry → ¬ Newest rt operations other := by
    constructor
    · intro none other sameId sameKey newest
      have found := (KeystoreTransaction.lookup_ofPending rt operations other).mpr newest
      have sameEntity : rt.fromEntity (.mlsPendingMessage other.1 other.2 : Entity S) =
          rt.fromEntity (.mlsPendingMessage entry.1 entry.2) :=
        congrArg (EntityId.mk .mlsPendingMessage) sameKey
      exact none (.mlsPendingMessage other.1 other.2) (sameEntity ▸ found) (congrArg some sameId)
    · intro none e found foreign
      obtain ⟨message, rfl⟩ := (foreignId_iff e entry.1).mp foreign
      have sameEntity := KeystoreTransaction.lookup_id keyed found
      exact none (entry.1, message) rfl (congrArg EntityId.id sameEntity)
        ((KeystoreTransaction.lookup_ofPending rt operations (entry.1, message)).mp
          (sameEntity ▸ found))
  rw [hidden]
  exact and_congr_right fun _ => not_congr (and_iff_right rfl)

end Listing

/-! ### The commit -/

/-- Pending messages have no unique key, so saving them does not fail. -/
theorem saves_append (rt : Runtime S) {saves : List (Entity S)} (rows : List (Entity S))
    (append : ∀ e ∈ saves, e.typ.saveMode = .append) :
    saves.foldlM (executeSave rt) rows = .ok (rows ++ saves) := by
  induction saves generalizing rows with
  | nil => simp [pure, Except.pure]
  | cons entity rest ih =>
    have first : executeSave rt rows entity = .ok (rows ++ [entity]) := by
      rw [executeSave, append entity List.mem_cons_self]
    rw [List.foldlM_cons, first]
    exact (ih _ fun e member => append e (List.mem_cons_of_mem _ member)).trans
      (by rw [List.append_assoc, List.singleton_append])

/-- A commit leaves what is stored or newest in the conversations that are not marked. -/
theorem executeIn_ofPending (rows : List (Entity S)) {saves : List (Entity S)} {deletes : List EntityId}
    {operations : List PendingOperation}
    (allSaves : saves.Perm (rt.values (KeystoreTransaction.ofPending rt operations).cache))
    (allDeletes : deletes.Perm (KeystoreTransaction.ofPending rt operations).deleted) :
    ∃ written, executeIn rt saves deletes rows = .ok written ∧
      ∀ entry : Bytes × Bytes, .mlsPendingMessage entry.1 entry.2 ∈ written ↔
        (entry ∈ storedPending rows ∨ Newest rt operations entry) ∧
          ¬ Marked rt operations entry.1 := by
  have keyed := KeystoreTransaction.wellKeyed_ofPending rt operations
  have inCache (e : Entity S) : e ∈ saves ↔
      e ∈ (KeystoreTransaction.ofPending rt operations).cache.entries.map Sigma.snd := by
    rw [allSaves.mem_iff, (rt.perm _).mem_iff]
  have append (e : Entity S) (member : e ∈ saves) : e.typ.saveMode = .append := by
    obtain ⟨cached, isCached, rfl⟩ := List.mem_map.mp ((inCache e).mp member)
    rw [KeystoreTransaction.typ_ofPending rt operations cached isCached]
    rfl
  have savesOk := saves_append rt rows append
  refine ⟨deletes.foldl (executeDelete rt) (rows ++ saves), by rw [executeIn, savesOk]; rfl,
    fun entry => ?_⟩
  have newest : .mlsPendingMessage entry.1 entry.2 ∈ saves ↔ Newest rt operations entry := by
    have cached := mem_cachedPending_iff keyed entry.1 (.mlsPendingMessage entry.1 entry.2)
    rw [KeystoreTransaction.cachedPending, List.mem_filter,
      KeystoreTransaction.lookup_ofPending] at cached
    rw [inCache]
    simpa [Entity.foreignId?] using cached
  rw [mem_deletes rt deletes _ rfl, List.mem_append, newest, mem_storedPending,
    allDeletes.mem_iff, KeystoreTransaction.mem_deleted_ofPending]
  simp only [true_and]

/-! ### The condition -/

/-- **Pending messages in order.**  At any point a listing shows what is left of the messages of
a conversation, and so does the table after the commit, in whatever order it is executed. -/
structure PendingInOrder (rt : Runtime S) (rows : List (Entity S))
    (operations : List PendingOperation) : Prop where
  find : ∀ earlier, earlier <+: operations → ∀ permits conversationId,
    ∃ found, (Database.mk (some rows) (some (.ofPending rt earlier))
        permits).findPendingMessagesByConversationId rt conversationId = .ok found ∧
      ∀ e, e ∈ found ↔ ∃ message, e = .mlsPendingMessage conversationId message ∧
        (conversationId, message) ∈ inOrder (storedPending rows) earlier
  commit : ∀ saves deletes,
    saves.Perm (rt.values (KeystoreTransaction.ofPending rt operations).cache) →
    deletes.Perm (KeystoreTransaction.ofPending rt operations).deleted →
    ∃ written, executeIn rt saves deletes rows = .ok written ∧
      ∀ entry : Bytes × Bytes, .mlsPendingMessage entry.1 entry.2 ∈ written ↔
        entry ∈ inOrder (storedPending rows) operations

/-- No key gets in the way of the messages after some operations: those of one conversation that are
left have different keys, none of which is marked as removed; a saved message that is left was saved
last under its key, unless it is stored as well; and a stored message of a removed conversation has a
key that is marked, or that of a message of the conversation that is left of the saved ones. -/
@[mk_iff]
structure Undisturbed (rt : Runtime S) (rows : List (Entity S)) (operations : List PendingOperation) :
    Prop where
  apart : ∀ p ∈ inOrder (storedPending rows) operations,
    ∀ q ∈ inOrder (storedPending rows) operations,
      p.1 = q.1 → pendingKey rt p = pendingKey rt q → p = q
  unmarked : ∀ p ∈ inOrder (storedPending rows) operations,
    ¬ Marked rt operations (pendingKey rt p)
  kept : ∀ p ∈ inOrder [] operations, p ∈ storedPending rows ∨
    lastBy (pendingKey rt) (savedPending operations) (pendingKey rt p) = some p
  hidden : ∀ p ∈ storedPending rows, removeAll p.1 ∈ operations →
    Marked rt operations (pendingKey rt p) ∨
      ∃ q ∈ inOrder [] operations, q.1 = p.1 ∧ pendingKey rt q = pendingKey rt p

/-- A removed conversation has no saved messages left if its id is marked; otherwise its stored
messages were all saved again. -/
def RemovalsLast (rt : Runtime S) (rows : List (Entity S)) (operations : List PendingOperation) :
    Prop :=
  ∀ p : Bytes × Bytes, removeAll p.1 ∈ operations →
    (Marked rt operations p.1 → p ∉ inOrder [] operations) ∧
      (¬ Marked rt operations p.1 → p ∈ storedPending rows → p ∈ inOrder [] operations)

section Condition

variable {rows : List (Entity S)} {operations : List PendingOperation}

theorem find_iff_retrievable (permits : Nat) (conversationId : Bytes) :
    (∃ found, (Database.mk (some rows) (some (.ofPending rt operations))
        permits).findPendingMessagesByConversationId rt conversationId = .ok found ∧
      ∀ e, e ∈ found ↔ ∃ message, e = .mlsPendingMessage conversationId message ∧
        (conversationId, message) ∈ inOrder (storedPending rows) operations) ↔
      ∀ message, Retrievable rt rows (.ofPending rt operations) (conversationId, message) ↔
        (conversationId, message) ∈ inOrder (storedPending rows) operations := by
  simp only [Database.findPending_open, Except.ok.injEq, exists_eq_left']
  constructor
  · intro shown message
    rw [← mem_listedPending, shown]
    simp
  · intro shown e
    constructor
    · intro listed
      obtain ⟨message, rfl⟩ := (foreignId_iff e _).mp (KeystoreTransaction.foreignId_of_listed
        (KeystoreTransaction.wellKeyed_ofPending rt operations) listed)
      exact ⟨message, rfl, (shown message).mp ((mem_listedPending _ _).mp listed)⟩
    · rintro ⟨message, rfl, left⟩
      exact (mem_listedPending _ _).mpr ((shown message).mpr left)

/-- At one point, given that the stored messages of one conversation have different keys. -/
theorem retrievable_iff_undisturbed (distinct : ∀ conversationId, StoredApart rt rows conversationId) :
    (∀ p, Retrievable rt rows (.ofPending rt operations) p ↔
        p ∈ inOrder (storedPending rows) operations) ↔ Undisturbed rt rows operations := by
  have listed (p : Bytes × Bytes) := retrievable_ofPending_iff (distinct p.1) operations
  constructor
  · intro shown
    refine ⟨fun p inP q inQ sameId sameKey => ?_, fun p inP => ?_, fun p left => ?_,
      fun p stored removed => ?_⟩
    · exact retrievable_unique sameId sameKey ((shown p).mpr inP) ((shown q).mpr inQ)
    · exact ((listed p).mp ((shown p).mpr inP)).2
    · have isShown := (shown p).mpr ((mem_inOrder _ _ p).mpr (.inr left))
      exact ((listed p).mp isShown).1.symm.imp And.left And.right
    · by_contra neither
      rw [not_or, not_exists] at neither
      -- it would be listed, although its conversation was removed
      have isShown := (listed p).mpr ⟨.inr ⟨stored, fun other sameId sameKey newest =>
        neither.2 other ⟨newest.1, sameId, sameKey⟩⟩, neither.1⟩
      rcases (mem_inOrder _ _ p).mp ((shown p).mp isShown) with ⟨-, kept⟩ | left
      · exact kept removed
      · exact neither.2 p ⟨left, rfl, rfl⟩
  · intro undisturbed p
    rw [listed p]
    constructor
    · rintro ⟨newest | ⟨stored, shown⟩, unmarked⟩
      · exact (mem_inOrder _ _ p).mpr (.inr newest.1)
      · rw [mem_inOrder]
        by_cases removed : removeAll p.1 ∈ operations
        · right
          rcases undisturbed.hidden p stored removed with marked | ⟨q, left, sameId, sameKey⟩
          · exact absurd marked unmarked
          · -- the message with its key is the same one
            rcases undisturbed.kept q left with storedToo | last
            · obtain ⟨c, m⟩ := p
              obtain ⟨c', m'⟩ := q
              cases sameId
              cases distinct c m' m ((mem_storedPending _ _ _).mp storedToo)
                ((mem_storedPending _ _ _).mp stored) sameKey
              exact left
            · exact absurd ⟨left, last⟩ (shown q sameId sameKey)
        · exact .inl ⟨stored, removed⟩
    · intro inP
      refine ⟨?_, undisturbed.unmarked p inP⟩
      by_cases newest : Newest rt operations p
      · exact .inl newest
      · refine .inr ⟨?_, fun other sameId sameKey isNewest => newest ?_⟩
        · rcases (mem_inOrder _ _ p).mp inP with ⟨stored, -⟩ | left
          · exact stored
          · exact (undisturbed.kept p left).resolve_right fun last => newest ⟨left, last⟩
        · rwa [← undisturbed.apart other ((mem_inOrder _ _ _).mpr (.inr isNewest.1)) p inP sameId
            sameKey]

theorem storedApart_of_apart (apart : ∀ p ∈ storedPending rows, ∀ q ∈ storedPending rows,
    p.1 = q.1 → pendingKey rt p = pendingKey rt q → p = q) (conversationId : Bytes) :
    StoredApart rt rows conversationId :=
  fun m m' stored stored' sameKey => congrArg Prod.snd (apart (conversationId, m)
    ((mem_storedPending _ _ _).mpr stored) (conversationId, m')
    ((mem_storedPending _ _ _).mpr stored') rfl sameKey)

/-- What the commit has to leave, once every listing is right. -/
theorem commit_iff_removalsLast (undisturbed : Undisturbed rt rows operations) :
    (∀ p, ((p ∈ storedPending rows ∨ Newest rt operations p) ∧ ¬ Marked rt operations p.1 ↔
        p ∈ inOrder (storedPending rows) operations)) ↔ RemovalsLast rt rows operations := by
  have kept (p) (left : p ∈ inOrder [] operations) :
      p ∈ storedPending rows ∨ Newest rt operations p :=
    (undisturbed.kept p left).imp_right fun last => ⟨left, last⟩
  simp only [mem_inOrder (storedPending rows)]
  constructor
  · intro written p removed
    refine ⟨fun marked left => ((written p).mpr (.inr left)).2 marked, fun unmarked stored => ?_⟩
    exact ((written p).mp ⟨.inl stored, unmarked⟩).resolve_left fun stays => stays.2 removed
  · intro last p
    constructor
    · rintro ⟨stored | newest, unmarked⟩
      · by_cases removed : removeAll p.1 ∈ operations
        · exact .inr ((last p removed).2 unmarked stored)
        · exact .inl ⟨stored, removed⟩
      · exact .inr newest.1
    · rintro (⟨stored, stays⟩ | left)
      · exact ⟨.inl stored, fun marked => stays (removed_of_marked marked)⟩
      · exact ⟨kept p left, fun marked => (last p (removed_of_marked marked)).1 marked left⟩

end Condition

/-- The transaction treats the pending messages as if its operations were executed in order, if
and only if at no point a key gets in the way, and at the end nothing is left of the saved messages
of a conversation that is still marked as removed. -/
theorem pendingInOrder_iff_undisturbed (rt : Runtime S) (rows : List (Entity S))
    (operations : List PendingOperation) :
    PendingInOrder rt rows operations ↔
      (∀ earlier, earlier <+: operations → Undisturbed rt rows earlier) ∧
        RemovalsLast rt rows operations := by
  have complete := List.prefix_refl operations
  have empty : [] <+: operations := List.nil_prefix
  constructor
  · intro ordered
    have shown (earlier) (isPrefix : earlier <+: operations) (p : Bytes × Bytes) :
        Retrievable rt rows (.ofPending rt earlier) p ↔
          p ∈ inOrder (storedPending rows) earlier :=
      (find_iff_retrievable 0 p.1).mp (ordered.find earlier isPrefix 0 p.1) p.2
    have distinct (conversationId) : StoredApart rt rows conversationId :=
      storedApart_of_apart (fun p inP q inQ sameId sameKey => retrievable_unique sameId sameKey
        ((shown [] empty p).mpr inP) ((shown [] empty q).mpr inQ)) conversationId
    have undisturbed (earlier) (isPrefix : earlier <+: operations) : Undisturbed rt rows earlier :=
      (retrievable_iff_undisturbed distinct).mp (shown earlier isPrefix)
    refine ⟨undisturbed, (commit_iff_removalsLast (undisturbed _ complete)).mp fun p => ?_⟩
    obtain ⟨written, ok, left⟩ := ordered.commit _ _ (.refl _) (.refl _)
    obtain ⟨written', ok', kept⟩ := executeIn_ofPending rows (.refl _) (.refl _)
    cases ok.symm.trans ok'
    exact (kept p).symm.trans (left p)
  · rintro ⟨undisturbed, last⟩
    have distinct := storedApart_of_apart (undisturbed [] empty).apart
    constructor
    · intro earlier isPrefix permits conversationId
      exact (find_iff_retrievable permits conversationId).mpr fun message =>
        (retrievable_iff_undisturbed distinct).mpr (undisturbed earlier isPrefix) _
    · intro saves deletes allSaves allDeletes
      obtain ⟨written, ok, kept⟩ := executeIn_ofPending rows allSaves allDeletes
      exact ⟨written, ok, fun entry => (kept entry).trans
        ((commit_iff_removalsLast (undisturbed _ complete)).mpr last entry)⟩

def sampleOperations : List PendingOperation :=
  [save [1] [7], removeAll [1], save [2] [8]]

instance (rows : List (Entity S)) (operations : List PendingOperation) :
    Decidable (Undisturbed rt rows operations) :=
  decidable_of_iff' _ (undisturbed_iff rt rows operations)

theorem pendingInOrder_iff_undisturbed_sample :
    PendingInOrder (.newestFirst id) [(Entity.mlsPendingMessage [2] [5] : Entity Unit)]
      sampleOperations :=
  (pendingInOrder_iff_undisturbed (.newestFirst id) _ sampleOperations).mpr
    ⟨by
      simp only [← List.mem_inits]
      decide, by
      rintro ⟨conversationId, message⟩ removed
      obtain rfl : conversationId = [1] := by simpa [sampleOperations] using removed
      refine ⟨fun _ left => ?_, fun _ stored => ?_⟩
      · simp [inOrder, run, onTable, sampleOperations] at left
      · simp [storedPending, Entity.pending?] at stored⟩

/-- A message is stored, the messages of its conversation are removed and another one is saved:
the listing shows both, and the commit leaves none. -/
theorem removal_hides_nothing_and_deletes_later_save :
    ∃ found, (Database.mk (some [(Entity.mlsPendingMessage [1] [7] : Entity Unit)])
        (some (.ofPending (.newestFirst id) [removeAll [1], save [1] [8]]))
        0).findPendingMessagesByConversationId (.newestFirst id) [1] = .ok found ∧
      .mlsPendingMessage [1] [7] ∈ found ∧
      (KeystoreTransaction.ofPending (.newestFirst id) [removeAll [1], save [1] [8]]).commit
        (.newestFirst id) (some [(Entity.mlsPendingMessage [1] [7] : Entity Unit)]) none = .ok [] ∧
      inOrder (storedPending [(Entity.mlsPendingMessage [1] [7] : Entity Unit)])
        [removeAll [1], save [1] [8]] = [([1], [8])] :=
  ⟨_, rfl, by decide, rfl, rfl⟩

/-! ### Two messages in one transaction -/

/-- The transaction after two messages were saved one after the other. -/
def KeystoreTransaction.saveBoth (rt : Runtime S) (tx : KeystoreTransaction S)
    (first second : Bytes × Bytes) : KeystoreTransaction S :=
  (tx.save rt (.mlsPendingMessage first.1 first.2)).save rt (.mlsPendingMessage second.1 second.2)

/-- The byte strings under which the stored messages and the given ones are hashed. -/
def HashedBytes (rows : List (Entity S)) (messages : List (Bytes × Bytes)) : Set Bytes :=
  {bytes | ∃ f m, (.mlsPendingMessage f m ∈ rows ∨ (f, m) ∈ messages) ∧ bytes = f ++ m}

/-- **Two messages in one transaction**: if the hash has no collision on the byte strings at hand,
two different messages that are saved one after the other are both found again if and only if the
concatenations of conversation id and message differ, or the first one had been stored before. -/
theorem both_retrievable_iff (rt : Runtime S) (tx : KeystoreTransaction S) (keyed : tx.WellKeyed rt)
    (rows : List (Entity S)) (first second : Bytes × Bytes) (different : first ≠ second)
    (injective : Set.InjOn rt.xxh3 (HashedBytes rows [first, second])) :
    (Retrievable rt rows (tx.saveBoth rt first second) first ∧
        Retrievable rt rows (tx.saveBoth rt first second) second) ↔
      (first.1 ++ first.2 ≠ second.1 ++ second.2 ∨ .mlsPendingMessage first.1 first.2 ∈ rows) := by
  obtain ⟨f, m⟩ := first
  obtain ⟨f', m'⟩ := second
  have bothKeyed : (tx.saveBoth rt (f, m) (f', m')).WellKeyed rt :=
    KeystoreTransaction.wellKeyed_save rt _ _ (KeystoreTransaction.wellKeyed_save rt _ _ keyed)
  -- the key tells the messages of one conversation apart
  have distinct (conversationId : Bytes) : StoredApart rt rows conversationId := by
    intro n n' stored stored' same
    exact List.append_cancel_left
      (injective ⟨_, n, .inl stored, rfl⟩ ⟨_, n', .inl stored', rfl⟩ same)
  rw [retrievable_iff (distinct f) bothKeyed, retrievable_iff (distinct f') bothKeyed]
  have sameKey : rt.fromEntity (.mlsPendingMessage f m : Entity S) =
      rt.fromEntity (.mlsPendingMessage f' m') ↔ f ++ m = f' ++ m' := by
    refine ⟨fun equal => ?_, fun equal => by simp [Runtime.fromEntity, Entity.primaryKey, equal, Entity.typ]⟩
    exact injective ⟨f, m, by simp⟩ ⟨f', m', by simp⟩ (congrArg EntityId.id equal)
  by_cases same : f ++ m = f' ++ m'
  · -- the second message has taken the place of the first one
    have key := sameKey.mpr same
    have other : f' ≠ f := by
      rintro rfl
      exact different (by rw [List.append_cancel_left same])
    rw [key]
    simp [KeystoreTransaction.saveBoth, KeystoreTransaction.save, same, other, Entity.foreignId?]
  · have key : rt.fromEntity (.mlsPendingMessage f m : Entity S) ≠
        rt.fromEntity (.mlsPendingMessage f' m') := fun equal => same (sameKey.mp equal)
    simp [KeystoreTransaction.saveBoth, KeystoreTransaction.save, key, same,
      AList.lookup_insert_ne key]

theorem both_retrievable_iff_sample :
    Retrievable (S := Unit) (.newestFirst id) []
        (KeystoreTransaction.new.saveBoth (.newestFirst id) ([1], [7]) ([2], [8])) ([1], [7]) ∧
      Retrievable (S := Unit) (.newestFirst id) []
        (KeystoreTransaction.new.saveBoth (.newestFirst id) ([1], [7]) ([2], [8])) ([2], [8]) :=
  (both_retrievable_iff (.newestFirst id) .new (KeystoreTransaction.wellKeyed_new _) [] ([1], [7])
    ([2], [8]) (by decide) fun _ _ _ _ same => same).mpr (.inl (by decide))

/-- Message [3] of conversation [1, 2] and message [2, 3] of conversation [1] have one key, and the
second one takes the place of the first. -/
theorem messages_of_two_conversations_collide :
    (([1, 2], [3]) : Bytes × Bytes) ≠ ([1], [2, 3]) ∧
      (Database.mk (some []) (some (KeystoreTransaction.new.saveBoth (S := Unit) (.newestFirst id)
        ([1, 2], [3]) ([1], [2, 3]))) 0).findPendingMessagesByConversationId (.newestFirst id) [1, 2] =
        .ok [] ∧
      ¬ Retrievable (S := Unit) (.newestFirst id) []
        (KeystoreTransaction.new.saveBoth (.newestFirst id) ([1, 2], [3]) ([1], [2, 3]))
        ([1, 2], [3]) := by
  refine ⟨by decide, rfl, ?_⟩
  rintro ⟨found, listed, member⟩
  cases listed
  cases member

end CoreCrypto.Keystore
