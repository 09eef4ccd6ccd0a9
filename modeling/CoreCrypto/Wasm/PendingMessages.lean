import CoreCrypto.Wasm.Rekey
import CoreCrypto.Library.KeyedList

/-!
# Pending messages in browsers

`MlsPendingMessage` on `WasmEncryptedStorage`: a message is saved under the hash of conversation
and message, and looked for and deleted under the id of the conversation.
-/

namespace CoreCrypto.Wasm

open Library Library.Fallible Keystore

structure MlsPendingMessage where
  foreignId : Bytes
  message : Bytes
  deriving DecidableEq, Repr

namespace MlsPendingMessage

def toEntity (m : MlsPendingMessage) : Entity Bytes :=
  .mlsPendingMessage m.foreignId m.message

/-- `matches`: the message belongs to the conversation. -/
def belongsTo (m : MlsPendingMessage) (conversationId : Bytes) : Prop :=
  m.foreignId = conversationId

instance (m : MlsPendingMessage) (conversationId : Bytes) :
    Decidable (m.belongsTo conversationId) :=
  inferInstanceAs (Decidable (m.foreignId = conversationId))

/-- `MlsPendingMessagePrimaryKey`. -/
def key (hashes : Hashes) (m : MlsPendingMessage) : Bytes :=
  primaryKey hashes m.toEntity

theorem toEntity_injective {m m' : MlsPendingMessage} (same : m.toEntity = m'.toEntity) :
    m = m' := by
  cases m
  cases m'
  cases same
  rfl

theorem identify_toEntity (hashes : Hashes) (m : MlsPendingMessage) :
    identify hashes m.toEntity = ⟨.mlsPendingMessage, m.key hashes⟩ := rfl

end MlsPendingMessage

section Storage

variable {Key : Type} (gcm : AesGcm Key) (hashes : Hashes)

namespace WasmEncryptedStorage

def findAllMatching (conn : WasmEncryptedStorage Key) (conversationId : Bytes) :
    Except CryptoKeystoreError (List (Entity Bytes)) :=
  conn.getAllWithQuery gcm hashes .mlsPendingMessage (some conversationId)

def deleteAllMatching (conn : WasmEncryptedStorage Key) (conversationId : Bytes) :
    Except CryptoKeystoreError (WasmEncryptedStorage Key) := do
  let (_, after) ← conn.delete .mlsPendingMessage conversationId
  return after

/-- Messages saved one after the other, each with the nonces drawn for it. -/
def saveMessages (conn : WasmEncryptedStorage Key)
    (messages : List ((Nat → Nonce) × MlsPendingMessage)) :
    Except CryptoKeystoreError (WasmEncryptedStorage Key) :=
  messages.foldlM (fun conn m => conn.save gcm hashes m.1 m.2.toEntity) conn

/-- The pending messages in the storage are the stored ones, each under its own key. -/
structure Stores (conn : WasmEncryptedStorage Key) (stored : MlsPendingMessage → Prop) :
    Prop where
  row : ∀ m, stored m → ∃ row,
    conn.storage.rows.lookup ⟨.mlsPendingMessage, m.key hashes⟩ = some row ∧
      SealedAs gcm hashes conn.cipher m.toEntity row
  only : ∀ key row, conn.storage.rows.lookup ⟨.mlsPendingMessage, key⟩ = some row →
    ∃ m, stored m ∧ m.key hashes = key ∧ SealedAs gcm hashes conn.cipher m.toEntity row

variable {gcm hashes} {m : MlsPendingMessage}

/-! ### Reading and writing -/

theorem getAllWithQuery_of_stores {conn : WasmEncryptedStorage Key}
    {stored : MlsPendingMessage → Prop} (stores : conn.Stores gcm hashes stored)
    (query : Option Bytes) :
    ∃ list, conn.getAllWithQuery gcm hashes .mlsPendingMessage query = .ok list ∧
      ∀ m : MlsPendingMessage, m.toEntity ∈ list ↔ stored m ∧
        (conn.storage.isPersistent = true → ∀ queried ∈ query, m.key hashes = queried) := by
  obtain ⟨values, read⟩ : ∃ values, conn.storage.values .mlsPendingMessage query = .ok values := by
    cases conn.storage <;> exact ⟨_, rfl⟩
  have members := WasmStorageWrapper.mem_values read
  have loads (row : Entity Bytes) (member : row ∈ values) : ∃ m, stored m ∧
      (conn.storage.isPersistent = true → ∀ queried ∈ query, m.key hashes = queried) ∧
      conn.load gcm hashes .mlsPendingMessage row = .ok m.toEntity := by
    obtain ⟨key, found, queried⟩ := (members row).mp member
    obtain ⟨m, isStored, rfl, sealed⟩ := stores.only key row found
    exact ⟨m, isStored, queried, sealed.load rfl⟩
  have each : ∀ row ∈ values, ∃ entity,
      conn.load gcm hashes .mlsPendingMessage row = .ok entity := by
    intro row member
    obtain ⟨m, -, -, opened⟩ := loads row member
    exact ⟨m.toEntity, opened⟩
  obtain ⟨list, loaded, results⟩ := mapM_eq_ok each
  refine ⟨list, ?_, fun m => ?_⟩
  · rw [getAllWithQuery, read]
    exact loaded
  · rw [results]
    constructor
    · rintro ⟨row, member, opened⟩
      obtain ⟨other, isStored, queried, openedOther⟩ := loads row member
      rw [opened, Except.ok.injEq] at openedOther
      rw [MlsPendingMessage.toEntity_injective openedOther]
      exact ⟨isStored, queried⟩
    · rintro ⟨isStored, queried⟩
      obtain ⟨row, found, sealed⟩ := stores.row m isStored
      exact ⟨row, (members row).mpr ⟨m.key hashes, found, queried⟩, sealed.load rfl⟩

theorem stores_save {conn after : WasmEncryptedStorage Key} {stored : MlsPendingMessage → Prop}
    (stores : conn.Stores gcm hashes stored) {nonces : Nat → Nonce}
    (ok : conn.save gcm hashes nonces m.toEntity = .ok after) :
    after.storage.isPersistent = conn.storage.isPersistent ∧
      after.Stores gcm hashes fun other =>
        other = m ∨ stored other ∧ other.key hashes ≠ m.key hashes := by
  obtain ⟨row, sealed, rows, kind, cipher, -⟩ := save_eq_ok ok
  rw [MlsPendingMessage.identify_toEntity] at rows
  refine ⟨kind, ⟨fun other isStored => ?_, fun key found stands => ?_⟩⟩
  · rw [rows, cipher]
    rcases isStored with rfl | ⟨isStored, different⟩
    · exact ⟨row, AList.lookup_insert _, sealed⟩
    · rw [AList.lookup_insert_ne (by simpa using different)]
      exact stores.row other isStored
  · rw [rows] at stands
    rw [cipher]
    by_cases own : key = m.key hashes
    · subst own
      rw [AList.lookup_insert] at stands
      cases stands
      exact ⟨m, .inl rfl, rfl, sealed⟩
    · rw [AList.lookup_insert_ne (by simpa using own)] at stands
      obtain ⟨other, isStored, rfl, sealedOther⟩ := stores.only key found stands
      exact ⟨other, .inr ⟨isStored, own⟩, rfl, sealedOther⟩

theorem stores_deleteAllMatching {conn : WasmEncryptedStorage Key}
    {stored : MlsPendingMessage → Prop} (stores : conn.Stores gcm hashes stored)
    (conversationId : Bytes) :
    ∃ after, conn.deleteAllMatching conversationId = .ok after ∧
      after.storage.isPersistent = conn.storage.isPersistent ∧
      after.Stores gcm hashes fun m => stored m ∧ m.key hashes ≠ conversationId := by
  obtain ⟨⟨existed, after⟩, deleted⟩ :
      ∃ result, conn.delete .mlsPendingMessage conversationId = .ok result := by
    rcases conn with ⟨_ | _, _⟩ <;> exact ⟨_, rfl⟩
  obtain ⟨rows, kind, cipher⟩ := delete_eq_ok deleted
  refine ⟨after, ?_, kind, ⟨fun m isStored => ?_, fun key row stands => ?_⟩⟩
  · rw [deleteAllMatching, deleted]
    rfl
  · rw [rows, cipher, AList.lookup_erase_ne (by simpa using isStored.2)]
    exact stores.row m isStored.1
  · rw [rows] at stands
    rw [cipher]
    by_cases own : key = conversationId
    · rw [own, AList.lookup_erase] at stands
      cases stands
    · rw [AList.lookup_erase_ne (by simpa using own)] at stands
      obtain ⟨m, isStored, rfl, sealed⟩ := stores.only key row stands
      exact ⟨m, ⟨isStored, own⟩, rfl, sealed⟩

/-! ### Messages saved one after the other -/

/-- Of the messages with one key, the last one saved is stored. -/
def lastSaved (hashes : Hashes) (saved : List MlsPendingMessage) (m : MlsPendingMessage) : Prop :=
  lastBy (MlsPendingMessage.key hashes) saved (m.key hashes) = some m

theorem lastSaved_append (hashes : Hashes) (saved : List MlsPendingMessage)
    (m other : MlsPendingMessage) :
    lastSaved hashes (saved ++ [m]) other ↔
      other = m ∨ lastSaved hashes saved other ∧ other.key hashes ≠ m.key hashes := by
  unfold lastSaved
  by_cases own : other.key hashes = m.key hashes
  · rw [own, lastBy_append_self]
    simp [eq_comm]
  · rw [lastBy_append_other _ _ (Ne.symm own)]
    constructor
    · exact fun last => .inr ⟨last, own⟩
    · rintro (rfl | ⟨last, -⟩)
      · exact absurd rfl own
      · exact last

theorem stores_saveMessages {conn after : WasmEncryptedStorage Key}
    {earlier : List MlsPendingMessage} (stores : conn.Stores gcm hashes (lastSaved hashes earlier))
    {messages : List ((Nat → Nonce) × MlsPendingMessage)}
    (ok : conn.saveMessages gcm hashes messages = .ok after) :
    after.storage.isPersistent = conn.storage.isPersistent ∧
      after.Stores gcm hashes (lastSaved hashes (earlier ++ messages.map Prod.snd)) := by
  induction messages generalizing conn earlier with
  | nil =>
    cases ok
    simpa using stores
  | cons m rest ih =>
    rw [saveMessages, List.foldlM_cons] at ok
    obtain ⟨middle, saved, later⟩ := bind_eq_ok ok
    obtain ⟨kind, storesMiddle⟩ := stores_save stores saved
    have same : (fun other => other = m.2 ∨ lastSaved hashes earlier other ∧
        other.key hashes ≠ m.2.key hashes) = lastSaved hashes (earlier ++ [m.2]) :=
      funext fun other => propext (lastSaved_append hashes earlier m.2 other).symm
    obtain ⟨kindRest, storesRest⟩ := ih (same ▸ storesMiddle) later
    refine ⟨kindRest.trans kind, ?_⟩
    simpa using storesRest

/-- The messages of a conversation are found under its id, and with them deleted the messages of
the others remain. -/
structure Addressable (gcm : AesGcm Key) (hashes : Hashes) (conn : WasmEncryptedStorage Key)
    (saved : List MlsPendingMessage) (conversationId : Bytes) : Prop where
  found : ∃ list, conn.findAllMatching gcm hashes conversationId = .ok list ∧
    ∀ m : MlsPendingMessage, m.toEntity ∈ list ↔ m ∈ saved ∧ m.belongsTo conversationId
  remaining : ∃ after list, conn.deleteAllMatching conversationId = .ok after ∧
    after.getAll gcm hashes .mlsPendingMessage = .ok list ∧
      ∀ m : MlsPendingMessage, m.toEntity ∈ list ↔ m ∈ saved ∧ ¬ m.belongsTo conversationId

/-- The keys of the saved messages tell the messages apart, and the key of a message is the id of
the conversation exactly for the messages of the conversation; in memory, there are no others. -/
structure KeysAgree (hashes : Hashes) (isPersistent : Bool) (saved : List MlsPendingMessage)
    (conversationId : Bytes) : Prop where
  distinct : ∀ m ∈ saved, ∀ other ∈ saved, m.key hashes = other.key hashes → m = other
  key : ∀ m ∈ saved, m.key hashes = conversationId ↔ m.belongsTo conversationId
  inMemory : isPersistent = false → ∀ m ∈ saved, m.belongsTo conversationId

theorem mem_of_lastSaved {saved : List MlsPendingMessage}
    (last : lastSaved hashes saved m) : m ∈ saved :=
  (mem_of_lastBy _ last).1

theorem lastSaved_of_distinct {saved : List MlsPendingMessage}
    (distinct : ∀ m ∈ saved, ∀ other ∈ saved, m.key hashes = other.key hashes → m = other)
    (member : m ∈ saved) : lastSaved hashes saved m := by
  cases last : lastBy (MlsPendingMessage.key hashes) saved (m.key hashes) with
  | none => exact absurd rfl ((lastBy_eq_none _).mp last m member)
  | some other =>
    obtain ⟨otherMember, same⟩ := mem_of_lastBy _ last
    rw [lastSaved, last, distinct other otherMember m member same]

end WasmEncryptedStorage

end Storage

open WasmEncryptedStorage in
/-- **Pending messages by conversation.**  The messages of a conversation are found and deleted
under its id, on IndexedDB and in memory, if and only if the keys agree with the conversation. -/
theorem addressable_iff_keysAgree {Key : Type} (gcm : AesGcm Key) (hashes : Hashes)
    (start conn : WasmEncryptedStorage Key)
    (empty : ∀ id ∈ start.storage.rows, id.typ ≠ .mlsPendingMessage)
    (messages : List ((Nat → Nonce) × MlsPendingMessage))
    (ok : start.saveMessages gcm hashes messages = .ok conn) (conversationId : Bytes) :
    conn.Addressable gcm hashes (messages.map Prod.snd) conversationId ↔
      KeysAgree hashes start.storage.isPersistent (messages.map Prod.snd) conversationId := by
  have initial : start.Stores gcm hashes (lastSaved hashes []) := by
    refine ⟨fun m stored => (nomatch stored), fun key row stands => ?_⟩
    exact absurd rfl (empty ⟨_, key⟩ (AList.lookup_isSome.mp (by simp [stands])))
  obtain ⟨kind, stores⟩ := stores_saveMessages initial ok
  rw [List.nil_append] at stores
  generalize messages.map Prod.snd = saved at stores ⊢
  -- what the two operations give, in terms of the stored messages and their keys
  obtain ⟨foundList, find, found⟩ := getAllWithQuery_of_stores stores (some conversationId)
  obtain ⟨after, delete, kindAfter, storesAfter⟩ := stores_deleteAllMatching stores conversationId
  obtain ⟨restList, load, rest⟩ := getAllWithQuery_of_stores storesAfter none
  have listed (m : MlsPendingMessage) : m.toEntity ∈ foundList ↔ lastSaved hashes saved m ∧
      (start.storage.isPersistent = true → m.key hashes = conversationId) := by
    rw [found, kind]
    simp
  have remaining (m : MlsPendingMessage) : m.toEntity ∈ restList ↔ lastSaved hashes saved m ∧
      m.key hashes ≠ conversationId := by
    rw [rest]
    simp
  constructor
  · rintro ⟨⟨list, find', foundIff⟩, ⟨after', list', delete', load', restIff⟩⟩
    cases find.symm.trans find'
    cases delete.symm.trans delete'
    cases load.symm.trans load'
    have stored (m : MlsPendingMessage) (member : m ∈ saved) : lastSaved hashes saved m := by
      by_cases own : m.belongsTo conversationId
      · exact ((listed m).mp ((foundIff m).mpr ⟨member, own⟩)).1
      · exact ((remaining m).mp ((restIff m).mpr ⟨member, own⟩)).1
    refine ⟨?_, ?_, ?_⟩
    · intro m member other otherMember same
      have last := stored m member
      rw [lastSaved, same, stored other otherMember] at last
      cases last
      rfl
    · intro m member
      constructor
      · intro key
        by_contra foreign
        exact ((remaining m).mp ((restIff m).mpr ⟨member, foreign⟩)).2 key
      · intro own
        by_contra key
        exact ((restIff m).mp ((remaining m).mpr ⟨stored m member, key⟩)).2 own
    · intro inMemory m member
      refine ((foundIff m).mp ((listed m).mpr ⟨stored m member, fun persistent => ?_⟩)).2
      rw [inMemory] at persistent
      cases persistent
  · intro agree
    have stored (m : MlsPendingMessage) : lastSaved hashes saved m ↔ m ∈ saved :=
      ⟨mem_of_lastSaved, lastSaved_of_distinct agree.distinct⟩
    refine ⟨⟨foundList, find, fun m => ?_⟩, ⟨after, restList, delete, load, fun m => ?_⟩⟩
    · rw [listed, stored]
      refine and_congr_right fun member => ?_
      cases persistent : start.storage.isPersistent with
      | true => simpa using agree.key m member
      | false => simpa using agree.inMemory persistent m member
    · rw [remaining, stored]
      exact and_congr_right fun member => not_congr (agree.key m member)

/-- A message whose key is the id of its conversation, and one of another conversation. -/
def sampleMessages : List ((Nat → Nonce) × MlsPendingMessage) :=
  [(sampleNonces, ⟨List.replicate 16 1, [1]⟩), (sampleNonces, ⟨[2], [5]⟩)]

open WasmEncryptedStorage in
theorem addressable_iff_keysAgree_sample :
    ∃ conn, (new 1 (.persistent ∅)).saveMessages sampleCipher sampleHashes sampleMessages =
        .ok conn ∧
      conn.Addressable sampleCipher sampleHashes (sampleMessages.map Prod.snd)
        (List.replicate 16 1) := by
  cases saved : (new 1 (.persistent ∅)).saveMessages sampleCipher sampleHashes
      sampleMessages with
  | error err =>
    have succeeds : ((new 1 (.persistent ∅)).saveMessages sampleCipher sampleHashes
      sampleMessages).toBool = true := by decide +kernel
    rw [saved] at succeeds
    cases succeeds
  | ok conn =>
    refine ⟨conn, rfl, (addressable_iff_keysAgree sampleCipher sampleHashes _ conn
      (fun id member => absurd member (AList.notMem_empty id)) sampleMessages saved _).mpr
        ⟨?_, ?_, nofun⟩⟩
    · decide
    · decide

open WasmEncryptedStorage in
/-- A saved message is not found on IndexedDB under the id of its conversation, and not deleted;
in memory it is found under every id. -/
theorem pending_message_not_addressed_by_conversation :
    let saved (storage : WasmStorageWrapper) :=
      (new 1 storage).saveMessages sampleCipher sampleHashes [(sampleNonces, ⟨[1], [8]⟩)]
    (saved (.persistent ∅)).bind (·.findAllMatching sampleCipher sampleHashes [1]) = .ok [] ∧
    (saved (.persistent ∅)).bind (fun conn => (conn.deleteAllMatching [1]).bind
      (·.getAll sampleCipher sampleHashes .mlsPendingMessage)) =
        .ok [.mlsPendingMessage [1] [8]] ∧
    (saved (.inMemory ∅)).bind (·.findAllMatching sampleCipher sampleHashes [2]) =
      .ok [.mlsPendingMessage [1] [8]] := by
  decide +kernel

end CoreCrypto.Wasm
