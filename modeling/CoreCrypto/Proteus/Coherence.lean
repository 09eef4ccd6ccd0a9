import CoreCrypto.Proteus.Central
import CoreCrypto.Keystore.Reads
import CoreCrypto.TransactionContext.Lifecycle

/-!
# Coherence of the Proteus client with the keystore

Inside a transaction every cached session is the one that is saved in it, or stored otherwise, and so
is the identity.  A commit carries this over to the stored rows; `abort` and a failed `finish` do so
only if the transaction wrote neither.  A stored session is never found again: its id is a text, and
the keystore looks for bytes.
-/

namespace CoreCrypto.Proteus

open Keystore Library

variable {S H : Type} {lib : ProteusLibrary} {env : Env lib S} {tx' : KeystoreTransaction S}
  {err : ProteusError → Env lib S → Prop}

/-- What is relied on of the protocol library: encodings round trip and do not fail, a
session keeps its local identity, and an operation that fails leaves the session. -/
structure ProteusLaws (lib : ProteusLibrary) : Prop where
  rawKeyPair : ∀ identity,
    lib.fromRawKeyPair (lib.toRawKeyPair identity).1 (lib.toRawKeyPair identity).2 = .ok identity
  roundTrip : ∀ session raw, lib.serialise session = .ok raw →
    lib.deserialise (lib.localIdentity session) raw = .ok session
  serialises : ∀ session, ∃ raw, lib.serialise session = .ok raw
  envelopeSerialises : ∀ envelope, ∃ bytes, lib.serialiseEnvelope envelope = .ok bytes
  deserialised : ∀ identity raw session, lib.deserialise identity raw = .ok session →
    lib.localIdentity session = identity
  fromPrekey : ∀ identity key seed session, lib.initFromPrekey identity key seed = .ok session →
    lib.localIdentity session = identity
  fromMessage : ∀ identity store envelope seed session payload,
    (lib.initFromMessage identity store envelope seed).1 = .ok (session, payload) →
    lib.localIdentity session = identity
  encrypted : ∀ session plaintext seed,
    lib.localIdentity (lib.encrypt session plaintext seed).2 = lib.localIdentity session
  decrypted : ∀ session store ciphertext seed,
    lib.localIdentity (lib.decrypt session store ciphertext seed).2.1 = lib.localIdentity session
  encryptFails : ∀ session plaintext seed error,
    (lib.encrypt session plaintext seed).1 = .error error →
    (lib.encrypt session plaintext seed).2 = session
  decryptFails : ∀ session store ciphertext seed error,
    (lib.decrypt session store ciphertext seed).1 = .error error →
    (lib.decrypt session store ciphertext seed).2.1 = session

/-! ### What the store holds -/

section Store

variable (rt : Runtime S) (lib) (rows : List (Entity S)) (tx : KeystoreTransaction S)

/-- The identity that is read through the transaction. -/
def PersistedIdentity (identity : lib.Identity) : Prop :=
  ∃ sk pk, tx.read rt rows identityId = some (.proteusIdentity sk pk) ∧
    lib.fromRawKeyPair sk pk = .ok identity

/-- The session is the one of the row under its identifier, saved in the transaction or stored. -/
def PersistedSession (identity : lib.Identity) (conversation : ProteusConversationSession lib) :
    Prop :=
  ∃ raw, tx.read rt rows (sessionId conversation.identifier) =
      some (.proteusSession conversation.identifier raw) ∧
    lib.deserialise identity raw = .ok conversation.session

structure StoreCoherent : Prop where
  keyed : tx.WellKeyed rt
  identityKept : ∀ d ∈ tx.deleted, d.typ ≠ .proteusIdentity
  identityOnce : tx.cache.lookup identityId = none ∨ storedRow rt rows identityId = none
  identity : ∀ entity, tx.read rt rows identityId = some entity →
    ∃ sk pk identity, entity = .proteusIdentity sk pk ∧ lib.fromRawKeyPair sk pk = .ok identity
  sessions : ∀ id entity, tx.cache.lookup (sessionId id) = some entity →
    ∃ identity session raw, entity = .proteusSession id raw ∧
      PersistedIdentity lib rt rows tx identity ∧ lib.deserialise identity raw = .ok session

structure CentralCoherent (central : ProteusCentral lib) : Prop where
  identity : PersistedIdentity lib rt rows tx central.proteusIdentity
  sessions : ∀ id conversation, central.proteusSessions.peek id = some conversation →
    conversation.identifier = id ∧
      PersistedSession lib rt rows tx central.proteusIdentity conversation

end Store

variable {rt : Runtime S} {rows : List (Entity S)} {tx : KeystoreTransaction S}

theorem PersistedIdentity.unique {a b : lib.Identity} (first : PersistedIdentity lib rt rows tx a)
    (second : PersistedIdentity lib rt rows tx b) : a = b := by
  obtain ⟨sk, pk, found, loaded⟩ := first
  obtain ⟨sk', pk', found', loaded'⟩ := second
  rw [found] at found'
  cases found'
  rw [loaded] at loaded'
  cases loaded'
  rfl

/-! ### Reads of Proteus entities -/

/-- The collections the Proteus client keeps its state in. -/
def isProteus : EntityType → Bool
  | .proteusIdentity => true
  | .proteusSession => true
  | _ => false

/-- Two states of the store: the second one has the identity and the sessions of the first. -/
structure SameReads (rt : Runtime S) (rows : List (Entity S)) (tx : KeystoreTransaction S)
    (rows' : List (Entity S)) (tx' : KeystoreTransaction S) : Prop where
  identity : tx'.read rt rows' identityId = tx.read rt rows identityId
  sessions : ∀ id entity, tx.read rt rows (sessionId id) = some entity →
    tx'.read rt rows' (sessionId id) = some entity

section SameReads

variable {rows' : List (Entity S)} {tx' : KeystoreTransaction S}

theorem SameReads.persistedIdentity (same : SameReads rt rows tx rows' tx')
    (identity : lib.Identity) :
    PersistedIdentity lib rt rows' tx' identity ↔ PersistedIdentity lib rt rows tx identity := by
  simp only [PersistedIdentity, same.identity]

theorem SameReads.storeCoherent (same : SameReads rt rows tx rows' tx')
    (store : StoreCoherent lib rt rows tx) (keyed : tx'.WellKeyed rt)
    (identityKept : ∀ d ∈ tx'.deleted, d.typ ≠ .proteusIdentity)
    (identityOnce : tx'.cache.lookup identityId = none ∨ storedRow rt rows' identityId = none)
    (saved : ∀ id entity, tx'.cache.lookup (sessionId id) = some entity →
      tx.cache.lookup (sessionId id) = some entity) : StoreCoherent lib rt rows' tx' := by
  refine ⟨keyed, identityKept, identityOnce, ?_, ?_⟩
  · rw [same.identity]
    exact store.identity
  · intro id entity found
    obtain ⟨identity, session, raw, shape, persisted, decoded⟩ :=
      store.sessions id entity (saved id entity found)
    exact ⟨identity, session, raw, shape, (same.persistedIdentity identity).mpr persisted, decoded⟩

theorem SameReads.centralCoherent (same : SameReads rt rows tx rows' tx')
    {central : ProteusCentral lib} (coherent : CentralCoherent lib rt rows tx central) :
    CentralCoherent lib rt rows' tx' central := by
  refine ⟨(same.persistedIdentity _).mpr coherent.identity, ?_⟩
  intro id conversation cached
  obtain ⟨identifier, raw, found, decoded⟩ := coherent.sessions id conversation cached
  exact ⟨identifier, raw, same.sessions _ _ found, decoded⟩

/-- Stored rows alone, read through an empty transaction. -/
theorem SameReads.storeCoherent_new (same : SameReads rt rows tx rows' .new)
    (store : StoreCoherent lib rt rows tx) : StoreCoherent lib rt rows' .new :=
  same.storeCoherent store (KeystoreTransaction.wellKeyed_new rt) (by intro d member; cases member)
    (.inl rfl) (by rintro _ _ ⟨⟩)

end SameReads

/-! ### Writes of other collections -/

/-- A change of the transaction that leaves what it knows of Proteus entities. -/
structure ForeignWrite (rt : Runtime S) (tx tx' : KeystoreTransaction S) : Prop where
  keyed : tx.WellKeyed rt → tx'.WellKeyed rt
  deleted : ∀ d ∈ tx'.deleted, isProteus d.typ = true → d ∈ tx.deleted
  get : ∀ id, isProteus id.typ = true → tx'.getByEntityId id = tx.getByEntityId id
  lookup : ∀ id, isProteus id.typ = true → tx'.cache.lookup id = tx.cache.lookup id

theorem ForeignWrite.same (foreign : ForeignWrite rt tx tx') : SameReads rt rows tx rows tx' := by
  have same (id : EntityId) (proteus : isProteus id.typ = true) :
      tx'.read rt rows id = tx.read rt rows id := by
    rw [KeystoreTransaction.read, foreign.get id proteus, KeystoreTransaction.read]
  exact ⟨same identityId rfl, fun id entity found => (same (sessionId id) rfl).trans found⟩

theorem foreignWrite_refl : ForeignWrite rt tx tx :=
  ⟨fun h => h, fun _ h _ => h, fun _ _ => rfl, fun _ _ => rfl⟩

theorem ForeignWrite.trans {tx'' : KeystoreTransaction S} (first : ForeignWrite rt tx tx')
    (second : ForeignWrite rt tx' tx'') : ForeignWrite rt tx tx'' :=
  ⟨fun h => second.keyed (first.keyed h),
    fun d member proteus => first.deleted d (second.deleted d member proteus) proteus,
    fun id proteus => (second.get id proteus).trans (first.get id proteus),
    fun id proteus => (second.lookup id proteus).trans (first.lookup id proteus)⟩

theorem foreignWrite_save {entity : Entity S} (other : isProteus entity.typ = false) :
    ForeignWrite rt tx (tx.save rt entity) := by
  have differs (id : EntityId) (proteus : isProteus id.typ = true) :
      id ≠ rt.fromEntity entity := by
    rintro rfl
    rw [Runtime.fromEntity_typ, other] at proteus
    cases proteus
  have lookup (id : EntityId) (proteus : isProteus id.typ = true) :
      (tx.save rt entity).cache.lookup id = tx.cache.lookup id :=
    AList.lookup_insert_ne (differs id proteus)
  refine ⟨tx.wellKeyed_save rt entity, ?_, ?_, lookup⟩
  · intro d member _
    exact List.mem_of_mem_filter member
  · intro id proteus
    have same : id ∈ (tx.save rt entity).deleted ↔ id ∈ tx.deleted := by
      simp [KeystoreTransaction.save, differs id proteus]
    simp only [KeystoreTransaction.getByEntityId, same, lookup id proteus]

theorem foreignWrite_remove (removed : EntityId) (other : isProteus removed.typ = false) :
    ForeignWrite rt tx (tx.removeByEntityId removed) := by
  have differs (id : EntityId) (proteus : isProteus id.typ = true) : id ≠ removed := by
    rintro rfl
    rw [other] at proteus
    cases proteus
  have lookup (id : EntityId) (proteus : isProteus id.typ = true) :
      (tx.removeByEntityId removed).cache.lookup id = tx.cache.lookup id :=
    AList.lookup_erase_ne (differs id proteus)
  have same (id : EntityId) (proteus : isProteus id.typ = true) :
      id ∈ (tx.removeByEntityId removed).deleted ↔ id ∈ tx.deleted := by
    simp [KeystoreTransaction.removeByEntityId, differs id proteus]
  refine ⟨tx.wellKeyed_removeByEntityId rt removed, ?_, ?_, lookup⟩
  · intro d member proteus
    exact (same d proteus).mp member
  · intro id proteus
    simp only [KeystoreTransaction.getByEntityId, same id proteus, lookup id proteus]

theorem foreignWrite_removePendingMessages (conversationId : Bytes) (keyed : tx.WellKeyed rt) :
    ForeignWrite rt tx (tx.removePendingMessagesByConversationId conversationId) := by
  have lookup (id : EntityId) (proteus : isProteus id.typ = true) :
      (tx.removePendingMessagesByConversationId conversationId).cache.lookup id =
        tx.cache.lookup id := by
    ext entity
    rw [← Option.mem_def, ← Option.mem_def, AList.mem_lookup_iff, AList.mem_lookup_iff]
    constructor
    · exact List.mem_of_mem_filter
    · intro member
      have typ : entity.typ = id.typ := congrArg EntityId.typ (keyed _ member)
      refine List.mem_filter.mpr ⟨member, ?_⟩
      cases entity with
      | mlsPendingMessage foreignId message => rw [← typ] at proteus; cases proteus
      | _ => rfl
  have same (id : EntityId) (proteus : isProteus id.typ = true) :
      id ∈ (tx.removePendingMessagesByConversationId conversationId).deleted ↔ id ∈ tx.deleted := by
    have differs : id ≠ ⟨.mlsPendingMessage, conversationId⟩ := by
      rintro rfl
      cases proteus
    simp [KeystoreTransaction.removePendingMessagesByConversationId, differs]
  refine ⟨tx.wellKeyed_removePendingMessages rt conversationId, ?_, ?_, lookup⟩
  · intro d member proteus
    exact (same d proteus).mp member
  · intro id proteus
    simp only [KeystoreTransaction.getByEntityId, same id proteus, lookup id proteus]

theorem ForeignWrite.storeCoherent (foreign : ForeignWrite rt tx tx')
    (store : StoreCoherent lib rt rows tx) : StoreCoherent lib rt rows tx' := by
  apply foreign.same.storeCoherent store (foreign.keyed store.keyed)
  · intro d member typ
    exact store.identityKept d (foreign.deleted d member (by rw [typ]; rfl)) typ
  · rw [foreign.lookup identityId rfl]
    exact store.identityOnce
  · exact fun id entity found => (foreign.lookup (sessionId id) rfl).symm.trans found

/-! ### The open client -/

/-- A database with an open transaction. -/
def Live (database : Database S) (rows : List (Entity S)) (tx : KeystoreTransaction S) : Prop :=
  database = { conn := some rows, transaction := some tx, permits := 0 }

theorem Live.get (rt : Runtime S) {database : Database S} (live : Live database rows tx) (id : EntityId)
    (found : id.typ.saveMode ≠ .upsertText) : database.get rt id = .ok (tx.read rt rows id) := by
  subst live
  simp only [Database.get, Option.bind_some, KeystoreTransaction.read, found, ne_eq,
    not_false_eq_true, true_and]
  cases tx.getByEntityId id with
  | none => rfl
  | some record => rfl

/-- A session is found only if it was saved in the transaction. -/
theorem Live.getSession (rt : Runtime S) {database : Database S} (live : Live database rows tx)
    (id : Bytes) :
    database.get rt (sessionId id) = .ok ((tx.getByEntityId (sessionId id)).getD none) := by
  subst live
  simp only [Database.get, Option.bind_some]
  cases tx.getByEntityId (sessionId id) with
  | none => simp [Database.rows, Except.map, sessionId, EntityType.saveMode]
  | some record => rfl

theorem Live.save (rt : Runtime S) {database : Database S} (live : Live database rows tx) (entity : Entity S) :
    ∃ saved, database.save rt entity = (.ok (), saved) ∧ Live saved rows (tx.save rt entity) := by
  subst live
  exact ⟨_, rfl, rfl⟩

theorem Live.remove {database : Database S} (live : Live database rows tx) (id : EntityId) :
    ∃ removed, database.remove id = (.ok (), removed) ∧
      Live removed rows (tx.removeByEntityId id) := by
  subst live
  exact ⟨_, rfl, rfl⟩

/-- The client and the open transaction agree. -/
def Coherent (lib : ProteusLibrary) (rt : Runtime S) (rows : List (Entity S))
    (env : Env lib S) : Prop :=
  ∃ tx, Live env.database rows tx ∧ StoreCoherent lib rt rows tx ∧
    CentralCoherent lib rt rows tx env.central

/-- They agree, and also on this session. -/
def Loaded (rt : Runtime S) (rows : List (Entity S))
    (conversation : ProteusConversationSession lib) (env : Env lib S) : Prop :=
  ∃ tx, Live env.database rows tx ∧ StoreCoherent lib rt rows tx ∧
    CentralCoherent lib rt rows tx env.central ∧
    PersistedSession lib rt rows tx env.central.proteusIdentity conversation

/-- They agree but for this session, which is in the cache and not saved yet. -/
def Unsaved (rt : Runtime S) (rows : List (Entity S))
    (conversation : ProteusConversationSession lib) (env : Env lib S) : Prop :=
  ∃ tx, Live env.database rows tx ∧ StoreCoherent lib rt rows tx ∧
    PersistedIdentity lib rt rows tx env.central.proteusIdentity ∧
    lib.localIdentity conversation.session = env.central.proteusIdentity ∧
    ∀ id cached, env.central.proteusSessions.peek id = some cached →
      cached.identifier = id ∧ (cached = conversation ∨ id ≠ conversation.identifier ∧
        PersistedSession lib rt rows tx env.central.proteusIdentity cached)

theorem Loaded.coherent {conversation : ProteusConversationSession lib}
    (loaded : Loaded rt rows conversation env) : Coherent lib rt rows env := by
  obtain ⟨tx, live, store, central, -⟩ := loaded
  exact ⟨tx, live, store, central⟩

theorem Loaded.localIdentity (laws : ProteusLaws lib)
    {conversation : ProteusConversationSession lib} (loaded : Loaded rt rows conversation env) :
    lib.localIdentity conversation.session = env.central.proteusIdentity := by
  obtain ⟨tx, -, -, -, raw, -, decoded⟩ := loaded
  exact laws.deserialised _ raw _ decoded

theorem peek_insert_cases {cache : LruMap Bytes (ProteusConversationSession lib)
      proteusSessionCacheCapacity} {conversation cached : ProteusConversationSession lib}
    {id : Bytes} (found : (cache.insert conversation.identifier conversation).peek id = some cached) :
    id = conversation.identifier ∧ cached = conversation ∨
      id ≠ conversation.identifier ∧ cache.peek id = some cached := by
  by_cases same : id = conversation.identifier
  · subst same
    rw [LruMap.peek_insert_self _ _ _ (by decide)] at found
    cases found
    exact .inl ⟨rfl, rfl⟩
  · exact .inr ⟨same, LruMap.peek_of_peek_insert same found⟩

theorem insertSession_loaded (conversation : ProteusConversationSession lib) :
    Triple (Loaded rt rows conversation) (insertSession conversation)
      (fun _ => Loaded rt rows conversation) err := by
  apply triple_modify
  rintro env ⟨tx, live, store, central, persisted⟩
  refine ⟨tx, live, store, ⟨central.identity, ?_⟩, persisted⟩
  intro id cached found
  rcases peek_insert_cases found with ⟨rfl, rfl⟩ | ⟨-, older⟩
  · exact ⟨rfl, persisted⟩
  · exact central.sessions id cached older

theorem insertSession_unsaved (conversation : ProteusConversationSession lib) :
    Triple (fun env => Coherent lib rt rows env ∧
        lib.localIdentity conversation.session = env.central.proteusIdentity)
      (insertSession conversation) (fun _ => Unsaved rt rows conversation) err := by
  apply triple_modify
  rintro env ⟨⟨tx, live, store, central⟩, own⟩
  refine ⟨tx, live, store, central.identity, own, ?_⟩
  intro id cached found
  rcases peek_insert_cases found with ⟨rfl, rfl⟩ | ⟨other, older⟩
  · exact ⟨rfl, .inl rfl⟩
  · obtain ⟨identifier, persisted⟩ := central.sessions id cached older
    exact ⟨identifier, .inr ⟨other, persisted⟩⟩

/-! ### Saving a session -/

theorem sessionId_injective {a b : Bytes} (same : sessionId a = sessionId b) : a = b := by
  cases same
  rfl

section SaveSession

variable (id raw : Bytes)

theorem read_saveSession_identity :
    (tx.save rt (.proteusSession id raw)).read rt rows identityId = tx.read rt rows identityId :=
  tx.read_save_other rows (by intro same; cases same)

theorem read_saveSession_self :
    (tx.save rt (.proteusSession id raw)).read rt rows (sessionId id) =
      some (.proteusSession id raw) :=
  tx.read_save_self rt rows (.proteusSession id raw)

theorem read_saveSession_other (other : Bytes) (differs : other ≠ id) :
    (tx.save rt (.proteusSession id raw)).read rt rows (sessionId other) =
      tx.read rt rows (sessionId other) :=
  tx.read_save_other rows (fun same => differs (sessionId_injective same))

theorem persistedIdentity_saveSession (identity : lib.Identity) :
    PersistedIdentity lib rt rows (tx.save rt (.proteusSession id raw)) identity ↔
      PersistedIdentity lib rt rows tx identity := by
  simp only [PersistedIdentity, read_saveSession_identity]

theorem storeCoherent_saveSession {identity : lib.Identity} {session : lib.Session}
    (store : StoreCoherent lib rt rows tx) (persisted : PersistedIdentity lib rt rows tx identity)
    (decoded : lib.deserialise identity raw = .ok session) :
    StoreCoherent lib rt rows (tx.save rt (.proteusSession id raw)) := by
  refine ⟨tx.wellKeyed_save rt _ store.keyed, ?_, ?_, ?_, ?_⟩
  · intro d member
    exact store.identityKept d (List.mem_of_mem_filter member)
  · have same : (tx.save rt (.proteusSession id raw)).cache.lookup identityId =
        tx.cache.lookup identityId := AList.lookup_insert_ne (by intro same; cases same)
    rw [same]
    exact store.identityOnce
  · rw [read_saveSession_identity]
    exact store.identity
  · intro id' entity found
    by_cases same : id' = id
    · subst same
      rw [show (tx.save rt (.proteusSession id' raw)).cache.lookup (sessionId id') = _ from
        AList.lookup_insert _] at found
      cases found
      exact ⟨identity, session, raw, rfl,
        (persistedIdentity_saveSession id' raw identity).mpr persisted, decoded⟩
    · rw [show (tx.save rt (.proteusSession id raw)).cache.lookup (sessionId id') = _ from
        AList.lookup_insert_ne (fun isSame => same (sessionId_injective isSame))] at found
      obtain ⟨identity', session', raw', shape, persisted', decoded'⟩ :=
        store.sessions id' entity found
      exact ⟨identity', session', raw', shape,
        (persistedIdentity_saveSession id raw identity').mpr persisted', decoded'⟩

end SaveSession

theorem sessionSaveByRef_unsaved (laws : ProteusLaws lib)
    (conversation : ProteusConversationSession lib) :
    Triple (Unsaved rt rows conversation) (sessionSaveByRef rt conversation)
      (fun _ => Coherent lib rt rows) err := by
  rintro env ⟨tx, live, store, identity, own, sessions⟩
  obtain ⟨raw, encoded⟩ := laws.serialises conversation.session
  obtain ⟨saved, ok, live'⟩ := live.save rt (.proteusSession conversation.identifier raw)
  have decoded : lib.deserialise env.central.proteusIdentity raw = .ok conversation.session :=
    own ▸ laws.roundTrip _ raw encoded
  have run : sessionSaveByRef rt conversation env = .ok () { env with database := saved } := by
    simp only [sessionSaveByRef, encoded, ofLibrary, bind, EStateM.bind, pure, EStateM.pure, get,
      getThe, MonadStateOf.get, EStateM.get, ok, set, EStateM.set, ofKeystore]
  rw [run]
  refine ⟨_, live', storeCoherent_saveSession _ _ store identity decoded,
    (persistedIdentity_saveSession _ raw _).mpr identity, ?_⟩
  intro id cached found
  obtain ⟨rfl, rfl | ⟨other, raw', found', decoded'⟩⟩ := sessions id cached found
  · exact ⟨rfl, raw, read_saveSession_self _ raw, decoded⟩
  · refine ⟨rfl, raw', ?_, decoded'⟩
    rw [read_saveSession_other _ raw _ other]
    exact found'

theorem sessionSaveByRef_loaded (laws : ProteusLaws lib)
    (conversation : ProteusConversationSession lib) :
    Triple (Loaded rt rows conversation) (sessionSaveByRef rt conversation)
      (fun _ => Coherent lib rt rows) err := by
  apply triple_of_pre (sessionSaveByRef_unsaved laws conversation)
  intro env loaded
  have own := loaded.localIdentity laws
  obtain ⟨tx, live, store, central, persisted⟩ := loaded
  refine ⟨tx, live, store, central.identity, own, ?_⟩
  intro id cached found
  obtain ⟨rfl, cachedPersisted⟩ := central.sessions id cached found
  by_cases same : cached.identifier = conversation.identifier
  · -- both are read from the same row
    obtain ⟨raw, row, decoded⟩ := persisted
    obtain ⟨raw', row', decoded'⟩ := cachedPersisted
    rw [same, row] at row'
    cases cached
    cases conversation
    cases row'
    rw [decoded] at decoded'
    cases decoded'
    cases same
    exact ⟨rfl, .inl rfl⟩
  · exact ⟨rfl, .inr ⟨same, cachedPersisted⟩⟩

/-! ### Loading a session -/

theorem lookup_of_getByEntityId {id : EntityId} {entity : Entity S}
    (found : tx.getByEntityId id = some (some entity)) : tx.cache.lookup id = some entity := by
  rw [KeystoreTransaction.getByEntityId] at found
  split at found
  · cases found
  · simpa using found

/-- What `get_or_fetch` leaves: a session it returns is the one of the row. -/
def Fetched (rt : Runtime S) (rows : List (Entity S)) (id : Bytes) :
    Option (ProteusConversationSession lib) → Env lib S → Prop
  | some conversation, env => conversation.identifier = id ∧ Loaded rt rows conversation env
  | none, env => Coherent lib rt rows env

theorem getOrFetch_spec (id : Bytes) :
    Triple (Coherent lib rt rows) (getOrFetch rt id) (Fetched rt rows id) (fun _ => Coherent lib rt rows) := by
  apply triple_get_bind
  rintro env ⟨tx, live, store, central⟩
  cases cached : env.central.proteusSessions.peek id with
  | some conversation =>
    obtain ⟨identifier, persisted⟩ := central.sessions id conversation cached
    apply triple_bind (fun _ => Loaded rt rows conversation)
    · apply triple_modify
      rintro env' ⟨rfl, -⟩
      refine ⟨tx, live, store, ⟨central.identity, ?_⟩, persisted⟩
      intro id' conversation' found
      exact central.sessions id' conversation' (LruMap.peek_of_peek_touch found)
    · intro _
      exact triple_pure (fun _ loaded => ⟨identifier, loaded⟩)
  | none =>
    simp only [live.getSession rt id]
    cases found : (tx.getByEntityId (sessionId id)).getD none with
    | none =>
      rintro env' ⟨rfl, coherent⟩
      exact coherent
    | some entity =>
      have saved : tx.getByEntityId (sessionId id) = some (some entity) := by
        cases known : tx.getByEntityId (sessionId id) with
        | none => rw [known] at found; cases found
        | some record => rw [known] at found; exact congrArg some found
      have row : tx.read rt rows (sessionId id) = some entity := by
        rw [KeystoreTransaction.read, saved]
        rfl
      obtain ⟨identity, session, raw, rfl, identified, decoded⟩ :=
        store.sessions id entity (lookup_of_getByEntityId saved)
      have same := identified.unique central.identity
      subst same
      simp only [ofKeystore, pure_bind, decoded, ofLibrary]
      have persisted : PersistedSession lib rt rows tx env.central.proteusIdentity ⟨id, session⟩ :=
        ⟨raw, row, decoded⟩
      apply triple_bind (fun _ => Loaded rt rows ⟨id, session⟩)
      · apply triple_of_pre (insertSession_loaded ⟨id, session⟩)
        rintro env' ⟨rfl, -⟩
        exact ⟨tx, live, store, central, persisted⟩
      · intro _
        exact triple_pure (fun _ loaded => ⟨rfl, loaded⟩)

end CoreCrypto.Proteus
