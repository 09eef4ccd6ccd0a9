import CoreCrypto.Proteus.Operations

/-!
# Proteus state across transactions

Over every run in which no transaction that wrote Proteus state is undone under an open client, the
client mirrors the stored rows whenever no transaction is open.  What it finds depends on its cache
as soon as a session is stored.
-/

namespace CoreCrypto.Proteus

open Keystore Library TransactionContext

variable {S H : Type} {lib : ProteusLibrary} {engine : Option CryptoKeystoreError}
  {central : ProteusCentral lib}

/-! ### The client and its steps -/

/-- A Proteus call through a transaction context, but `proteus_init`. -/
inductive Call (lib : ProteusLibrary) where
  | sessionFromPrekey (id key : Bytes) (seed : lib.Seed)
  | sessionFromMessage (id envelope : Bytes) (seed : lib.Seed)
  | sessionSave (id : Bytes)
  | sessionDelete (id : Bytes)
  | sessionExists (id : Bytes)
  | encrypt (id plaintext : Bytes) (seed : lib.Seed)
  | encryptBatched (sessions : List (Bytes × lib.Seed)) (plaintext : Bytes)
  | decrypt (id ciphertext : Bytes) (seed : lib.Seed)

def Call.op (rt : Runtime S) : Call lib → Op lib S Unit
  | sessionFromPrekey id key seed => Proteus.sessionFromPrekey rt id key seed
  | sessionFromMessage id envelope seed => do
    let _ ← Proteus.sessionFromMessage rt id envelope seed
  | sessionSave id => Proteus.sessionSave rt id
  | sessionDelete id => Proteus.sessionDelete id
  | sessionExists id => do let _ ← Proteus.sessionExists rt id
  | encrypt id plaintext seed => do let _ ← Proteus.encrypt rt id plaintext seed
  | encryptBatched sessions plaintext => do
    let _ ← Proteus.encryptBatched rt plaintext ∅ sessions
  | decrypt id ciphertext seed => do let _ ← Proteus.decrypt rt id ciphertext seed

/-- The client with its most recent context; an earlier one is invalid. -/
structure World (lib : ProteusLibrary) (S H : Type) where
  core : Core S H (ProteusCentral lib)
  inner : TransactionContextInner

inductive Step (lib : ProteusLibrary) (S : Type) where
  | new
  | proteusInit (seed lastResortSeed : lib.Seed)
  | call (call : Call lib)
  | saveOther (entity : { entity : Entity S // isProteus entity.typ = false })
  | removeOther (id : { id : EntityId // isProteus id.typ = false })
  | removePendingMessages (conversationId : Bytes)
  | finish (engine : Option CryptoKeystoreError)
  | abort
  | restart

/-- Opening the stored rows anew, as a restarted client does. -/
def reopen (database : Database S) : Database S :=
  { conn := database.conn, transaction := none
    permits := Database.allowedConcurrentTransactionsCount }

def World.step (rt : Runtime S) (w : World lib S H) : Step lib S → World lib S H
  | .new =>
    match TransactionContext.new w.core with
    | none => w
    | some (core, inner) => { core, inner }
  | .proteusInit seed lastResortSeed =>
    { w with core := (Proteus.proteusInit rt w.core w.inner seed lastResortSeed).2 }
  | .call call => { w with core := (onCentral w.core w.inner (call.op rt)).2 }
  | .saveOther entity => { w with core.database := (w.core.database.save rt entity.1).2 }
  | .removeOther id => { w with core.database := (w.core.database.remove id.1).2 }
  | .removePendingMessages conversationId =>
    { w with
      core.database :=
        (w.core.database.removePendingMessagesByConversationId conversationId).2 }
  | .finish engine =>
    let (_, core, inner) := TransactionContext.finish rt w.core w.inner engine
    { core, inner }
  | .abort =>
    let (_, core, inner) := TransactionContext.abort w.core w.inner
    { core, inner }
  | .restart =>
    { core := { database := reopen w.core.database, mls := none, proteus := none }
      inner := .invalid }

def World.initial (lib : ProteusLibrary) (S H : Type) : World lib S H :=
  { core := { database := .open' [], mls := none, proteus := none }, inner := .invalid }

/-! ### The condition on the steps -/

/-- The transaction holds neither a session nor the identity, saved or deleted. -/
def Untouched (tx : KeystoreTransaction S) : Prop :=
  ∀ id : EntityId, isProteus id.typ = true → id ∉ tx.deleted ∧ tx.cache.lookup id = none

/-- A transaction is undone only if there is no client to fall behind or it wrote no
Proteus state. -/
def UndoesNoProteusState (w : World lib S H) : Prop :=
  w.core.proteus = none ∨ ∀ tx, w.core.database.transaction = some tx → Untouched tx

def Admissible (rt : Runtime S) (w : World lib S H) : Step lib S → Prop
  | .finish engine => CommitSucceeds rt w.core.database engine ∨ UndoesNoProteusState w
  | .abort => UndoesNoProteusState w
  | _ => True

/-! ### The invariant -/

/-- Inside a transaction the client agrees with what is read through it; outside, with the
stored rows.  These are sound on their own at any time, so that a restart finds them so. -/
inductive Sound (rt : Runtime S) (w : World lib S H) : Prop where
  | inside (rows : List (Entity S)) (tx : KeystoreTransaction S)
      (changes : List (ConversationId × Nat)) (inner : w.inner = .valid changes)
      (durable : StoreCoherent lib rt rows .new) (live : Live w.core.database rows tx)
      (store : StoreCoherent lib rt rows tx)
      (central : ∀ central, w.core.proteus = some central →
        CentralCoherent lib rt rows tx central)
  | outside (rows : List (Entity S)) (inner : w.inner = .invalid)
      (durable : StoreCoherent lib rt rows .new) (conn : w.core.database.conn = some rows)
      (balanced : PermitBalanced w.core.database)
      (keyed : ∀ tx, w.core.database.transaction = some tx → tx.WellKeyed rt)
      (undone : UndoesNoProteusState w)
      (central : ∀ central, w.core.proteus = some central →
        CentralCoherent lib rt rows .new central)

variable {rt : Runtime S} {rows : List (Entity S)} {tx : KeystoreTransaction S}

theorem Live.balanced {database : Database S} (live : Live database rows tx) :
    PermitBalanced database := by
  rw [live]
  rfl

theorem Untouched.same (untouched : Untouched tx) : SameReads rt rows tx rows .new := by
  have same (id : EntityId) (proteus : isProteus id.typ = true) :
      KeystoreTransaction.new.read rt rows id = tx.read rt rows id := by
    obtain ⟨notDeleted, notCached⟩ := untouched id proteus
    rw [KeystoreTransaction.read_new, KeystoreTransaction.read, KeystoreTransaction.getByEntityId,
      if_neg notDeleted, notCached]
    rfl
  exact ⟨same identityId rfl, fun id entity found => (same (sessionId id) rfl).trans found⟩

theorem Untouched.foreign {tx' : KeystoreTransaction S} (untouched : Untouched tx)
    (foreign : ForeignWrite rt tx tx') : Untouched tx' := by
  intro id proteus
  obtain ⟨notDeleted, notCached⟩ := untouched id proteus
  refine ⟨fun member => notDeleted (foreign.deleted id member proteus), ?_⟩
  rw [foreign.lookup id proteus, notCached]

/-- Once committed, the rows hold the identity and the sessions of the transaction.  A session that it
has deleted is stored again, if it was before. -/
theorem commit_same (store : StoreCoherent lib rt rows tx) {written : List (Entity S)}
    (ok : tx.commit rt (some rows) engine = .ok written) : SameReads rt rows tx written .new := by
  simp only [KeystoreTransaction.commit] at ok
  split at ok
  next empty =>
    -- nothing to write
    cases ok
    simp only [KeystoreTransaction.isEmpty, Bool.and_eq_true, List.isEmpty_iff] at empty
    refine Untouched.same fun id _ => ⟨by rw [empty.2]; exact List.not_mem_nil, ?_⟩
    rw [AList.lookup_eq_none, AList.mem_keys, AList.keys, empty.1]
    exact List.not_mem_nil
  next =>
    split at ok
    next => cases ok
    next =>
      constructor
      · rw [KeystoreTransaction.read_new]
        exact tx.storedRow_execute rt rows written identityId store.keyed
          ⟨by rintro ⟨⟩, fun d member => ⟨fun _ => store.identityKept d member, by rintro ⟨⟩⟩⟩
          (fun _ => store.identityOnce) ok
      · intro id entity found
        have kept : ∀ d ∈ tx.deleted, d ≠ sessionId id := by
          rintro d member rfl
          rw [KeystoreTransaction.read, KeystoreTransaction.getByEntityId, if_pos member] at found
          cases found
        rw [KeystoreTransaction.read_new, ← found]
        exact tx.storedRow_execute rt rows written (sessionId id) store.keyed
          ⟨by rintro ⟨⟩, fun d member => ⟨by rintro ⟨⟩, fun _ => kept d member⟩⟩ (by rintro ⟨⟩) ok

/-! ### Steps inside and outside a transaction -/

theorem call_keeps (rt : Runtime S) (rows : List (Entity S)) (laws : ProteusLaws lib)
    (call : Call lib) : KeepsCoherent rt rows (call.op rt) := by
  have discard {α : Type} {op : Op lib S α} (keeps : KeepsCoherent rt rows op) :
      KeepsCoherent rt rows (do let _ ← op : Op lib S Unit) :=
    triple_bind _ keeps (fun _ => triple_pure (fun _ coherent => coherent))
  cases call with
  | sessionFromPrekey id key seed => exact sessionFromPrekey_keeps laws id key seed
  | sessionFromMessage id envelope seed =>
    exact discard (sessionFromMessage_keeps laws id envelope seed)
  | sessionSave id => exact sessionSave_keeps laws id
  | sessionDelete id => exact sessionDelete_keeps id
  | sessionExists id => exact discard (sessionExists_keeps id)
  | encrypt id plaintext seed => exact discard (encrypt_keeps laws id plaintext seed)
  | encryptBatched sessions plaintext =>
    exact discard (encryptBatched_keeps laws plaintext sessions ∅)
  | decrypt id ciphertext seed => exact discard (decrypt_keeps laws id ciphertext seed)

theorem onCentral_open {α : Type} {core : Core S H (ProteusCentral lib)}
    (changes : List (ConversationId × Nat)) (op : Op lib S α)
    (isOpen : core.proteus = some central) :
    (onCentral core (.valid changes) op).2 =
      { core with
        proteus := some (finalState op ⟨central, core.database⟩).central
        database := (finalState op ⟨central, core.database⟩).database } := by
  simp only [onCentral, isOpen, finalState]
  cases op ⟨central, core.database⟩ <;> rfl

variable {w : World lib S H}

theorem sound_foreign {write : KeystoreTransaction S → KeystoreTransaction S}
    (foreign : ∀ tx : KeystoreTransaction S, tx.WellKeyed rt → ForeignWrite rt tx (write tx))
    (sound : Sound rt w) :
    Sound rt { w with core.database := (w.core.database.modifyTransaction write).2 } := by
  cases sound with
  | inside rows tx changes inner durable live store central =>
    have change := foreign tx store.keyed
    refine .inside rows (write tx) changes inner durable ?_ (change.storeCoherent store) ?_
    · rw [live]
      rfl
    · exact fun c isOpen => change.same.centralCoherent (central c isOpen)
  | outside rows inner durable conn balanced keyed undone central =>
    unfold Database.modifyTransaction
    split
    next => exact .outside rows inner durable conn balanced keyed undone central
    next tx slot =>
      -- a transaction that a failed `finish` left behind
      have change := foreign tx (keyed tx slot)
      refine .outside rows inner durable conn ?_ ?_ ?_ central
      · simpa [PermitBalanced, slot] using balanced
      · rintro _ ⟨⟩
        exact change.keyed (keyed tx slot)
      · rcases undone with closed | untouched
        · exact .inl closed
        · right
          rintro _ ⟨⟩
          exact (untouched tx slot).foreign change

theorem sound_new (sound : Sound rt w) : Sound rt (w.step rt .new) := by
  simp only [World.step, TransactionContext.new]
  cases opened : w.core.database.newTransaction with
  | none => exact sound
  | some database =>
    cases sound with
    | inside rows tx changes inner durable live store central =>
      -- the permit is held by the open transaction
      obtain ⟨empty, -⟩ := newTransaction_eq live.balanced opened
      rw [live] at empty
      cases empty
    | outside rows inner durable conn balanced keyed undone central =>
      obtain ⟨-, rfl⟩ := newTransaction_eq balanced opened
      refine .inside rows .new [] rfl durable ?_ durable central
      simp only [Live, conn, Option.map_some]

theorem sound_proteusInit (laws : ProteusLaws lib) (seed lastResortSeed : lib.Seed)
    (sound : Sound rt w) : Sound rt (w.step rt (.proteusInit seed lastResortSeed)) := by
  simp only [World.step]
  cases sound with
  | outside rows inner durable conn balanced keyed undone central =>
    simp only [proteusInit, inner]
    exact .outside rows rfl durable conn balanced keyed undone central
  | inside rows tx changes inner durable live store central =>
    have spec := openClient_spec laws store seed lastResortSeed w.core.database live
    simp only [proteusInit, inner]
    cases called : openClient lib rt seed lastResortSeed w.core.database with
    | ok client database =>
      rw [called] at spec
      obtain ⟨tx', live', store', agrees⟩ := spec
      refine .inside rows tx' changes rfl durable live' store' ?_
      rintro _ ⟨⟩
      exact agrees
    | error error database =>
      rw [called] at spec
      obtain ⟨tx', live', store', kept⟩ := spec
      exact .inside rows tx' changes rfl durable live' store'
        (fun c isOpen => kept c (central c isOpen))

theorem sound_call (laws : ProteusLaws lib) (call : Call lib)
    (sound : Sound rt w) : Sound rt (w.step rt (.call call)) := by
  simp only [World.step]
  cases sound with
  | outside rows inner durable conn balanced keyed undone central =>
    simp only [onCentral, inner]
    exact .outside rows rfl durable conn balanced keyed undone central
  | inside rows tx changes inner durable live store central =>
    cases isOpen : w.core.proteus with
    | none =>
      simp only [onCentral, inner, isOpen]
      exact .inside rows tx changes rfl durable live store central
    | some client =>
      have before : Coherent lib rt rows ⟨client, w.core.database⟩ :=
        ⟨tx, live, store, central client isOpen⟩
      obtain ⟨tx', live', store', agrees⟩ :=
        triple_finalState (call_keeps rt rows laws call) before
      rw [inner, onCentral_open changes (call.op rt) isOpen]
      refine .inside rows tx' changes rfl durable live' store' ?_
      rintro _ ⟨⟩
      exact agrees

theorem sound_undo {rows : List (Entity S)} (mls : Option (Session H))
    (durable : StoreCoherent lib rt rows .new) (live : Live w.core.database rows tx)
    (central : ∀ central, w.core.proteus = some central → CentralCoherent lib rt rows tx central)
    (undone : UndoesNoProteusState w) :
    Sound rt { w with
      core := { database := w.core.database.setTransaction none, mls, proteus := w.core.proteus }
      inner := .invalid } := by
  refine .outside rows rfl durable ?_ (balanced_setTransaction_none live.balanced) ?_ ?_ ?_
  · rw [live]
    rfl
  · rintro _ ⟨⟩
  · right
    rintro _ ⟨⟩
  · intro c isOpen
    rcases undone with closed | untouched
    · rw [closed] at isOpen
      cases isOpen
    · have same : SameReads rt rows tx rows .new := (untouched tx (by rw [live])).same
      exact same.centralCoherent (central c isOpen)

theorem sound_abort (sound : Sound rt w) (undone : UndoesNoProteusState w) :
    Sound rt (w.step rt .abort) := by
  simp only [World.step]
  cases sound with
  | outside rows inner durable conn balanced keyed undone central =>
    simp only [TransactionContext.abort, inner]
    exact .outside rows rfl durable conn balanced keyed undone central
  | inside rows tx changes inner durable live store central =>
    have rolledBack : w.core.database.rollbackTransaction =
        (.ok (), w.core.database.setTransaction none) := by
      rw [live]
      rfl
    simp only [TransactionContext.abort, inner, rolledBack]
    exact sound_undo _ durable live central undone

theorem sound_finish (sound : Sound rt w)
    (admissible : CommitSucceeds rt w.core.database engine ∨ UndoesNoProteusState w) :
    Sound rt (w.step rt (.finish engine)) := by
  simp only [World.step]
  cases sound with
  | outside rows inner durable conn balanced keyed undone central =>
    simp only [TransactionContext.finish, inner]
    exact .outside rows rfl durable conn balanced keyed undone central
  | inside rows tx changes inner durable live store central =>
    cases committed : tx.commit rt (some rows) engine with
    | ok written =>
      have called : w.core.database.commitTransaction rt engine =
          (.ok (), { conn := some written, transaction := none, permits := 1 }) := by
        rw [live]
        simp only [Database.commitTransaction, committed]
        rfl
      have same := commit_same store committed
      simp only [TransactionContext.finish, inner, called]
      refine .outside written rfl (same.storeCoherent_new store) rfl rfl ?_ ?_ ?_
      · rintro _ ⟨⟩
      · right
        rintro _ ⟨⟩
      · exact fun c isOpen => same.centralCoherent (central c isOpen)
    | error error =>
      -- the transaction stays in the slot, the context is gone
      have called : w.core.database.commitTransaction rt engine =
          (.error error, w.core.database) := by
        rw [live]
        simp only [Database.commitTransaction, committed]
      have undone : UndoesNoProteusState w := by
        rcases admissible with succeeds | undone
        · obtain ⟨written, ok⟩ := commitTransaction_of_succeeds succeeds
          rw [called] at ok
          cases ok
        · exact undone
      simp only [TransactionContext.finish, inner, called]
      refine .outside rows rfl durable (by rw [live]) live.balanced ?_ undone ?_
      · intro tx' slot
        rw [live] at slot
        cases slot
        exact store.keyed
      · intro c isOpen
        rcases undone with closed | untouched
        · rw [closed] at isOpen
          cases isOpen
        · have same : SameReads rt rows tx rows .new := (untouched tx (by rw [live])).same
          exact same.centralCoherent (central c isOpen)

theorem sound_restart (sound : Sound rt w) : Sound rt (w.step rt .restart) := by
  have reopened (rows : List (Entity S)) (durable : StoreCoherent lib rt rows .new)
      (conn : w.core.database.conn = some rows) : Sound rt (w.step rt .restart) := by
    refine .outside rows rfl durable conn rfl ?_ (.inl rfl) ?_
    · rintro _ ⟨⟩
    · rintro _ ⟨⟩
  cases sound with
  | inside rows tx changes inner durable live store central =>
    exact reopened rows durable (by rw [live])
  | outside rows inner durable conn balanced keyed undone central =>
    exact reopened rows durable conn

theorem step_sound (laws : ProteusLaws lib) {step : Step lib S}
    (sound : Sound rt w) (admissible : Admissible rt w step) : Sound rt (w.step rt step) := by
  cases step with
  | new => exact sound_new sound
  | proteusInit seed lastResortSeed => exact sound_proteusInit laws seed lastResortSeed sound
  | call call => exact sound_call laws call sound
  | saveOther entity =>
    exact sound_foreign (fun _ _ => foreignWrite_save entity.2) sound
  | removeOther id => exact sound_foreign (fun _ _ => foreignWrite_remove id.1 id.2) sound
  | removePendingMessages conversationId =>
    exact sound_foreign (fun _ => foreignWrite_removePendingMessages conversationId) sound
  | finish engine => exact sound_finish sound admissible
  | abort => exact sound_abort sound admissible
  | restart => exact sound_restart sound

theorem initial_sound (rt : Runtime S) : Sound rt (World.initial lib S H) := by
  refine .outside [] rfl ?_ rfl rfl ?_ (.inl rfl) ?_
  · refine ⟨KeystoreTransaction.wellKeyed_new rt, ?_, .inl rfl, ?_, ?_⟩
    · intro d member
      cases member
    · intro entity found
      rw [KeystoreTransaction.read_new] at found
      cases found
    · rintro id entity ⟨⟩
  · rintro _ ⟨⟩
  · rintro _ ⟨⟩

/-! ### Agreement with the stored rows -/

/-- The session that the stored rows hold under an id. -/
def storedSession (lib : ProteusLibrary) (rt : Runtime S) (rows : List (Entity S))
    (identity : lib.Identity) (id : Bytes) : Option (ProteusConversationSession lib) :=
  match storedRow rt rows (sessionId id) with
  | some (.proteusSession key raw) =>
    match lib.deserialise identity raw with
    | .ok session => some ⟨key, session⟩
    | .error _ => none
  | _ => none

/-- What the client holds in memory is stored. -/
structure MirrorsRows (rt : Runtime S) (central : ProteusCentral lib) (rows : List (Entity S)) :
    Prop where
  sessions : ∀ id conversation, central.proteusSessions.peek id = some conversation →
    storedSession lib rt rows central.proteusIdentity id = some conversation
  identity : ∃ sk pk, storedRow rt rows identityId = some (.proteusIdentity sk pk) ∧
    lib.fromRawKeyPair sk pk = .ok central.proteusIdentity

/-- The client is as good as one restarted on the stored rows. -/
structure AgreesWithRows (rt : Runtime S) (central : ProteusCentral lib)
    (database : Database S) (rows : List (Entity S)) : Prop extends
    MirrorsRows rt central rows where
  sessionExists : ∀ id, outcome (sessionExists rt id) ⟨central, database⟩ =
    .ok (storedRow rt rows (sessionId id)).isSome
  eviction : ∀ evicted : ProteusCentral lib, evicted.proteusIdentity = central.proteusIdentity →
    (∀ id conversation, evicted.proteusSessions.peek id = some conversation →
      central.proteusSessions.peek id = some conversation) →
    ∀ id, outcome (getOrFetch rt id) ⟨evicted, database⟩ =
      outcome (getOrFetch rt id) ⟨central, database⟩
  restart : ∀ id, outcome (getOrFetch rt id) ⟨central, database⟩ =
    outcome (getOrFetch rt id)
      ⟨{ proteusIdentity := central.proteusIdentity, proteusSessions := .empty }, .open' rows⟩

theorem storedSession_of_persisted {identity : lib.Identity}
    {conversation : ProteusConversationSession lib}
    (persisted : PersistedSession lib rt rows .new identity conversation) :
    storedSession lib rt rows identity conversation.identifier = some conversation := by
  obtain ⟨raw, row, decoded⟩ := persisted
  rw [KeystoreTransaction.read_new] at row
  simp only [storedSession, row, decoded]

/-- Outside of transactions `get_or_fetch` finds what is cached. -/
theorem getOrFetch_outcome {database : Database S} {id : Bytes}
    (reads : database.get rt (sessionId id) = .ok none) (central : ProteusCentral lib) :
    outcome (getOrFetch rt id) ⟨central, database⟩ = .ok (central.proteusSessions.peek id) := by
  cases cached : central.proteusSessions.peek id <;>
    simp only [outcome, getOrFetch, bind, EStateM.bind, get, getThe, MonadStateOf.get, EStateM.get,
      cached, reads] <;> rfl

theorem sessionExists_outcome {database : Database S} {id : Bytes}
    {result : Option (ProteusConversationSession lib)}
    (fetched : outcome (getOrFetch rt id) ⟨central, database⟩ = .ok result) :
    outcome (sessionExists rt id) ⟨central, database⟩ = .ok result.isSome := by
  simp only [outcome] at fetched
  simp only [outcome, sessionExists, bind, EStateM.bind, attempt]
  cases called : getOrFetch rt id ⟨central, database⟩ with
  | ok found env =>
    rw [called] at fetched
    cases fetched
    cases result <;> rfl
  | error error env =>
    rw [called] at fetched
    cases fetched

theorem get_outside (rt : Runtime S) (id : Bytes) (conn : w.core.database.conn = some rows)
    (untouched : ∀ tx, w.core.database.transaction = some tx → Untouched tx) :
    w.core.database.get rt (sessionId id) = .ok none := by
  have stored : w.core.database.rows = .ok rows := by simp only [Database.rows, conn]
  simp only [Database.get, stored]
  cases slot : w.core.database.transaction with
  | none => simp [Except.map, sessionId, EntityType.saveMode]
  | some tx =>
    obtain ⟨notDeleted, notCached⟩ := untouched tx slot (sessionId id) rfl
    simp only [Option.bind_some, KeystoreTransaction.getByEntityId, if_neg notDeleted, notCached]
    simp [Except.map, sessionId, EntityType.saveMode]

theorem mirrorsRows_of_central (agrees : CentralCoherent lib rt rows .new central) :
    MirrorsRows rt central rows := by
  constructor
  · intro id conversation cached
    obtain ⟨rfl, persisted⟩ := agrees.sessions id conversation cached
    exact storedSession_of_persisted persisted
  · exact agrees.identity

/-- A cached session that is stored is lost with the cache, and one that is stored but not cached is
not found. -/
theorem agreesWithRows_iff {database : Database S} (mirrors : MirrorsRows rt central rows)
    (reads : ∀ id, database.get rt (sessionId id) = .ok none) :
    AgreesWithRows rt central database rows ↔ ∀ id, storedRow rt rows (sessionId id) = none := by
  have fetched (id : Bytes) := getOrFetch_outcome (reads id) central
  have idle (id : Bytes) : (Database.open' rows).get rt (sessionId id) = .ok none := by
    simp [Database.get, Database.open', Database.rows, Except.map, sessionId, EntityType.saveMode]
  have restarted (id : Bytes) : outcome (getOrFetch rt id)
      ⟨{ proteusIdentity := central.proteusIdentity, proteusSessions := .empty }, .open' rows⟩ =
        .ok none := by
    rw [getOrFetch_outcome (idle id), LruMap.peek_empty]
  constructor
  · intro agrees id
    have same := agrees.restart id
    rw [fetched id, restarted id] at same
    have exists' := agrees.sessionExists id
    rw [sessionExists_outcome (fetched id), Except.ok.inj same] at exists'
    simpa using (Except.ok.inj exists').symm
  · intro unstored
    have uncached (id : Bytes) : central.proteusSessions.peek id = none := by
      cases cached : central.proteusSessions.peek id with
      | none => rfl
      | some conversation =>
        have stored := mirrors.sessions id conversation cached
        rw [storedSession, unstored id] at stored
        cases stored
    refine ⟨mirrors, fun id => ?_, fun evicted _ subset id => ?_, fun id => ?_⟩
    · rw [sessionExists_outcome (fetched id), uncached id, unstored id]
      rfl
    · rw [fetched id, getOrFetch_outcome (reads id), uncached id]
      cases cached : evicted.proteusSessions.peek id with
      | none => rfl
      | some conversation =>
        cases (uncached id).symm.trans (subset id conversation cached)
    · rw [fetched id, restarted id, uncached id]

theorem agreesWithRows_of_sound (sound : Sound rt w) (ended : w.inner = .invalid) :
    ∃ rows, w.core.database.conn = some rows ∧ ∀ central, w.core.proteus = some central →
      MirrorsRows rt central rows ∧ (AgreesWithRows rt central w.core.database rows ↔
        ∀ id, storedRow rt rows (sessionId id) = none) := by
  cases sound with
  | inside rows tx changes inner durable live store central =>
    rw [inner] at ended
    cases ended
  | outside rows inner durable conn balanced keyed undone central =>
    refine ⟨rows, conn, fun client isOpen => ?_⟩
    have untouched : ∀ tx, w.core.database.transaction = some tx → Untouched tx := by
      rcases undone with closed | untouched
      · rw [closed] at isOpen
        cases isOpen
      · exact untouched
    have mirrors := mirrorsRows_of_central (central client isOpen)
    exact ⟨mirrors, agreesWithRows_iff mirrors fun id => get_outside rt id conn untouched⟩

/-- **Proteus coherence.** After every run that undoes no transaction with Proteus state under an
open client, whenever no transaction is open the cached sessions and the identity are the stored ones.
A session exists exactly if it is stored, and neither eviction nor a restart changes what is found, if
and only if no session is stored. -/
theorem proteus_agrees_with_rows (laws : ProteusLaws lib) (rt : Runtime S)
    (steps : List (Step lib S))
    (admissible : Guarded (World.step rt) (Admissible rt) (World.initial lib S H) steps)
    (w : World lib S H) (reached : w = run (World.step rt) (World.initial lib S H) steps)
    (ended : w.inner = .invalid) :
    ∃ rows, w.core.database.conn = some rows ∧ ∀ central, w.core.proteus = some central →
      MirrorsRows rt central rows ∧ (AgreesWithRows rt central w.core.database rows ↔
        ∀ id, storedRow rt rows (sessionId id) = none) := by
  have sound : Sound rt w := by
    rw [reached]
    exact run_invariant (World.step rt) (Admissible rt) (Sound rt)
      (fun w step sound admissible => step_sound laws sound admissible) _ steps
      (initial_sound rt) admissible
  exact agreesWithRows_of_sound sound ended

/-- A library whose sessions are their local identity and a ratchet of bytes. -/
def sampleLibrary : ProteusLibrary where
  Identity := Bytes
  Session := Bytes × Bytes
  Envelope := Bytes
  Seed := Bytes
  newIdentity := fun seed => seed
  toRawKeyPair := fun identity => (identity, identity)
  fromRawKeyPair := fun sk _ => .ok sk
  localIdentity := Prod.fst
  serialise := fun session => .ok session.2
  deserialise := fun identity raw => .ok (identity, raw)
  initFromPrekey := fun identity key _ => .ok (identity, key)
  initFromMessage := fun identity _ envelope _ => (.ok ((identity, envelope), envelope), [])
  encrypt := fun session plaintext _ => (.ok plaintext, (session.1, 1 :: session.2))
  serialiseEnvelope := .ok
  decrypt := fun session _ ciphertext _ => (.ok ciphertext, (session.1, 2 :: session.2), [])
  lastResort := .ok
  deserialisePrekey := fun _ => .ok ()
  serialiseBundle := fun _ prekey => .ok prekey

theorem sampleLibrary_laws : ProteusLaws sampleLibrary where
  rawKeyPair := fun _ => rfl
  roundTrip := by rintro ⟨_, _⟩ _ ⟨⟩; rfl
  serialises := fun session => ⟨session.2, rfl⟩
  envelopeSerialises := fun envelope => ⟨envelope, rfl⟩
  deserialised := by rintro _ _ _ ⟨⟩; rfl
  fromPrekey := by rintro _ _ _ _ ⟨⟩; rfl
  fromMessage := by rintro _ _ _ _ _ _ ⟨⟩; rfl
  encrypted := fun _ _ _ => rfl
  decrypted := fun _ _ _ _ => rfl
  encryptFails := by rintro _ _ _ _ ⟨⟩
  decryptFails := by rintro _ _ _ _ _ ⟨⟩

/-- The world after a client was opened, has got a session with `[7]` and used it, and after some more
steps. -/
def sampleSteps (more : List (Step sampleLibrary Unit)) : List (Step sampleLibrary Unit) :=
  .new :: .proteusInit [1] [2] :: .call (.sessionFromPrekey [7] [3] []) ::
    .call (.encrypt [7] [4] []) :: more

def sampleRun (more : List (Step sampleLibrary Unit)) : World sampleLibrary Unit Unit :=
  run (World.step (.newestFirst id)) (World.initial sampleLibrary Unit Unit) (sampleSteps more)

/-- The session is deleted before the transaction is finished. -/
def deletedRun : World sampleLibrary Unit Unit := sampleRun [.call (.sessionDelete [7]), .finish none]

theorem proteus_agrees_with_rows_sample :
    ∃ rows central, deletedRun.core.proteus = some central ∧
      AgreesWithRows (.newestFirst id) central deletedRun.core.database rows := by
  have admissible : Guarded (World.step (.newestFirst id)) (Admissible (.newestFirst id))
      (World.initial sampleLibrary Unit Unit)
      (sampleSteps [.call (.sessionDelete [7]), .finish none]) :=
    ⟨trivial, trivial, trivial, trivial, trivial,
      .inl ⟨_, _, rfl, rfl, .inr ⟨rfl, _, rfl⟩⟩, trivial⟩
  obtain ⟨rows, conn, agrees⟩ := proteus_agrees_with_rows sampleLibrary_laws (.newestFirst id) _
    admissible deletedRun rfl rfl
  have stored : deletedRun.core.database.conn =
      some [.plain .proteusPrekey (prekeyKey lastResortPrekeyId) [2], .proteusIdentity [1] [1]] := rfl
  cases conn.symm.trans stored
  refine ⟨_, _, rfl, (agrees _ rfl).2.mpr fun id => ?_⟩
  simp [storedRow, sessionId, Runtime.fromEntity, Entity.typ]

/-- The session with `[8]` is created in a second transaction, which is aborted. -/
def abortedRun : World sampleLibrary Unit Unit :=
  sampleRun [.finish none, .new, .call (.sessionFromPrekey [8] [5] []), .abort]

/-- The client is restarted after the session was committed. -/
def restartedRun : World sampleLibrary Unit Unit :=
  sampleRun [.finish none, .restart, .new, .proteusInit [1] [2], .finish none]

/-- The aborted session stays in the cache and is reported as existing.  The session that was
committed exists until the client is restarted, and then no longer, although its row is stored. -/
theorem aborted_session_stays_cached :
    (abortedRun.inner = .invalid ∧ ¬ ∃ rows, abortedRun.core.database.conn = some rows ∧
      ∀ central, abortedRun.core.proteus = some central →
        MirrorsRows (.newestFirst id) central rows) ∧
    (∃ central, (sampleRun [.finish none]).core.proteus = some central ∧
      outcome (sessionExists (.newestFirst id) [7])
        ⟨central, (sampleRun [.finish none]).core.database⟩ = .ok true) ∧
    ∃ central rows, restartedRun.core.proteus = some central ∧
      outcome (sessionExists (.newestFirst id) [7]) ⟨central, restartedRun.core.database⟩ =
        .ok false ∧
      restartedRun.core.database.conn = some rows ∧
      (storedRow (.newestFirst id) rows (sessionId [7])).isSome := by
  refine ⟨⟨rfl, ?_⟩, ⟨_, rfl, rfl⟩, _, _, rfl, rfl, rfl, rfl⟩
  rintro ⟨rows, conn, agrees⟩
  cases conn
  have missing := (agrees _ rfl).sessions [8] ⟨[8], ([1], [5])⟩ rfl
  cases missing

end CoreCrypto.Proteus
