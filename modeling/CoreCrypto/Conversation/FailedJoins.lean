import CoreCrypto.Conversation.Live
import Mathlib.Data.List.Induction

/-!
# Joins that fail

`join_by_external_commit` is meant to clear the pending group if the commit is rejected, but looks
for an error that `send_commit` always wraps.  A Welcome is processed, and its key package deleted,
before the code looks whether there is a conversation with this id.
-/

namespace CoreCrypto.Conversation

open Keystore Library

/-! ### Errors of the modules -/

/-- The modules whose errors a `RecursiveError` wraps. -/
inductive ErrorModule where
  | root
  | transactionContext
  | mls
  | mlsClient
  | mlsConversation
  | mlsCredential
  | mlsCredentialRef
  deriving DecidableEq, Repr

/-- The errors of a module: of its own, or `Recursive` with what it wraps. -/
inductive ModuleError : ErrorModule → Type where
  | messageRejected (reason : String) : ModuleError .mlsConversation
  | other (origin : ErrorModule) (text : String) : ModuleError origin
  | recursive {origin source : ErrorModule} (context : String) (err : ModuleError source) :
      ModuleError origin

/-- The innermost cause is a rejection. -/
def ModuleError.isRejection {origin : ErrorModule} : ModuleError origin → Bool
  | messageRejected _ => true
  | other _ _ => false
  | recursive _ err => err.isRejection

variable {b : Backend} {credentialRef : Bytes} {bundle : CommitBundle} {cipherSuite : Nat}

/-! ### Joining by an external commit -/

/-- `MlsTransport` with the errors it returns, of which the backend has the codes. -/
structure Transport (b : Backend) where
  sendCommitBundle : Nat → CommitBundle → Except (ModuleError .root) Unit
  code : ModuleError .root → Nat
  agrees : ∀ call bundle,
    b.sendCommitBundle call bundle = (sendCommitBundle call bundle).mapError code

inductive JoinError (b : Backend) where
  | scope (source : ScopeError b)
  | sendingCommit (source : ModuleError .mlsConversation)

abbrev JoinOp (b : Backend) := EStateM (JoinError b) (Scope b)

/-- `create_external_join_commit`, which stores the pending group. -/
def createExternalJoinCommit (b : Backend) (groupInfo : Bytes) (cipherSuite : Nat)
    (credentialRef : Bytes) : ScopeOp b (CommitBundle × PendingConversation b) := do
  let signer ← liftScope b (.external "loading credential") (b.loadCredential credentialRef)
  let call ← scopeTick b
  let (group, commit, groupInfo) ← liftScope b (.openMls "joining mls group by external commit")
    (b.joinByExternalCommit call signer groupInfo (.ofCipherSuite cipherSuite))
  match groupInfo with
  | none => throw .missingGroupInfo
  | some groupInfo =>
    let groupInfo ← liftScope b (.external "trying new full plaintext group info bundle")
      (b.tryNewFullPlaintext groupInfo)
    let state ← liftScope b (.keystore "serializing mls group") (b.ser group)
    let pending : PendingConversation b := ⟨group.groupId, state, b.encodeCustom .default⟩
    saveRow b (.persistedMlsPendingGroup pending.id pending.state none pending.customConfiguration)
    return (⟨none, commit, groupInfo, none⟩, pending)

namespace Transport

variable (transport : Transport b)

/-- `PendingConversation::send_commit`. -/
def sendCommit (call : Nat) (bundle : CommitBundle) :
    Except (ModuleError .mlsConversation) Unit :=
  (transport.sendCommitBundle call bundle).mapError (.recursive "sending commit bundle")

def joinByExternalCommit (groupInfo : Bytes) (cipherSuite : Nat) (credentialRef : Bytes) :
    JoinOp b ConversationId := do
  let (bundle, pending) ← EStateM.adaptExcept .scope
    (createExternalJoinCommit b groupInfo cipherSuite credentialRef)
  let call ← EStateM.adaptExcept .scope (scopeTick b)
  match transport.sendCommit call bundle with
  | .error (.messageRejected reason) =>
    EStateM.adaptExcept .scope pending.clear
    throw (.sendingCommit (.messageRejected reason))
  | .error err => throw (.sendingCommit err)
  | .ok () =>
    modify fun scope => { scope with accepted := scope.accepted ++ [bundle] }
    discard (EStateM.adaptExcept .scope pending.merge)
    return pending.id

end Transport

variable (transport : Transport b)

theorem Transport.joinByExternalCommit_of_created {groupInfo : Bytes} {scope created : Scope b}
    {pending : PendingConversation b}
    (creates : createExternalJoinCommit b groupInfo cipherSuite credentialRef scope =
      .ok (bundle, pending) created) {err : ModuleError .root}
    (answers : transport.sendCommitBundle created.clock bundle = .error err) :
    transport.joinByExternalCommit groupInfo cipherSuite credentialRef scope =
      .error (.sendingCommit (.recursive "sending commit bundle" err))
        { created with clock := created.clock + 1 } := by
  simp only [joinByExternalCommit, bind, EStateM.bind, EStateM.adaptExcept, creates, scopeTick,
    modifyGet, MonadStateOf.modifyGet, EStateM.modifyGet, sendCommit, answers, Except.mapError]
  rfl

theorem pendingRow_of_created {groupInfo : Bytes}
    {scope created : Scope b} {pending : PendingConversation b}
    (creates : createExternalJoinCommit b groupInfo cipherSuite credentialRef scope =
      .ok (bundle, pending) created) :
    created.row (pendingGroupEntityId pending.id) =
      some (.persistedMlsPendingGroup pending.id pending.state none pending.customConfiguration) := by
  obtain ⟨signer, scope, -, creates⟩ := bind_eq_ok.mp creates
  obtain ⟨call, scope, -, creates⟩ := bind_eq_ok.mp creates
  obtain ⟨⟨group, commit, info⟩, scope, -, creates⟩ := bind_eq_ok.mp creates
  cases info with
  | none => cases creates
  | some info =>
    obtain ⟨info, scope, -, creates⟩ := bind_eq_ok.mp creates
    obtain ⟨state, scope, -, creates⟩ := bind_eq_ok.mp creates
    cases creates
    exact KeystoreTransaction.read_save_self b.rt _ _ _

/-- The answer of the delivery service is a rejection of the commit. -/
def JoinRejected (transport : Transport b) (groupInfo : Bytes) (cipherSuite : Nat)
    (credentialRef : Bytes) (scope : Scope b) : Prop :=
  ∃ bundle pending created err,
    createExternalJoinCommit b groupInfo cipherSuite credentialRef scope =
      .ok (bundle, pending) created ∧
    transport.sendCommitBundle created.clock bundle = .error err ∧ err.isRejection = true

/-- If the delivery service rejects the commit, the join fails and there is no pending group. -/
def RejectionUndone (transport : Transport b) (groupInfo : Bytes) (cipherSuite : Nat)
    (credentialRef : Bytes) (scope : Scope b) : Prop :=
  ∀ bundle pending created err,
    createExternalJoinCommit b groupInfo cipherSuite credentialRef scope =
      .ok (bundle, pending) created →
    transport.sendCommitBundle created.clock bundle = .error err → err.isRejection = true →
      ∃ failure after, transport.joinByExternalCommit groupInfo cipherSuite credentialRef scope =
          .error failure after ∧
        after.row (pendingGroupEntityId pending.id) = none

theorem rejectionUndone_iff (groupInfo : Bytes) (cipherSuite : Nat)
    (credentialRef : Bytes) (scope : Scope b) :
    RejectionUndone transport groupInfo cipherSuite credentialRef scope ↔
      ¬ JoinRejected transport groupInfo cipherSuite credentialRef scope := by
  constructor
  · rintro undone ⟨bundle, pending, created, err, creates, answers, rejects⟩
    obtain ⟨failure, after, fails, noRow⟩ := undone _ _ _ _ creates answers rejects
    rw [transport.joinByExternalCommit_of_created creates answers] at fails
    cases fails
    have row := pendingRow_of_created creates
    exact absurd (row.symm.trans noRow) nofun
  · intro notRejected bundle pending created err creates answers rejects
    exact absurd ⟨bundle, pending, created, err, creates, answers, rejects⟩ notRejected

/-! The join with the codes of the errors ends in the same state. -/

theorem sendJoinCommit_eq (groupInfo : Bytes) (cipherSuite : Nat) (credentialRef : Bytes) :
    sendJoinCommit b groupInfo cipherSuite credentialRef = (do
      let (bundle, pending) ← createExternalJoinCommit b groupInfo cipherSuite credentialRef
      let call ← scopeTick b
      liftScope b (.external "sending commit") (b.sendCommitBundle call bundle)
      modify fun scope => { scope with accepted := scope.accepted ++ [bundle] }
      return pending) := by
  simp only [sendJoinCommit, createExternalJoinCommit, bind_assoc]
  congr! with signer call ⟨group, commit, info⟩
  cases info with
  | none => rfl
  | some info => simp only [bind_assoc, pure_bind]

theorem Transport.finalState_joinByExternalCommit (groupInfo : Bytes)
    (cipherSuite : Nat) (credentialRef : Bytes) (scope : Scope b) :
    finalState (transport.joinByExternalCommit groupInfo cipherSuite credentialRef) scope =
      finalState (Conversation.joinByExternalCommit b groupInfo cipherSuite credentialRef)
        scope := by
  simp only [Transport.joinByExternalCommit, Conversation.joinByExternalCommit, sendJoinCommit_eq,
    finalState, bind, EStateM.bind, EStateM.adaptExcept]
  cases creates : createExternalJoinCommit b groupInfo cipherSuite credentialRef scope with
  | error err middle => rfl
  | ok result middle =>
    obtain ⟨bundle, pending⟩ := result
    have answers := transport.agrees middle.clock bundle
    cases sent : transport.sendCommitBundle middle.clock bundle with
    | error err =>
      simp only [sent, Except.mapError] at answers
      simp only [scopeTick, modifyGet, MonadStateOf.modifyGet, EStateM.modifyGet, sendCommit, sent,
        Except.mapError, answers, liftScope]
      rfl
    | ok _ =>
      simp only [sent, Except.mapError] at answers
      simp only [scopeTick, modifyGet, MonadStateOf.modifyGet, EStateM.modifyGet, sendCommit, sent,
        Except.mapError, answers, liftScope]
      change finalState (discard (EStateM.adaptExcept JoinError.scope pending.merge) >>= fun _ =>
          pure pending.id) { middle with
            accepted := middle.accepted ++ [bundle], clock := middle.clock + 1 } =
        finalState (discard pending.merge >>= fun _ => pure pending.id) { middle with
            accepted := middle.accepted ++ [bundle], clock := middle.clock + 1 }
      rw [finalState_discard, finalState_discard, finalState_adaptExcept]

/-- **The cause of a failure is not looked at.**  Two transports that accept the same commits leave
the same state, whatever errors they return. -/
theorem join_state_ignores_cause (other : Transport b) (groupInfo : Bytes) (cipherSuite : Nat)
    (credentialRef : Bytes) (scope : Scope b) :
    finalState (transport.joinByExternalCommit groupInfo cipherSuite credentialRef) scope =
      finalState (other.joinByExternalCommit groupInfo cipherSuite credentialRef) scope := by
  rw [transport.finalState_joinByExternalCommit, other.finalState_joinByExternalCommit]

/-! ### Joining by a Welcome -/

/-- What OpenMLS keeps in the key store. -/
inductive KeyMaterial where
  | keyPackage
  | hpkePrivateKey
  | encryptionKeyPair
  | epochEncryptionKeyPair
  | pskBundle
  deriving DecidableEq, Repr

def KeyMaterial.collection : KeyMaterial → PlainCollection
  | keyPackage => .keyPackage
  | hpkePrivateKey => .hpkePrivateKey
  | encryptionKeyPair => .encryptionKeyPair
  | epochEncryptionKeyPair => .epochEncryptionKeyPair
  | pskBundle => .pskBundle

def KeyMaterial.entityType (material : KeyMaterial) : EntityType :=
  .plain material.collection

theorem KeyMaterial.entityType_injective {material other : KeyMaterial}
    (same : material.entityType = other.entityType) : material = other := by
  cases material <;> cases other <;> first | rfl | cases same

/-- `OpenMlsKeyStore`: the calls that change the key store. -/
inductive KeyStoreWrite where
  | store (material : KeyMaterial) (key content : Bytes)
  | delete (material : KeyMaterial) (key : Bytes)
  deriving DecidableEq, Repr

namespace KeyStoreWrite

def entityId : KeyStoreWrite → EntityId
  | store material key _ => ⟨material.entityType, key⟩
  | delete material key => ⟨material.entityType, key⟩

def apply (b : Backend) (tx : KeystoreTransaction b.State) :
    KeyStoreWrite → KeystoreTransaction b.State
  | store material key content => tx.save b.rt (.plain material.collection key content)
  | delete material key => tx.removeByEntityId ⟨material.entityType, key⟩

end KeyStoreWrite

def Scope.write (scope : Scope b) (writes : List KeyStoreWrite) : Scope b :=
  { scope with transaction := writes.foldl (KeyStoreWrite.apply b) scope.transaction }

/-- OpenMLS with the key store.  It may have written to the key store when it fails; when it makes a
group, it has deleted the key package that the Welcome is for. -/
structure WelcomeStore (b : Backend) where
  newFromWelcome : (EntityId → Option (Entity b.State)) → Nat → ConversationConfiguration →
    Bytes → Except WelcomeError b.Group × List KeyStoreWrite
  consumes : ∀ {read call configuration welcome group writes},
    newFromWelcome read call configuration welcome = (.ok group, writes) →
      ∃ reference, (read ⟨.plain .keyPackage, reference⟩).isSome ∧
        .delete .keyPackage reference ∈ writes ∧
        ∀ content, .store .keyPackage reference content ∉ writes

/-- The second part of `persist_conversation_from_welcome_message`, with the answer of OpenMLS. -/
def persistWelcomed (b : Backend) (cipherSuite : Nat) (result : Except WelcomeError b.Group) :
    ScopeOp b ConversationId := do
  let group ← liftScope b (welcomeError b) result
  ensureNew b group.groupId
  discard (persistConversationFromMlsGroup b group (.ofCipherSuite cipherSuite))
  return group.groupId

namespace WelcomeStore

variable (store : WelcomeStore b)

/-- `process_welcome_message`, for a welcome with its cipher suite. -/
def processWelcomeMessage (welcome : Bytes) (cipherSuite : Nat) : ScopeOp b ConversationId := do
  let call ← scopeTick b
  let scope ← get
  let (result, writes) :=
    store.newFromWelcome scope.row call (.ofCipherSuite cipherSuite) welcome
  set (scope.write writes)
  persistWelcomed b cipherSuite result

/-- A Welcome that cannot be processed leaves the keystore as it is. -/
def WelcomeUndone (welcome : Bytes) (cipherSuite : Nat) (scope : Scope b) : Prop :=
  ∀ failure after, store.processWelcomeMessage welcome cipherSuite scope = .error failure after →
    ∀ id, after.row id = scope.row id

/-- OpenMLS fails and leaves the key store as it is, or makes a group that can be stored and whose
id is not taken. -/
def WelcomeFits (welcome : Bytes) (cipherSuite : Nat) (scope : Scope b) : Prop :=
  match store.newFromWelcome scope.row scope.clock (.ofCipherSuite cipherSuite) welcome with
  | (.error _, writes) => ∀ id, (scope.write writes).row id = scope.row id
  | (.ok group, _) => scope.taken group.groupId = false ∧ ∃ state, b.ser group = .ok state

end WelcomeStore

/-! ### What is read after writes of OpenMLS -/

theorem Scope.write_append (scope : Scope b) (writes : List KeyStoreWrite) (last : KeyStoreWrite) :
    scope.write (writes ++ [last]) = (scope.write writes).write [last] := by
  simp [Scope.write]

theorem Scope.row_write_other (scope : Scope b) {writes : List KeyStoreWrite} {id : EntityId}
    (others : ∀ write ∈ writes, write.entityId ≠ id) :
    (scope.write writes).row id = scope.row id := by
  induction writes using List.reverseRecOn with
  | nil => rfl
  | append_singleton writes last ih =>
    have other := others last (by simp)
    rw [Scope.write_append, ← ih fun write member => others write (by simp [member])]
    cases last with
    | store material key content =>
      exact KeystoreTransaction.read_save_other _ _ (Ne.symm other)
    | delete material key =>
      exact KeystoreTransaction.read_remove_other b.rt _ _ (Ne.symm other)

theorem Scope.row_write_deleted (scope : Scope b) {writes : List KeyStoreWrite}
    {material : KeyMaterial} {key : Bytes} (deleted : .delete material key ∈ writes)
    (notStored : ∀ content, .store material key content ∉ writes) :
    (scope.write writes).row ⟨material.entityType, key⟩ = none := by
  induction writes using List.reverseRecOn with
  | nil => cases deleted
  | append_singleton writes last ih =>
    rw [Scope.write_append]
    by_cases same : last.entityId = ⟨material.entityType, key⟩
    · cases last with
      | store other key' content =>
        obtain ⟨sameType, rfl⟩ := EntityId.mk.inj same
        cases KeyMaterial.entityType_injective sameType
        exact absurd (List.mem_append_right writes (List.mem_singleton_self _)) (notStored content)
      | delete other key' =>
        obtain ⟨sameType, rfl⟩ := EntityId.mk.inj same
        cases KeyMaterial.entityType_injective sameType
        exact KeystoreTransaction.read_remove_self b.rt _ _ _
    · rw [Scope.row_write_other _ (by simpa using same)]
      refine ih ?_ fun content member => notStored content (List.mem_append_left _ member)
      rcases List.mem_append.mp deleted with earlier | isLast
      · exact earlier
      · exact absurd (List.mem_singleton.mp isLast ▸ rfl) same

theorem Scope.taken_write (scope : Scope b) (writes : List KeyStoreWrite) (id : ConversationId) :
    (scope.write writes).taken id = scope.taken id := by
  have others (entityId : EntityId) (notPlain : ∀ collection, entityId.typ ≠ .plain collection) :
      (scope.write writes).row entityId = scope.row entityId := by
    refine scope.row_write_other fun write _ same => ?_
    cases write <;> exact notPlain _ (congrArg EntityId.typ same).symm
  rw [Scope.taken, others _ (by simp [groupEntityId]), others _ (by simp [pendingGroupEntityId])]
  rfl

/-! ### When a Welcome that fails leaves the keystore as it is -/

theorem persistWelcomed_of_group (cipherSuite : Nat) (group : b.Group) (scope : Scope b) :
    persistWelcomed b cipherSuite (.ok group) scope =
      if scope.taken group.groupId then .error (.conversationAlreadyExists group.groupId) scope
      else match b.ser group with
        | .error code => .error (.keystore "serializing group state" code) scope
        | .ok state => .ok group.groupId (scope.persisted
            ⟨group.groupId, group.setPersisted, .ofCipherSuite cipherSuite⟩ state) := by
  change (ensureNew b group.groupId >>= fun _ => _ : ScopeOp b ConversationId) _ = _
  simp only [bind, EStateM.bind, ensureNew_eq]
  cases scope.taken group.groupId with
  | true => rfl
  | false =>
    cases serialised : b.ser group with
    | error code =>
      simp only [persistConversationFromMlsGroup, serialised]
      rfl
    | ok state =>
      have persisted := persist_ok serialised (.ofCipherSuite cipherSuite) scope
      simp only [Bool.false_eq_true, if_false, discard, Functor.discard, Functor.mapConst,
        Function.comp, EStateM.map, persisted]
      rfl

namespace WelcomeStore

variable (store : WelcomeStore b) (welcome : Bytes) (cipherSuite : Nat) (scope : Scope b)

/-- The keystore after OpenMLS has tried. -/
def attempted : Scope b :=
  Scope.write { scope with clock := scope.clock + 1 }
    (store.newFromWelcome scope.row scope.clock (.ofCipherSuite cipherSuite) welcome).2

variable {store welcome cipherSuite scope}

theorem processWelcomeMessage_eq :
    store.processWelcomeMessage welcome cipherSuite scope = persistWelcomed b cipherSuite
      (store.newFromWelcome scope.row scope.clock (.ofCipherSuite cipherSuite) welcome).1
      (store.attempted welcome cipherSuite scope) :=
  rfl

theorem taken_attempted (id : ConversationId) :
    (store.attempted welcome cipherSuite scope).taken id = scope.taken id :=
  Scope.taken_write { scope with clock := scope.clock + 1 } _ id

theorem row_attempted (id : EntityId) :
    (store.attempted welcome cipherSuite scope).row id = (scope.write
      (store.newFromWelcome scope.row scope.clock (.ofCipherSuite cipherSuite) welcome).2).row id :=
  rfl

/-- OpenMLS has deleted the key package if it has made a group. -/
theorem attempted_changed {group : b.Group}
    (answers : (store.newFromWelcome scope.row scope.clock (.ofCipherSuite cipherSuite) welcome).1 =
      .ok group) : ∃ id, (store.attempted welcome cipherSuite scope).row id ≠ scope.row id := by
  obtain ⟨reference, held, deleted, notStored⟩ := store.consumes (Prod.ext answers rfl)
  refine ⟨⟨.plain .keyPackage, reference⟩, fun same => ?_⟩
  have gone := scope.row_write_deleted deleted notStored
  rw [← same, row_attempted] at held
  rw [KeyMaterial.entityType, KeyMaterial.collection] at gone
  rw [gone] at held
  cases held

theorem welcomeUndone_iff (store : WelcomeStore b) (welcome : Bytes) (cipherSuite : Nat)
    (scope : Scope b) :
    store.WelcomeUndone welcome cipherSuite scope ↔
      store.WelcomeFits welcome cipherSuite scope := by
  rw [WelcomeUndone, WelcomeFits]
  cases called : store.newFromWelcome scope.row scope.clock (.ofCipherSuite cipherSuite) welcome with
  | mk result writes =>
  have answers := congrArg Prod.fst called
  cases result with
  | error err =>
    have rows (id : EntityId) : (store.attempted welcome cipherSuite scope).row id =
        (scope.write writes).row id := by rw [row_attempted, called]
    rw [processWelcomeMessage_eq, called]
    constructor
    · intro undone id
      rw [← rows]
      exact undone _ _ rfl id
    · rintro unchanged _ _ ⟨⟩ id
      exact (rows id).trans (unchanged id)
  | ok group =>
    obtain ⟨id, changed⟩ := attempted_changed answers
    rw [processWelcomeMessage_eq, called, persistWelcomed_of_group, taken_attempted]
    cases taken : scope.taken group.groupId with
    | true =>
      refine ⟨fun undone => absurd (undone _ _ rfl id) changed, fun fits => ?_⟩
      exact absurd (taken.symm.trans fits.1) nofun
    | false =>
      cases serialised : b.ser group with
      | error code =>
        refine ⟨fun undone => absurd (undone _ _ rfl id) changed, fun fits => ?_⟩
        obtain ⟨state, stored⟩ := fits.2
        exact absurd (serialised.symm.trans stored) nofun
      | ok state => exact ⟨fun _ => ⟨taken, state, serialised⟩, fun _ _ _ => nofun⟩

/-- A Welcome is answered as in the model without the key store. -/
theorem outcome_processWelcomeMessage
    (agrees : b.newFromWelcome scope.clock (.ofCipherSuite cipherSuite) welcome =
      (store.newFromWelcome scope.row scope.clock (.ofCipherSuite cipherSuite) welcome).1) :
    outcome (store.processWelcomeMessage welcome cipherSuite) scope =
      outcome (Conversation.processWelcomeMessage b welcome cipherSuite) scope := by
  have calls : Conversation.processWelcomeMessage b welcome cipherSuite scope =
      persistWelcomed b cipherSuite
        (b.newFromWelcome scope.clock (.ofCipherSuite cipherSuite) welcome)
        { scope with clock := scope.clock + 1 } := rfl
  rw [outcome, outcome, calls, processWelcomeMessage_eq, agrees]
  cases (store.newFromWelcome scope.row scope.clock (.ofCipherSuite cipherSuite) welcome).1 with
  | error err => rfl
  | ok group =>
    have ticked : ({ scope with clock := scope.clock + 1 } : Scope b).taken group.groupId =
        scope.taken group.groupId := rfl
    rw [persistWelcomed_of_group, persistWelcomed_of_group, taken_attempted, ticked]
    cases scope.taken group.groupId with
    | true => rfl
    | false => cases b.ser group <;> rfl

end WelcomeStore

/-- **Failed joins.**  A rejected external commit always leaves the pending group.  A Welcome that
cannot be processed leaves the keystore as it is iff OpenMLS itself fails without a write, or makes
a group that is then stored. -/
theorem failed_joins_undone_iff (transport : Transport b) (store : WelcomeStore b) :
    (∀ groupInfo cipherSuite credentialRef scope,
      RejectionUndone transport groupInfo cipherSuite credentialRef scope ↔
        ¬ JoinRejected transport groupInfo cipherSuite credentialRef scope) ∧
    (∀ welcome cipherSuite scope,
      store.WelcomeUndone welcome cipherSuite scope ↔
        store.WelcomeFits welcome cipherSuite scope) :=
  ⟨rejectionUndone_iff transport, store.welcomeUndone_iff⟩

namespace Sample

/-- A delivery service that rejects every commit. -/
def rejecting : Transport (backend (.error 0)) where
  sendCommitBundle _ _ := .error (.recursive "send commit bundle" (.messageRejected "stale"))
  code _ := 0
  agrees _ _ := rfl

/-- A Welcome names its key package. -/
def keyStore : WelcomeStore (backend (.error 0)) where
  newFromWelcome read _ configuration welcome :=
    if (read ⟨.plain .keyPackage, welcome⟩).isSome then
      (.ok (newGroup welcome configuration.cipherSuite 1), [.delete .keyPackage welcome])
    else (.error .noMatchingKeyPackage, [])
  consumes {read call configuration welcome group writes} made := by
    split at made
    next held =>
      cases made
      exact ⟨welcome, held, by simp, by simp⟩
    · cases made

/-- A client with a conversation and a key package. -/
def holder : Scope (backend (.error 0)) where
  heap := []
  conversationCache := .empty
  rows := [.plain .keyPackage [42] [], .persistedMlsGroup [42] (newGroup [42] 1 5) none]
  transaction := .new
  pendingEpochChanges := []
  accepted := []
  historyClients := []
  clock := 0

/-- The Welcome again, once the conversation is gone. -/
def retry : ScopeOp (backend (.error 0)) ConversationId := do
  let _ ← attempt (keyStore.processWelcomeMessage [42] 1)
  removeRow _ (groupEntityId [42])
  keyStore.processWelcomeMessage [42] 1

def isOrphanWelcome : Except (ScopeError (backend (.error 0))) ConversationId → Bool
  | .error (.conversation _ .orphanWelcome) => true
  | _ => false

end Sample

/-- After a rejected join there is a pending group, and no conversation can be made with this id.
A Welcome for a conversation that exists is refused, and is not found to be for this client once
the conversation is gone. -/
theorem rejected_join_stays_pending :
    ¬ RejectionUndone Sample.rejecting [43] 1 [] Sample.holder ∧
      (finalState (Sample.rejecting.joinByExternalCommit [43] 1 []) Sample.holder).taken [43] ∧
      ¬ Sample.keyStore.WelcomeUndone [42] 1 Sample.holder ∧
      Sample.isOrphanWelcome (outcome Sample.retry Sample.holder) := by
  refine ⟨?_, by decide +kernel, ?_, by decide +kernel⟩
  · rw [rejectionUndone_iff, not_not]
    exact ⟨_, _, _, _, rfl, rfl, rfl⟩
  · rw [WelcomeStore.welcomeUndone_iff]
    intro fits
    exact absurd fits.1 (by decide +kernel)

end CoreCrypto.Conversation
