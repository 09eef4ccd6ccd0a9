import CoreCrypto.Conversation.Commit

/-!
# Conversations of a transaction context

The operations of `TransactionContext`, `ConversationCache` and `PendingConversation` on the
state of a client whose context is valid.  An `Arc<Conversation>` is an address into `heap`,
so that two handles may share a conversation and a handle may outlive its cache entry.
-/

namespace CoreCrypto.Conversation

open Keystore Library

/-- A conversation behind an `Arc`. -/
structure SharedConversation (b : Backend) where
  id : ConversationId
  group : b.Group
  configuration : ConversationConfiguration

structure Scope (b : Backend) where
  heap : List (SharedConversation b)
  conversationCache :
    LruMap ConversationId Nat TransactionContext.conversationCacheCapacity
  rows : List (Entity b.State)
  transaction : KeystoreTransaction b.State
  pendingEpochChanges : List (ConversationId × Nat)
  accepted : List CommitBundle
  historyClients : List (ConversationId × HistorySecret)
  clock : Nat

/-- `PendingConversation`: the row it was made from. -/
structure PendingConversation (b : Backend) where
  id : ConversationId
  state : b.State
  customConfiguration : Bytes

/-- `transaction_context::Error`. -/
inductive ScopeError (b : Backend) where
  | pendingConversation (pending : PendingConversation b)
  | conversationNotFound (id : ConversationId)
  | conversationAlreadyExists (id : ConversationId)
  | callerError (text : String)
  | missingGroupInfo
  | internalMlsError
  | openMls (context : String) (code : Nat)
  | keystore (context : String) (code : Nat)
  | external (context : String) (code : Nat)
  | mls (source : Error)
  | conversation (context : String) (source : Error)
  | danglingHandle

abbrev ScopeOp (b : Backend) := EStateM (ScopeError b) (Scope b)

variable {b : Backend} {α : Type}

/-! ### Handles -/

namespace Scope

/-- What the operations of a handle to the conversation at `address` work on. -/
def focus (scope : Scope b) (address : Nat) : Option (Env b) :=
  scope.heap[address]?.map fun conversation =>
    { id := conversation.id
      configuration := conversation.configuration
      group := conversation.group
      rows := scope.rows
      transaction := scope.transaction
      conversationCache := scope.conversationCache
      pendingEpochChanges := scope.pendingEpochChanges
      accepted := scope.accepted
      historyClients := scope.historyClients
      clock := scope.clock }

/-- The scope after an operation of such a handle has left `env`. -/
def unfocus (scope : Scope b) (address : Nat) (env : Env b) : Scope b :=
  { heap := scope.heap.set address ⟨env.id, env.group, env.configuration⟩
    conversationCache := env.conversationCache
    rows := env.rows
    transaction := env.transaction
    pendingEpochChanges := env.pendingEpochChanges
    accepted := env.accepted
    historyClients := env.historyClients
    clock := env.clock }

/-- The row of an id, as read through the open transaction. -/
def row (scope : Scope b) (entityId : EntityId) : Option (Entity b.State) :=
  scope.transaction.read b.rt scope.rows entityId

/-- `finish`, after which the next context begins.  When the commit fails, the cache is cleared and
the transaction stays where it is. -/
def finish (scope : Scope b) : Scope b :=
  match scope.transaction.execute b.rt scope.rows with
  | .ok rows => { scope with rows, transaction := .new, pendingEpochChanges := [] }
  | .error _ => { scope with conversationCache := .empty, pendingEpochChanges := [] }

/-- `abort`, after which the next context begins. -/
def abort (scope : Scope b) : Scope b :=
  { scope with transaction := .new, conversationCache := .empty, pendingEpochChanges := [] }

end Scope

/-- Runs an operation of the handle to the conversation at `address`. -/
def withHandle (context : String) (address : Nat) (op : Op b α) : ScopeOp b α := fun scope =>
  match scope.focus address with
  | none => .error .danglingHandle scope
  | some env =>
    match op env with
    | .ok a env => .ok a (scope.unfocus address env)
    | .error e env => .error (.conversation context e) (scope.unfocus address env)

section Context

variable (b)

def liftScope {ε : Type} (wrap : ε → ScopeError b) : Except ε α → ScopeOp b α
  | .ok a => pure a
  | .error e => throw (wrap e)

def saveRow (entity : Entity b.State) : ScopeOp b Unit :=
  modify fun scope => { scope with transaction := scope.transaction.save b.rt entity }

def removeRow (entityId : EntityId) : ScopeOp b Unit :=
  modify fun scope => { scope with transaction := scope.transaction.removeByEntityId entityId }

def scopeTick : ScopeOp b Nat :=
  modifyGet fun scope => (scope.clock, { scope with clock := scope.clock + 1 })

/-! ### `ConversationCache` -/

/-- `insert`: a fresh `Arc` takes the place of a cached one. -/
def cacheInsert (conversation : SharedConversation b) : ScopeOp b Nat :=
  modifyGet fun scope =>
    (scope.heap.length,
      { scope with
        heap := scope.heap ++ [conversation]
        conversationCache := scope.conversationCache.insert conversation.id scope.heap.length })

def groupState? {S : Type} : Entity S → Option S
  | .persistedMlsGroup _ state _ => some state
  | _ => none

/-- `Conversation::load`: the configuration is rebuilt from the cipher suite of the group. -/
def load (id : ConversationId) : ScopeOp b (Option (SharedConversation b)) := do
  match ((← get).row (groupEntityId id)).bind groupState? with
  | none => return none
  | some state =>
    let group ← liftScope b (.keystore "deserializing group state") (b.deser state)
    return some ⟨group.groupId, group, .ofCipherSuite group.ciphersuite⟩

/-- `get_or_fetch`: a cached conversation is returned as it is, a loaded one only if its group
is active. -/
def getOrFetch (id : ConversationId) : ScopeOp b (Option Nat) := do
  match (← get).conversationCache.peek id with
  | some address =>
    modify fun scope => { scope with conversationCache := scope.conversationCache.touch id }
    return some address
  | none =>
    match ← load b id with
    | none => return none
    | some conversation =>
      if conversation.group.isActive then
        return some (← cacheInsert b conversation)
      else
        removeRow b (groupEntityId id)
        return none

/-! ### `TransactionContext` -/

/-- `exists` of the cache, which loads nothing. -/
def conversationExists (id : ConversationId) : ScopeOp b Bool := do
  let scope ← get
  return (scope.conversationCache.peek id).isSome || (scope.row (groupEntityId id)).isSome

def pendingGroupEntityId (id : ConversationId) : EntityId := ⟨.persistedMlsPendingGroup, id⟩

def pendingGroup? : Entity b.State → Option (PendingConversation b)
  | .persistedMlsPendingGroup id state _ customConfiguration => some ⟨id, state, customConfiguration⟩
  | _ => none

def pendingConversation (id : ConversationId) : ScopeOp b (PendingConversation b) := do
  match ((← get).row (pendingGroupEntityId id)).bind (pendingGroup? b) with
  | some pending => return pending
  | none => throw (.conversationNotFound id)

def pendingConversationExists (id : ConversationId) : ScopeOp b Bool := do
  return (((← get).row (pendingGroupEntityId id)).bind (pendingGroup? b)).isSome

/-- `conversation`: the address behind the handle. -/
def conversation (id : ConversationId) : ScopeOp b Nat := do
  match ← getOrFetch b id with
  | some address => return address
  | none =>
    let pending ← pendingConversation b id
    throw (.pendingConversation pending)

/-- `persist_conversation_from_mls_group`, which does not look whether there is one already. -/
def persistConversationFromMlsGroup (group : b.Group)
    (configuration : ConversationConfiguration) : ScopeOp b Nat := do
  let state ← liftScope b (.keystore "serializing group state") (b.ser group)
  saveRow b (.persistedMlsGroup group.groupId state none)
  cacheInsert b ⟨group.groupId, group.setPersisted, configuration⟩

/-- The group is stored unless a conversation or a pending one has its id. -/
def ensureNew (id : ConversationId) : ScopeOp b Unit := do
  let joined ← conversationExists b id
  let pending ← pendingConversationExists b id
  if joined || pending then throw (.conversationAlreadyExists id)

/-- There is a conversation with this id, or a pending one. -/
def Scope.taken {b : Backend} (scope : Scope b) (id : ConversationId) : Bool :=
  ((scope.conversationCache.peek id).isSome || (scope.row (groupEntityId id)).isSome) ||
    ((scope.row (pendingGroupEntityId id)).bind (pendingGroup? b)).isSome

theorem ensureNew_eq (id : ConversationId) (scope : Scope b) :
    ensureNew b id scope =
      if scope.taken id then .error (.conversationAlreadyExists id) scope else .ok () scope := by
  have unfolded : ensureNew b id scope = (if scope.taken id then
      throw (.conversationAlreadyExists id) else pure () : ScopeOp b Unit) scope := rfl
  rw [unfolded]
  cases scope.taken id <;> rfl

def newConversation (id : ConversationId) (credentialRef : Bytes)
    (configuration : ConversationConfiguration) : ScopeOp b Unit := do
  ensureNew b id
  let signer ← liftScope b (.external "loading credential from database to create new conversation")
    (b.loadCredential credentialRef)
  let call ← scopeTick b
  let group ← liftScope b (.openMls "creating group with id")
    (b.newWithGroupId call signer configuration id)
  discard (persistConversationFromMlsGroup b group configuration)

def welcomeError : WelcomeError → ScopeError b
  | .noMatchingKeyPackage | .noMatchingEncryptionKey =>
    .conversation "creating mls group from welcome message" .orphanWelcome
  | .other code => .conversation "creating mls group from welcome message"
      (.openMls "group could not be created from welcome" code)

/-- `process_welcome_message`, for a welcome with its cipher suite. -/
def processWelcomeMessage (welcome : Bytes) (cipherSuite : Nat) : ScopeOp b ConversationId := do
  let configuration := ConversationConfiguration.ofCipherSuite cipherSuite
  let call ← scopeTick b
  let group ← liftScope b (welcomeError b) (b.newFromWelcome call configuration welcome)
  ensureNew b group.groupId
  discard (persistConversationFromMlsGroup b group configuration)
  return group.groupId

end Context

/-! ### `PendingConversation` -/

namespace PendingConversation

variable (pending : PendingConversation b)

/-- The pending group with its join commit merged. -/
def mergedGroup (b : Backend) (context : String) (state : b.State) :
    Except (ScopeError b) b.Group :=
  match b.deser state with
  | .error code => .error (.keystore context code)
  | .ok group =>
    match b.mergePendingCommit group with
    | (.ok (), merged) => .ok merged
    | (.error code, _) => .error (.openMls "merging pending commit" code)

def clear : ScopeOp b Unit :=
  removeRow b (pendingGroupEntityId pending.id)

def removePendingMessages : ScopeOp b Unit :=
  modify fun scope =>
    { scope with
      transaction := scope.transaction.removePendingMessagesByConversationId pending.id }

/-- Restores the buffered messages of the conversation at `address`. -/
def restore (address : Nat) (policy : MessageRestorePolicy) :
    ScopeOp b (Option (List (BufferedDecryptedMessage b))) :=
  withHandle "restoring pending messages" address
    (restorePendingMessages (decryptMessageInner b · .none) policy)

def merge : ScopeOp b (Option (List (BufferedDecryptedMessage b))) := do
  let group ← liftScope b (fun e => e) (mergedGroup b "deserializing mls group" pending.state)
  let custom ← liftScope b (.openMls "deserializing mls custom configuration")
    (b.decodeCustom pending.customConfiguration)
  let configuration : ConversationConfiguration := ⟨group.ciphersuite, [], custom⟩
  -- a group that exists is being rejoined: its buffered messages are of no use any more
  let policy := if ((← get).row (groupEntityId pending.id)).isSome then
    MessageRestorePolicy.clearOnly else .decryptAndClear
  let address ← persistConversationFromMlsGroup b group configuration
  let pendingMessages ← restore address policy
  if pendingMessages.isSome then pending.removePendingMessages
  pending.clear
  return pendingMessages

/-- `incoming_message_is_own_join_commit`: the confirmation tag is the one the pending group
would have. -/
def isOwnJoinCommit (message : Bytes) : ScopeOp b Bool := do
  match ((← get).row (pendingGroupEntityId pending.id)).bind (pendingGroup? b) with
  | none => throw (.mls .pendingConversationNotFound)
  | some stored =>
    let group ← liftScope b (fun e => e) (mergedGroup b "deserializing mls pending groups" stored.state)
    match b.tlsDeserialize message with
    | none => throw (.openMls "deserializing mls message" 0)
    | some (.publicMessage publicMessage) =>
      match publicMessage.confirmationTag with
      | none => return false
      | some messageTag =>
        let groupTag ← liftScope b (.openMls "computing confirmation tag")
          (b.computeConfirmationTag group)
        return messageTag = groupTag
    | some _ => return false

/-- `merge_and_restore_messages`. -/
def mergeAndRestoreMessages : ScopeOp b (DecryptedMessage b) := do
  let bufferedMessages ← pending.merge
  let address ← conversation b pending.id
  match (← get).heap[address]? with
  | none => throw .danglingHandle
  | some conversation =>
    match conversation.group.ownLeaf with
    | none => throw .internalMlsError
    | some ownLeaf =>
      let identity ← liftScope b (.external "extracting identity")
        (b.extractIdentity ownLeaf conversation.configuration.cipherSuite)
      return {
        appMsg := none
        isActive := conversation.group.isActive
        delay := computeNextCommitDelay b conversation.group
        senderClientId := none
        identity
        bufferedMessages }

def tryProcessOwnJoinCommit (message : Bytes) : ScopeOp b (DecryptedMessage b) := do
  if ← pending.isOwnJoinCommit message then pending.mergeAndRestoreMessages
  else
    saveRow b (.mlsPendingMessage pending.id message)
    throw (.mls .bufferedForPendingConversation)

end PendingConversation

/-- The part of `join_by_external_commit` that stores the pending group and sends its commit.  A
rejected commit leaves the pending group, since the error of the transport is never the one the
code looks for. -/
def sendJoinCommit (b : Backend) (groupInfo : Bytes) (cipherSuite : Nat) (credentialRef : Bytes) :
    ScopeOp b (PendingConversation b) := do
  let signer ← liftScope b (.external "loading credential") (b.loadCredential credentialRef)
  let call ← scopeTick b
  let (group, commit, groupInfo) ← liftScope b (.openMls "joining mls group by external commit")
    (b.joinByExternalCommit call signer groupInfo (.ofCipherSuite cipherSuite))
  match groupInfo with
  | none => throw .missingGroupInfo
  | some groupInfo =>
    let groupInfo ← liftScope b (.external "trying new full plaintext group info bundle")
      (b.tryNewFullPlaintext groupInfo)
    let state ← liftScope b (.keystore "serializing mls group") (b.ser group)
    let pending : PendingConversation b :=
      ⟨group.groupId, state, b.encodeCustom .default⟩
    saveRow b (.persistedMlsPendingGroup pending.id pending.state none pending.customConfiguration)
    let bundle : CommitBundle := ⟨none, commit, groupInfo, none⟩
    let call ← scopeTick b
    liftScope b (.external "sending commit") (b.sendCommitBundle call bundle)
    modify fun scope => { scope with accepted := scope.accepted ++ [bundle] }
    return pending

def joinByExternalCommit (b : Backend) (groupInfo : Bytes) (cipherSuite : Nat)
    (credentialRef : Bytes) : ScopeOp b ConversationId := do
  let pending ← sendJoinCommit b groupInfo cipherSuite credentialRef
  discard pending.merge
  return pending.id

end CoreCrypto.Conversation
