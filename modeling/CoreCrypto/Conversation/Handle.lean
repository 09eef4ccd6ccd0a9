import CoreCrypto.OpenMls
import CoreCrypto.Keystore.Reads
import CoreCrypto.Library.Hoare
import CoreCrypto.TransactionContext.Context

/-!
# Conversation handles

The state a `ConversationMut` works on while its transaction context is valid: the group
behind its `Arc<Conversation>`, the keystore as seen through the open transaction, the
conversation cache and what was queued or sent so far.  Every operation of the handle is an
`Op` on this state and keeps what it has changed when it fails.
-/

namespace CoreCrypto.Conversation

open Keystore Library

inductive LeafError where
  | internalMlsError
  | missingGroupInfo
  deriving DecidableEq, Repr

/-- `mls::conversation::Error`.  Errors of callees that no caller looks into carry a code.
`panicked` stands for a failed assertion, `recursionLimit` for a recursion deeper than
`recursionDepth`. -/
inductive Error where
  | inappropriateMessageBodyType
  | duplicateMessage
  | messageEpochTooOld
  | staleMessage
  | bufferedCommit
  | bufferedFutureMessage (messageEpoch : Nat)
  | bufferedForPendingConversation
  | unbufferedFarFutureMessage
  | staleCommit
  | staleProposal
  | decryptionError
  | identityInitializationError
  | mlsGroupInvalidState (text : String)
  | mlsMessageInvalidState (text : String)
  | pendingCommitNotFound
  | pendingConversationNotFound
  | clearingPendingCommitError
  | selfCommitIgnored
  | orphanWelcome
  | duplicateSignature (affectedClients : List (Bytes × Bytes))
  | tlsDeserialize (item : String)
  | processing (source : ProcessMessageError)
  | openMls (context : String) (code : Nat)
  | keystore (context : String) (code : Nat)
  | leaf (source : LeafError)
  | external (context : String) (code : Nat)
  | recursive (context : String) (source : Error)
  | panicked (text : String)
  | recursionLimit
  deriving DecidableEq, Repr

structure Env (b : Backend) where
  id : ConversationId
  configuration : ConversationConfiguration
  group : b.Group
  rows : List (Entity b.State)
  transaction : KeystoreTransaction b.State
  /-- The cached conversations; a value stands for an `Arc<Conversation>`. -/
  conversationCache :
    LruMap ConversationId Nat TransactionContext.conversationCacheCapacity
  pendingEpochChanges : List (ConversationId × Nat)
  /-- The commit bundles the transport has accepted. -/
  accepted : List CommitBundle
  /-- The history clients announced to the observer. -/
  historyClients : List (ConversationId × HistorySecret)
  /-- The number of calls that drew random numbers or went to the delivery service. -/
  clock : Nat

abbrev Op (b : Backend) := EStateM Error (Env b)

variable {b : Backend} {α : Type}

/-! ### Access to the keystore and the group -/

section Access

variable (b)

def liftExcept {ε : Type} (wrap : ε → Error) : Except ε α → Op b α
  | .ok a => pure a
  | .error e => throw (wrap e)

def save (entity : Entity b.State) : Op b Unit :=
  modify fun env => { env with transaction := env.transaction.save b.rt entity }

def remove (entityId : EntityId) : Op b Unit :=
  modify fun env => { env with transaction := env.transaction.removeByEntityId entityId }

def getBorrowed (entityId : EntityId) : Op b (Option (Entity b.State)) := do
  let env ← get
  return env.transaction.read b.rt env.rows entityId

/-- One more call that draws random numbers or goes to the delivery service. -/
def tick : Op b Nat :=
  modifyGet fun env => (env.clock, { env with clock := env.clock + 1 })

/-- Runs a function of OpenMLS on the group; the group keeps what it did before failing. -/
def onGroup (f : b.Group → Except Error α × b.Group) : Op b α := fun env =>
  match f env.group with
  | (.ok a, group) => .ok a { env with group }
  | (.error e, group) => .error e { env with group }

/-- The entity of the group's serialised state. -/
def groupEntityId (id : ConversationId) : EntityId := ⟨.persistedMlsGroup, id⟩

/-- `mls_group_persist` with the state of the group, if the group has changed. -/
def persist : Op b Unit := do
  let env ← get
  if env.group.innerState = .changed then
    let state ← liftExcept b (.keystore "serializing group state") (b.ser env.group)
    save b (.persistedMlsGroup env.id state none)
    modify fun env => { env with group := env.group.setPersisted }

/-- `mutate_group`: an operation that fails persists nothing. -/
def mutateGroup (operation : Op b α) : Op b α := do
  let result ← operation
  persist b
  return result

def queueEpochChanged (id : ConversationId) (epoch : Nat) : Op b Unit :=
  modify fun env => { env with pendingEpochChanges := env.pendingEpochChanges ++ [(id, epoch)] }

end Access

/-! ### Reading the group -/

/-- `HISTORY_CLIENT_ID_PREFIX.as_bytes()`. -/
def historyClientIdPrefix : Bytes :=
  [104, 105, 115, 116, 111, 114, 121, 45, 99, 108, 105, 101, 110, 116]

def isHistoryClient (clientId : Bytes) : Bool :=
  historyClientIdPrefix.isPrefixOf clientId

def getHistoryClientIds (group : b.Group) : List Bytes :=
  (group.members.map (·.credential.identity)).filter isHistoryClient

def isHistorySharingEnabled (group : b.Group) : Bool :=
  !(getHistoryClientIds group).isEmpty

/-- `is_duplicate_message`: commits are told by the confirmation tag, proposals by their
body. -/
def isDuplicateMessage (b : Backend) (group : b.Group) (message : PublicMessageIn) :
    Except Error Bool :=
  match message.body, message.sender with
  | .commit _, .member _ | .commit _, .newMemberCommit =>
    match message.confirmationTag with
    | none => .error (.mlsGroupInvalidState "a commit must have a ConfirmationTag")
    | some messageTag =>
      match b.computeConfirmationTag group with
      | .error code => .error (.openMls "computing confirmation tag" code)
      | .ok groupTag => .ok (messageTag = groupTag)
  | .proposal proposal, .member _ | .proposal proposal, .newMemberProposal =>
    .ok (group.pendingProposals.any (fun pending => pending.proposal = proposal))
  | _, _ => .ok false

/-- `calculate_delay`. -/
def calculateDelay (b : Backend) (selfIndex epoch nbMembers : Nat) : Nat :=
  let position :=
    if 0 < nbMembers then (epoch % nbMembers + selfIndex % nbMembers) % nbMembers + 1 else 1
  if 1 ≤ position ∧ position ≤ 3 then (position - 1) * 15 else b.rampUp position - 106

def computeNextCommitDelay (b : Backend) (group : b.Group) : Option Nat :=
  if group.pendingProposals.isEmpty then none
  else
    let removedIndices :=
      (group.pendingProposals.filterMap (·.proposal.removed?)).dedup
    if group.ownLeafIndex ∈ removedIndices then none
    else
      let leftTreeDiff :=
        ((group.members.take group.ownLeafIndex).filter (·.index ∈ removedIndices)).length
      let nbMembers := group.members.length - removedIndices.length
      some (calculateDelay b (group.ownLeafIndex - leftTreeDiff) group.epoch nbMembers)

/-- The own leaf in the last own update proposal that is pending, or the current one. -/
def currentLeaf (group : b.Group) : Option CredentialWithKey :=
  let updated := group.pendingProposals.filterMap fun pending =>
    match pending.sender, pending.proposal with
    | .member index, .update leafNode => if index = group.ownLeafIndex then some leafNode else none
    | _, _ => none
  updated.getLast?.or group.ownLeaf

/-- `find_current_credential`, with the error `credential` gives in its place. -/
def credential (b : Backend) (group : b.Group) : Except Error CredentialWithKey :=
  match currentLeaf group with
  | none => .error .identityInitializationError
  | some leaf =>
    match b.findCredentialByPublicKey leaf.signatureKey with
    | .ok found => .ok found
    | .error _ => .error .identityInitializationError

end CoreCrypto.Conversation
