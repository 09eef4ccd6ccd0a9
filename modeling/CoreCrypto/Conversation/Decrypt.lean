import Mathlib.Data.List.Sort
import CoreCrypto.Conversation.Handle

/-!
# Receiving messages

`decrypt_message` with its two buffers: messages of the next epoch wait until the group gets there,
and one commit waits for the proposals it refers to.  Both are fed by the outermost call and
replayed by recursive calls.
-/

namespace CoreCrypto.Conversation

open Keystore Library

variable {b : Backend}

structure BufferedDecryptedMessage (b : Backend) where
  appMsg : Option Bytes
  isActive : Bool
  delay : Option Nat
  senderClientId : Option Bytes
  identity : b.Identity

structure DecryptedMessage (b : Backend) where
  appMsg : Option Bytes
  isActive : Bool
  delay : Option Nat
  senderClientId : Option Bytes
  identity : b.Identity
  bufferedMessages : Option (List (BufferedDecryptedMessage b))

/-- `From<DecryptedMessage> for BufferedDecryptedMessage`. -/
def DecryptedMessage.buffered (message : DecryptedMessage b) : BufferedDecryptedMessage b :=
  { appMsg := message.appMsg
    isActive := message.isActive
    delay := message.delay
    senderClientId := message.senderClientId
    identity := message.identity }

def DecryptedMessage.withBuffered (message : DecryptedMessage b)
    (bufferedMessages : Option (List (BufferedDecryptedMessage b))) : DecryptedMessage b :=
  { message with bufferedMessages }

inductive RecursionPolicy where
  | asNecessary
  | none
  deriving DecidableEq, Repr

inductive MessageRestorePolicy where
  | decryptAndClear
  | clearOnly
  deriving DecidableEq, Repr

/-! ### Merging and clearing commits -/

section Merge

variable (b)

/-- `merge_pending_commit` of the group. -/
def mergePendingOnGroup (group : b.Group) : Except Error Unit × b.Group :=
  ((b.mergePendingCommit group).1.mapError (.openMls "merging pending commit"),
    (b.mergePendingCommit group).2)

def commitAccepted : Op b Unit :=
  mutateGroup b do
    -- the encryption keys of own update proposals go once the commit is merged
    let previousOwnLeafNodes := (← get).group.ownLeafNodes
    onGroup b (mergePendingOnGroup b)
    previousOwnLeafNodes.forM fun encryptionKey =>
      remove b ⟨.plain .encryptionKeyPair, encryptionKey⟩

def clearPendingCommit : Op b Unit :=
  mutateGroup b (onGroup b fun group =>
    if group.pendingCommit.isNone then (.error .pendingCommitNotFound, group)
    else (.ok (), b.clearPendingCommit group))

def ensureNoPendingCommit : Op b Unit := do
  match ← attempt (clearPendingCommit b) with
  | .error .pendingCommitNotFound => return ()
  | .error e => throw e
  | .ok () => return ()

/-- Removes the pending proposals one after the other. -/
def removePendingProposals (b : Backend) :
    List Bytes → b.Group → Except Error Unit × b.Group
  | [], group => (.ok (), group)
  | reference :: rest, group =>
    match b.removePendingProposal group reference with
    | (.ok (), group) => removePendingProposals b rest group
    | (.error code, group) => (.error (.openMls "removing pending proposal" code), group)

def wipe : Op b Unit := do
  mutateGroup b (onGroup b fun group =>
    let group := b.deletePreviousEpochKeypairs group
    removePendingProposals b (group.pendingProposals.map (·.reference)) group)
  let id := (← get).id
  remove b (groupEntityId id)
  modify fun env => { env with conversationCache := env.conversationCache.remove id }

end Merge

/-! ### Own commits -/

section OwnCommit

variable (b)

def extractConfirmationTagFromOwnCommit (group : b.Group) : MlsMessageIn → Except Error Bytes
  | .publicMessage message =>
    if message.body.contentType = .commit ∧ message.sender = .member group.ownLeafIndex then
      match message.confirmationTag with
      | some tag => .ok tag
      | none => .error (.mlsMessageInvalidState "Message confirmation tag not present")
    else .error (.panicked ("extract_confirmation_tag_from_own_commit() must always be called "
      ++ "with an own commit."))
  | _ => .error (.panicked ("extract_confirmation_tag_from_own_commit() must always be called "
      ++ "with an MlsMessageIn containing an MlsMessageInBody::PublicMessage"))

/-- Whether the own commit that came back is the one that is pending. -/
def checkOwnCommit (group : b.Group) (confirmationTag : Bytes) : Except Error Unit :=
  match group.pendingCommit with
  -- either the commit was replayed or it was cleared after the delivery service took it
  | none => .error .selfCommitIgnored
  | some pendingCommit =>
    if pendingCommit.confirmationTag = confirmationTag then .ok ()
    else .error .clearingPendingCommitError

/-- What is answered to an own commit, in the group it was merged into. -/
def ownCommitAnswer (cipherSuite : Nat) (group : b.Group) : Except Error (DecryptedMessage b) :=
  match group.ownLeaf with
  | none => .error (.mlsGroupInvalidState "own_leaf is None")
  | some ownLeaf =>
    match b.extractIdentity ownLeaf cipherSuite with
    | .error code => .error (.external "extracting identity" code)
    | .ok identity => .ok {
        appMsg := none
        isActive := group.isActive
        delay := computeNextCommitDelay b group
        senderClientId := none
        identity
        bufferedMessages := none }

def mergePendingCommit : Op b (DecryptedMessage b) := do
  commitAccepted b
  let env ← get
  liftExcept b id (ownCommitAnswer b env.configuration.cipherSuite env.group)

def handleOwnCommit (confirmationTag : Bytes) : Op b (DecryptedMessage b) := do
  liftExcept b id (checkOwnCommit b (← get).group confirmationTag)
  mergePendingCommit b

end OwnCommit

/-! ### Parsing and processing -/

structure ParsedMessage where
  isDuplicate : Bool
  protocolMessage : ProtocolMessage
  contentType : ContentType

def parseMessage (b : Backend) (group : b.Group) : MlsMessageIn → Except Error ParsedMessage
  | .publicMessage message => do
    let isDuplicate ← isDuplicateMessage b group message
    return ⟨isDuplicate, .publicMessage message, message.body.contentType⟩
  | .privateMessage message => .ok ⟨false, .privateMessage message, message.contentType⟩
  | .other _ => .error (.processing .incompatibleWireFormat)

/-- The error a message of the wrong epoch gets. -/
def wrongEpochError (isDuplicate : Bool) (messageEpoch groupEpoch : Nat)
    (contentType : ContentType) : Error :=
  if isDuplicate then .duplicateMessage
  -- only the next epoch: a later one could not be decrypted when this one is merged
  else if messageEpoch = groupEpoch + 1 then .bufferedFutureMessage messageEpoch
  else if messageEpoch < groupEpoch then
    match contentType with
    | .application => .staleMessage
    | .commit => .staleCommit
    | .proposal => .staleProposal
  else .unbufferedFarFutureMessage

/-- How `process_message` reports an error of OpenMLS. -/
def processError (parsed : ParsedMessage) (groupEpoch : Nat) : ProcessMessageError → Error
  | .generationOutOfBound => .duplicateMessage
  | .wrongEpoch =>
    wrongEpochError parsed.isDuplicate parsed.protocolMessage.epoch groupEpoch parsed.contentType
  | .aeadError => .decryptionError
  | .tooDistantInThePast => .messageEpochTooOld
  | e => .processing e

/-- The closure that `process_message` runs on the group. -/
def processOnGroup (b : Backend) (parsed : ParsedMessage) (group : b.Group) :
    Except Error (ProcessedMessage b.K) × b.Group :=
  match b.processMessage group parsed.protocolMessage with
  | (.error e, after) => (.error (processError parsed group.epoch e), after)
  | (.ok processed, after) =>
    if parsed.isDuplicate then (.error .duplicateMessage, after) else (.ok processed, after)

def processMessage (b : Backend) (parsed : ParsedMessage) : Op b (ProcessedMessage b.K) :=
  mutateGroup b (onGroup b (processOnGroup b parsed))

/-! ### The buffers -/

section Buffers

variable (b)

def bufferedCommitEntityId (id : ConversationId) : EntityId := ⟨.storedBufferedCommit, id⟩

def commitData? {S : Type} : Entity S → Option Bytes
  | .storedBufferedCommit _ commitData => some commitData
  | _ => none

def pendingMessage? {S : Type} : Entity S → Option Bytes
  | .mlsPendingMessage _ message => some message
  | _ => none

def bufferCommit (commit : Bytes) : Op b Unit := do
  save b (.storedBufferedCommit (← get).id commit)

def retrieveBufferedCommit : Op b (Option Bytes) := do
  let row ← getBorrowed b (bufferedCommitEntityId (← get).id)
  return row.bind commitData?

def clearBufferedCommit : Op b Unit := do
  remove b (bufferedCommitEntityId (← get).id)

def bufferFutureMessage (message : Bytes) : Op b Unit := do
  save b (.mlsPendingMessage (← get).id message)

def clearPendingMessages : Op b Unit :=
  modify fun env =>
    { env with transaction := env.transaction.removePendingMessagesByConversationId env.id }

/-- `find_pending_messages_by_conversation_id`. -/
def pendingMessages (b : Backend) (rows : List (Entity b.State))
    (transaction : KeystoreTransaction b.State) (id : ConversationId) : List Bytes :=
  (transaction.findPendingMessagesByConversationId b.rt id
    (rows.filter (fun e => e.typ = .mlsPendingMessage ∧ e.foreignId? = some id))).filterMap
      pendingMessage?

/-- Decodes a buffered message for its replay. -/
def decodePending (b : Backend) (bytes : Bytes) : Except Error (ContentType × MlsMessageIn) :=
  match b.tlsDeserialize bytes with
  | none => .error (.tlsDeserialize "mls message in")
  | some message =>
    match message.protocolMessage? with
    | some protocolMessage => .ok (protocolMessage.contentType, message)
    | none => .error .inappropriateMessageBodyType

/-- Application messages first, then proposals, then commits. -/
def replayOrder (messages : List (ContentType × MlsMessageIn)) : List MlsMessageIn :=
  (messages.insertionSort (fun m n => m.1.toNat ≤ n.1.toNat)).map Prod.snd

variable {b}

/-- The loop of `restore_pending_messages`. -/
def replay (inner : MlsMessageIn → Op b (DecryptedMessage b)) :
    List MlsMessageIn → Op b (List (BufferedDecryptedMessage b))
  | [] => return []
  | message :: rest => do
    let decrypted ← inner message
    let decryptedMessages ← replay inner rest
    return decrypted.buffered :: decryptedMessages

def restorePendingMessages (inner : MlsMessageIn → Op b (DecryptedMessage b))
    (policy : MessageRestorePolicy) : Op b (Option (List (BufferedDecryptedMessage b))) := do
  if policy = .clearOnly then
    clearPendingMessages b
    return none
  let env ← get
  let messages ← liftExcept b id
    ((pendingMessages b env.rows env.transaction env.id).mapM (decodePending b))
  let decryptedMessages ← replay inner (replayOrder messages)
  return if decryptedMessages.isEmpty then none else some decryptedMessages

def restoreAndClearPendingMessages (inner : MlsMessageIn → Op b (DecryptedMessage b)) :
    Op b (Option (List (BufferedDecryptedMessage b))) := do
  match ← restorePendingMessages inner .decryptAndClear with
  | none => return none
  | some decryptedMessages =>
    clearPendingMessages b
    return some decryptedMessages

end Buffers

/-! ### `decrypt_message_inner` -/

section Inner

/-- `store_pending_proposal` of the group. -/
def storeOnGroup (b : Backend) (proposal : QueuedProposal) (group : b.Group) :
    Except Error Unit × b.Group :=
  (.ok (), b.storePendingProposal group proposal)

/-- Stores a received proposal. -/
def storeProposal (b : Backend) (proposal : QueuedProposal) : Op b Unit :=
  mutateGroup b (onGroup b (storeOnGroup b proposal))

/-- What is answered to an application message. -/
def applicationAnswer (b : Backend) (identity : b.Identity) (credential : CredentialWithKey)
    (content : Bytes) : DecryptedMessage b :=
  { appMsg := some content
    isActive := true
    delay := none
    senderClientId := b.clientId credential.identity
    identity
    bufferedMessages := none }

/-- What is answered to a proposal, in the group it was stored in. -/
def proposalAnswer (b : Backend) (identity : b.Identity) (group : b.Group) :
    DecryptedMessage b :=
  { appMsg := none
    isActive := true
    delay := computeNextCommitDelay b group
    senderClientId := none
    identity
    bufferedMessages := none }

/-- What is answered to a commit, in the group it was merged into, before the buffered
messages are replayed. -/
def commitAnswer (b : Backend) (identity : b.Identity) (group : b.Group) : DecryptedMessage b :=
  { appMsg := none
    isActive := group.isActive
    delay := computeNextCommitDelay b group
    senderClientId := none
    identity
    bufferedMessages := none }

/-- The branch of a proposal; `retry` processes the buffered commit. -/
def receiveProposal (retry : Bytes → Op b (DecryptedMessage b)) (identity : b.Identity)
    (proposal : QueuedProposal) : Op b (DecryptedMessage b) := do
  storeProposal b proposal
  match ← retrieveBufferedCommit b with
  | none => return proposalAnswer b identity (← get).group
  | some commit =>
    match ← attempt (retry commit) with
    | .ok decrypted =>
      clearBufferedCommit b
      return decrypted
    -- there are still proposals missing
    | .error .bufferedCommit => return proposalAnswer b identity (← get).group
    | .error e => throw (.recursive "processing buffered commit" e)

/-- `merge_staged_commit` of the group. -/
def mergeStagedOnGroup (b : Backend) (commit : StagedCommit b.K) (group : b.Group) :
    Except Error Unit × b.Group :=
  ((b.mergeStagedCommit group commit).1.mapError (.openMls "merge staged commit"),
    (b.mergeStagedCommit group commit).2)

/-- Merges a received commit. -/
def mergeStagedCommit (b : Backend) (commit : StagedCommit b.K) : Op b Unit :=
  mutateGroup b (onGroup b (mergeStagedOnGroup b commit))

/-- The branch of a commit; `restore` replays the buffered messages of the new epoch. -/
def receiveCommit (restore : Op b (Option (List (BufferedDecryptedMessage b))))
    (policy : RecursionPolicy) (identity : b.Identity) (commit : StagedCommit b.K) :
    Op b (DecryptedMessage b) := do
  mergeStagedCommit b commit
  let answer := commitAnswer b identity (← get).group
  let bufferedMessages ← if policy = .asNecessary then restore else pure none
  queueEpochChanged b (← get).id commit.epoch
  return answer.withBuffered bufferedMessages

/-- The branch of an own commit. -/
def receiveOwnCommit (restore : Op b (Option (List (BufferedDecryptedMessage b))))
    (policy : RecursionPolicy) (message : MlsMessageIn) : Op b (DecryptedMessage b) := do
  let confirmationTag ← liftExcept b id
    (extractConfirmationTagFromOwnCommit b (← get).group message)
  let answer ← handleOwnCommit b confirmationTag
  let bufferedMessages ← if policy = .asNecessary then restore else pure none
  return answer.withBuffered bufferedMessages

/-- What happens to a processed message. -/
def receiveContent (retry : Bytes → Op b (DecryptedMessage b))
    (restore : Op b (Option (List (BufferedDecryptedMessage b)))) (policy : RecursionPolicy)
    (processed : ProcessedMessage b.K) : Op b (DecryptedMessage b) := do
  let identity ← liftExcept b (.external "extracting identity")
    (b.extractIdentity processed.credential (← get).configuration.cipherSuite)
  match processed.content with
  | .applicationMessage content => return applicationAnswer b identity processed.credential content
  | .proposalMessage proposal => receiveProposal retry identity proposal
  | .stagedCommitMessage commit => receiveCommit restore policy identity commit
  | .externalJoinProposalMessage proposal =>
    storeProposal b proposal
    return proposalAnswer b identity (← get).group

/-- One call of `decrypt_message_inner`, given how it calls itself. -/
def receive (retry : Bytes → Op b (DecryptedMessage b))
    (restore : Op b (Option (List (BufferedDecryptedMessage b)))) (policy : RecursionPolicy)
    (message : MlsMessageIn) : Op b (DecryptedMessage b) := do
  let parsed ← liftExcept b id (parseMessage b (← get).group message)
  match ← attempt (processMessage b parsed) with
  | .error (.processing .ownCommit) => receiveOwnCommit restore policy message
  -- the caller has the bytes that are to be buffered
  | .error (.processing .missingProposal) => throw .bufferedCommit
  | .error e => throw e
  | .ok processed => receiveContent retry restore policy processed

/-- Processes the bytes of the buffered commit. -/
def tryProcessBufferedCommit (inner : MlsMessageIn → Op b (DecryptedMessage b))
    (commit : Bytes) : Op b (DecryptedMessage b) :=
  match b.tlsDeserialize commit with
  | none => throw (.tlsDeserialize "mls message in")
  | some message => inner message

/-- `decrypt_message_inner` under `RecursionPolicy::None`: only the buffered commit is tried
again. -/
def decryptWithoutRestore (b : Backend) : Nat → MlsMessageIn → Op b (DecryptedMessage b)
  | 0, _ => throw .recursionLimit
  | depth + 1, message =>
    receive (tryProcessBufferedCommit (decryptWithoutRestore b depth)) (pure none) .none message

/-- A proposal has the buffered commit tried again, and a commit has nothing tried again. -/
def recursionDepth : Nat := 2

/-- `decrypt_message_inner` under `RecursionPolicy::AsNecessary`: a merged commit has the
buffered messages replayed under `RecursionPolicy::None`. -/
def decryptAsNecessary (b : Backend) : Nat → MlsMessageIn → Op b (DecryptedMessage b)
  | 0, _ => throw .recursionLimit
  | depth + 1, message =>
    receive (tryProcessBufferedCommit (decryptAsNecessary b depth))
      (restoreAndClearPendingMessages (decryptWithoutRestore b recursionDepth)) .asNecessary message

def decryptMessageInner (b : Backend) (message : MlsMessageIn) :
    RecursionPolicy → Op b (DecryptedMessage b)
  | .asNecessary => decryptAsNecessary b recursionDepth message
  | .none => decryptWithoutRestore b recursionDepth message

end Inner

/-- What the outermost call does with the outcome of the inner one. -/
def settle (b : Backend) (message : Bytes) :
    Except Error (DecryptedMessage b) → Op b (DecryptedMessage b)
  | .error (.bufferedFutureMessage messageEpoch) => do
    bufferFutureMessage b message
    throw (.bufferedFutureMessage messageEpoch)
  | .error .bufferedCommit => do
    bufferCommit b message
    throw .bufferedCommit
  | .error e => throw e
  | .ok decrypted => do
    if !decrypted.isActive then wipe b
    return decrypted

def decryptMessage (b : Backend) (message : Bytes) : Op b (DecryptedMessage b) := do
  match b.tlsDeserialize message with
  | none => throw (.tlsDeserialize "mls message in")
  | some messageIn =>
    let result ← attempt (decryptMessageInner b messageIn .asNecessary)
    settle b message result

end CoreCrypto.Conversation
