import CoreCrypto.Conversation.Decrypt

/-!
# Creating commits

The operations of a handle that create a commit, send it to the delivery service and merge
it.  The plain path sends first and merges what was accepted.  A commit that adds a history
client is merged first, because the history secret is encrypted in the new epoch.
-/

namespace CoreCrypto.Conversation

open Keystore Library

variable (b : Backend)

/-! ### Sending and merging -/

def sendCommit (commit : CommitBundle) : Op b Unit := do
  let call ← tick b
  liftExcept b (.external "sending commit bundle") (b.sendCommitBundle call commit)
  modify fun env => { env with accepted := env.accepted ++ [commit] }

def mergeCommit : Op b Unit := do
  commitAccepted b
  let env ← get
  queueEpochChanged b env.id env.group.epoch

/-! ### Creating commits -/

/-- The pairs of clients among the key packages that share a signature key. -/
def clientsWithDuplicateSignatureKeys (keyPackages : List KeyPackageIn) :
    Except Error (List (Bytes × Bytes)) :=
  go ∅ keyPackages
where
  go (seen : AList (fun _ : Bytes => Bytes)) :
      List KeyPackageIn → Except Error (List (Bytes × Bytes))
    | [] => .ok []
    | keyPackage :: rest =>
      match b.clientId keyPackage.identity with
      | none => .error (.external "client id from bytes" 0)
      | some clientId => do
        let pairs ← go (seen.insert keyPackage.signatureKey clientId) rest
        return match seen.lookup keyPackage.signatureKey with
          | some previousClientId => (previousClientId, clientId) :: pairs
          | none => pairs

/-- The error of `add_members`. -/
def addMembersError (keyPackages : List KeyPackageIn) : CreateCommitError → Error
  | .duplicateSignatureKey =>
    match clientsWithDuplicateSignatureKeys b keyPackages with
    | .ok affectedClients => .duplicateSignature affectedClients
    | .error e => e
  | .other code => .openMls "group add members" code

/-- The error of the other functions that create a commit. -/
def createCommitError (context : String) : CreateCommitError → Error
  | .duplicateSignatureKey => .openMls context 0
  | .other code => .openMls context code

/-- `Self::group_info`. -/
def groupInfo : Option Bytes → Except Error Bytes
  | none => .error (.leaf .missingGroupInfo)
  | some groupInfo => (b.tryNewFullPlaintext groupInfo).mapError (.external "group info")

def commitBundle (output : CommitOutput) : Except Error CommitBundle := do
  return {
    welcome := output.welcome
    commit := output.commit
    groupInfo := ← groupInfo b output.groupInfo
    encryptedMessage := none }

/-- Calls the function of OpenMLS that creates a commit. -/
def createCommit (wrap : CreateCommitError → Error) (signer : CredentialWithKey)
    (request : CommitRequest) : Op b CommitOutput := do
  let call ← tick b
  onGroup b fun group =>
    ((b.createCommit call group signer request).1.mapError wrap,
      (b.createCommit call group signer request).2)

/-- The credential the handle signs with. -/
def currentCredential : Op b CredentialWithKey := do
  liftExcept b id (credential b (← get).group)

def addMembersInner (keyPackages : List KeyPackageIn) : Op b CommitBundle := do
  ensureNoPendingCommit b
  let signer ← currentCredential b
  mutateGroup b do
    let output ← createCommit b (addMembersError b keyPackages) signer (.addMembers keyPackages)
    liftExcept b id (commitBundle b output)

def setCredentialInner (signer : CredentialWithKey) : Op b CommitBundle := do
  ensureNoPendingCommit b
  mutateGroup b do
    match (← get).group.ownLeaf with
    | none => throw (.leaf .internalMlsError)
    | some leafNode =>
      -- an unchanged leaf node has to be passed as none, or no update is made of it
      let updated :=
        if leafNode.identity = signer.identity ∧ leafNode.content = signer.content then none
        else some signer
      let output ← createCommit b (createCommitError "group self update") signer
        (.explicitSelfUpdate updated)
      liftExcept b id (commitBundle b output)

def commitPendingProposalsInner : Op b (Option CommitBundle) := do
  if (← get).group.pendingProposals.isEmpty then return none
  let signer ← currentCredential b
  let output ← mutateGroup b (createCommit b
    (createCommitError "group commit to pending proposals") signer .commitToPendingProposals)
  return some (← liftExcept b id (commitBundle b output))

def commitInlineProposals (proposals : List Proposal) : Op b (Option CommitBundle) := do
  if proposals.isEmpty then return none
  let signer ← currentCredential b
  let output ← mutateGroup b (createCommit b
    (createCommitError "group commit to pending proposals") signer
    (.commitToInlineProposals proposals))
  return some (← liftExcept b id (commitBundle b output))

/-! ### Proposals and messages -/

def proposeAddMember (keyPackage : KeyPackageIn) : Op b Bytes := do
  let signer ← currentCredential b
  let call ← tick b
  mutateGroup b (onGroup b fun group =>
    ((b.proposeAddMember call group signer keyPackage).1.mapError
      (.openMls "propose add member"), (b.proposeAddMember call group signer keyPackage).2))

def proposeRemoveMember (member : Nat) : Op b Bytes := do
  let signer ← currentCredential b
  let call ← tick b
  mutateGroup b (onGroup b fun group =>
    ((b.proposeRemoveMember call group signer member).1.mapError
      (.openMls "propose remove member"), (b.proposeRemoveMember call group signer member).2))

def encryptMessage (message : Bytes) : Op b Bytes := do
  let signer ← currentCredential b
  let call ← tick b
  mutateGroup b (onGroup b fun group =>
    ((b.createMessage call group signer message).1.mapError
      (.openMls "creating encrypted message"), (b.createMessage call group signer message).2))

/-! ### History clients -/

inductive HistoryClientUpdateOutcome where
  | noUpdateNeeded
  | commitSentAndMerged
  deriving DecidableEq, Repr

def generateHistorySecret : Op b HistorySecret := do
  let call ← tick b
  liftExcept b (.external "generating history secret")
    (b.generateHistorySecret call (← get).configuration.cipherSuite)

def sendNewHistoryClientCommit (commit : CommitBundle) (historySecret : HistorySecret) :
    Op b Unit := do
  -- the history secret is encrypted with the new state of the group
  mergeCommit b
  let call ← tick b
  let transportable ← liftExcept b (.external "preparing for transport")
    (b.prepareForTransport call historySecret)
  let encryptedSecret ← encryptMessage b transportable
  modify fun env =>
    { env with historyClients := env.historyClients ++ [(env.id, historySecret)] }
  sendCommit b { commit with encryptedMessage := some encryptedSecret }

variable {b}

/-- The leaves of the members that are history clients, and of the others. -/
def historyIndices (group : b.Group) : List Nat :=
  (group.members.filter (fun member => isHistoryClient member.credential.identity)).map (·.index)

def otherIndices (group : b.Group) : List Nat :=
  (group.members.filter (fun member => !isHistoryClient member.credential.identity)).map (·.index)

/-- The leaves that a commit removes. -/
def removedIndices (commit : StagedCommit b.K) : List Nat :=
  commit.queuedProposals.filterMap (·.proposal.removed?)

/-- The pending commit removes someone, but not all history clients. -/
def needsHistoryUpdate (group : b.Group) (pendingCommit : StagedCommit b.K) : Bool :=
  !(removedIndices pendingCommit).isEmpty
    && !(historyIndices group).all (· ∈ removedIndices pendingCommit)
    && (otherIndices group).any (· ∈ removedIndices pendingCommit)

/-- The proposals of the own client that are pending. -/
def ownPendingProposals (group : b.Group) : List Proposal :=
  (group.pendingProposals.filter (·.sender = .member group.ownLeafIndex)).map (·.proposal)

variable (b)

/-- The commit that takes the place of the pending one and also replaces the history client. -/
def replacementCommit (pendingCommit : StagedCommit b.K) (existing : List Nat) :
    Op b (CommitBundle × HistorySecret) := do
  let proposals := pendingCommit.queuedProposals.map (·.proposal)
  clearPendingCommit b
  let historySecret ← generateHistorySecret b
  existing.forM fun historyClient => discard (proposeRemoveMember b historyClient)
  discard (proposeAddMember b historySecret.keyPackage)
  match ← commitInlineProposals b (proposals ++ ownPendingProposals (← get).group) with
  | none => throw (.panicked "we just added a proposal, so this will create a commit")
  | some commit => return (commit, historySecret)

def replaceHistoryClient (pendingCommit : StagedCommit b.K) (existing : List Nat) :
    Op b HistoryClientUpdateOutcome := do
  let (commit, historySecret) ← replacementCommit b pendingCommit existing
  sendNewHistoryClientCommit b commit historySecret
  return .commitSentAndMerged

def updateHistoryClient : Op b HistoryClientUpdateOutcome := do
  let group := (← get).group
  if !isHistorySharingEnabled group then return .noUpdateNeeded
  match group.pendingCommit with
  | none => throw .pendingCommitNotFound
  | some pendingCommit =>
    if needsHistoryUpdate group pendingCommit then
      replaceHistoryClient b pendingCommit (historyIndices group)
    else return .noUpdateNeeded

/-! ### The committing operations -/

def sendAndMergeCommit (commit : CommitBundle) : Op b Unit := do
  match ← updateHistoryClient b with
  | .commitSentAndMerged => return ()
  | .noUpdateNeeded =>
    match ← attempt (sendCommit b commit) with
    | .ok () => mergeCommit b
    | .error e => do
      clearPendingCommit b
      throw e

def addMembers (keyPackages : List KeyPackageIn) : Op b Unit := do
  let commit ← addMembersInner b keyPackages
  sendAndMergeCommit b commit

/-- The commit of `remove_members_or_history_clients`. -/
def removeMembersInner (clients : List Bytes) : Op b CommitBundle := do
  ensureNoPendingCommit b
  let signer ← currentCredential b
  let output ← mutateGroup b do
    let members :=
      ((← get).group.members.filter (fun member => member.credential.identity ∈ clients)).map
        (·.index)
    createCommit b (createCommitError "group remove members") signer (.removeMembers members)
  liftExcept b id (commitBundle b output)

/-- `remove_members_or_history_clients`. -/
def removeMembers (clients : List Bytes) : Op b Unit := do
  let commit ← removeMembersInner b clients
  sendAndMergeCommit b commit

def updateKeyMaterial : Op b Unit := do
  let signer ← currentCredential b
  let commit ← setCredentialInner b signer
  sendAndMergeCommit b commit

def setCredentialByRef (credentialRef : Bytes) : Op b Unit := do
  let signer ← liftExcept b (.external "loading credential from ref")
    (b.loadCredential credentialRef)
  let commit ← setCredentialInner b signer
  sendAndMergeCommit b commit

def commitPendingProposals : Op b Unit := do
  ensureNoPendingCommit b
  match ← commitPendingProposalsInner b with
  | none => return ()
  | some commit => sendAndMergeCommit b commit

def enableHistorySharing : Op b Unit := do
  if isHistorySharingEnabled (← get).group then return ()
  let historySecret ← generateHistorySecret b
  let commit ← addMembersInner b [historySecret.keyPackage]
  sendNewHistoryClientCommit b commit historySecret

def disableHistorySharing : Op b Unit := do
  let historyClientIds := getHistoryClientIds (← get).group
  if historyClientIds.isEmpty then return ()
  removeMembers b historyClientIds

/-- The operations that create a commit. -/
inductive CommittingCall where
  | addMembers (keyPackages : List KeyPackageIn)
  | removeMembers (clients : List Bytes)
  | updateKeyMaterial
  | setCredentialByRef (credentialRef : Bytes)
  | commitPendingProposals
  | enableHistorySharing
  | disableHistorySharing
  deriving DecidableEq, Repr

def CommittingCall.perform : CommittingCall → Op b Unit
  | .addMembers keyPackages => Conversation.addMembers b keyPackages
  | .removeMembers clients => Conversation.removeMembers b clients
  | .updateKeyMaterial => Conversation.updateKeyMaterial b
  | .setCredentialByRef credentialRef => Conversation.setCredentialByRef b credentialRef
  | .commitPendingProposals => Conversation.commitPendingProposals b
  | .enableHistorySharing => Conversation.enableHistorySharing b
  | .disableHistorySharing => Conversation.disableHistorySharing b

end CoreCrypto.Conversation
