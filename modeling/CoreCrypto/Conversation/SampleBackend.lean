import CoreCrypto.Conversation.Scope

/-!
# A backend to evaluate the model on

A small stand-in for OpenMLS that keeps epochs, proposals and commits as the protocol does
and leaves out the cryptography: a message is authentic, a group is its own serialised form.
Members are told apart by their leaf; the own client has leaf 0.
-/

namespace CoreCrypto.Conversation.Sample

open Keystore Library

abbrev Group := MlsGroup Unit

def someone : CredentialWithKey := ⟨[], [], []⟩

/-- The tag a commit is confirmed with. -/
def tagOf (framed : Framed) : Bytes :=
  match framed.sender with
  | .member index => 0 :: (List.replicate index 1 ++ 0 :: framed.content)
  | .external index => 1 :: (List.replicate index 1 ++ 0 :: framed.content)
  | .newMemberProposal => 2 :: framed.content
  | .newMemberCommit => 3 :: framed.content

/-- The proposal of member `sender` to remove `removed` is referred to by one byte, and so is
the proposal of a new member. -/
def referenceOf : Sender → Proposal → Bytes
  | .member sender, .remove removed => [UInt8.ofNat (16 * sender + removed)]
  | .newMemberProposal, .add keyPackage => 240 :: keyPackage.identity
  | _, _ => []

def publicCommit (epoch : Nat) (sender : Sender) (content : Bytes) : PublicMessageIn :=
  ⟨epoch, sender, .commit content, some (tagOf ⟨sender, content⟩), []⟩

/-- The wire format: an application message, a proposal of a member, a proposal of a new member,
a commit of member 1 with the references it commits to, an own commit, a message that cannot be
decrypted and a commit of member 1 with a tag that is not its own. -/
def tlsDeserialize : Bytes → Option MlsMessageIn
  | [0, epoch, content] => some (.privateMessage ⟨epoch.toNat, .application, [content]⟩)
  | [1, epoch, sender, removed] => some (.publicMessage
      ⟨epoch.toNat, .member sender.toNat, .proposal (.remove removed.toNat), none, []⟩)
  | [2, epoch, joiner] => some (.publicMessage
      ⟨epoch.toNat, .newMemberProposal, .proposal (.add ⟨[joiner], [joiner], []⟩), none, []⟩)
  | 3 :: epoch :: references =>
    some (.publicMessage (publicCommit epoch.toNat (.member 1) (epoch :: references)))
  | [4, epoch, call] =>
    some (.publicMessage (publicCommit epoch.toNat (.member 0) [epoch, call]))
  | [5, epoch] => some (.privateMessage ⟨epoch.toNat, .application, []⟩)
  | 6 :: epoch :: tag => some (.publicMessage ⟨epoch.toNat, .member 1, .commit [], some tag, []⟩)
  | _ => none

/-! ### Groups -/

def changed (group : Group) : Group := { group with innerState := .changed }

/-- The leaves that a commit removes. -/
def removedBy (commit : StagedCommit Unit) : List Nat :=
  commit.queuedProposals.filterMap (·.proposal.removed?)

/-- The members that a commit adds, at leaves that were never used. -/
def addedBy (commit : StagedCommit Unit) (members : List Member) : List Member :=
  (commit.queuedProposals.filterMap fun queued =>
    match queued.proposal with
    | .add keyPackage => some keyPackage
    | _ => none).map fun keyPackage =>
      ⟨members.length + 8, ⟨keyPackage.identity, [], keyPackage.signatureKey⟩, []⟩

def merge (group : Group) (commit : StagedCommit Unit) : Group :=
  changed { group with
    epoch := group.epoch + 1
    isActive := group.isActive && group.ownLeafIndex ∉ removedBy commit
    members := group.members.filter (·.index ∉ removedBy commit) ++ addedBy commit group.members
    pendingProposals := []
    pendingCommit := none
    epochCommit := some commit.framed }

def queue (group : Group) (sender : Sender) (proposal : Proposal) : Group :=
  changed { group with
    pendingProposals :=
      group.pendingProposals ++ [⟨referenceOf sender proposal, sender, proposal⟩] }

/-- The pending proposals with the given references, if there is one for each of them. -/
def referenced (group : Group) (references : List UInt8) : Option (List QueuedProposal) :=
  references.mapM fun reference =>
    group.pendingProposals.find? (fun queued => queued.reference = [reference])

def processPublic (group : Group) (message : PublicMessageIn) :
    Except ProcessMessageError (ProcessedMessageContent Unit) :=
  if message.epoch ≠ group.epoch then .error .wrongEpoch
  else match message.body with
    | .application _ => .error .incompatibleWireFormat
    | .proposal proposal =>
      let queued : QueuedProposal :=
        ⟨referenceOf message.sender proposal, message.sender, proposal⟩
      match message.sender with
      | .newMemberProposal => .ok (.externalJoinProposalMessage queued)
      | _ => .ok (.proposalMessage queued)
    | .commit content =>
      if message.sender = .member group.ownLeafIndex then .error .ownCommit
      else match referenced group content.tail with
        | none => .error .missingProposal
        | some queuedProposals => .ok (.stagedCommitMessage
            ⟨group.epoch + 1, ⟨message.sender, content⟩, tagOf ⟨message.sender, content⟩,
              queuedProposals, ()⟩)

def processPrivate (group : Group) (message : PrivateMessageIn) :
    Except ProcessMessageError (ProcessedMessageContent Unit) :=
  if group.epoch < message.epoch then .error .wrongEpoch
  else match message.contentType, message.ciphertext with
    | .application, _ :: _ => .ok (.applicationMessage message.ciphertext)
    | _, _ => .error .aeadError

def processMessage (group : Group) (message : ProtocolMessage) :
    Except ProcessMessageError (ProcessedMessage Unit) × Group :=
  let content := match message with
    | .publicMessage message => processPublic group message
    | .privateMessage message => processPrivate group message
  (content.map fun content => ⟨someone, message.epoch, content⟩, group)

/-! ### Commits -/

/-- The proposals a commit contains: those the call is about and all pending ones. -/
def committed (group : Group) (request : CommitRequest) : List QueuedProposal :=
  let own (proposal : Proposal) : QueuedProposal :=
    ⟨referenceOf (.member group.ownLeafIndex) proposal, .member group.ownLeafIndex, proposal⟩
  let requested := match request with
    | .addMembers keyPackages => keyPackages.map (fun keyPackage => own (.add keyPackage))
    | .removeMembers members => members.map (fun member => own (.remove member))
    | .commitToInlineProposals proposals => proposals.map own
    | _ => []
  requested ++ group.pendingProposals

def stagedCommit (call : Nat) (group : Group) (request : CommitRequest) : StagedCommit Unit :=
  let framed : Framed :=
    ⟨.member group.ownLeafIndex, [UInt8.ofNat group.epoch, UInt8.ofNat call]⟩
  ⟨group.epoch + 1, framed, tagOf framed, committed group request, ()⟩

def createCommit (call : Nat) (group : Group) (request : CommitRequest) :
    Except CreateCommitError CommitOutput × Group :=
  (.ok ⟨[4, UInt8.ofNat group.epoch, UInt8.ofNat call], none, some []⟩,
    changed { group with pendingCommit := some (stagedCommit call group request) })

/-- A group of the own client and member 1. -/
def newGroup (groupId : Bytes) (ciphersuite epoch : Nat) : Group :=
  { groupId, ciphersuite, epoch
    isActive := true
    members := [⟨0, someone, []⟩, ⟨1, ⟨[1], [], [1]⟩, []⟩]
    ownLeafIndex := 0
    ownLeaf := some someone
    ownLeafNodes := []
    pendingProposals := []
    pendingCommit := none
    epochCommit := none
    innerState := .changed
    keys := () }

def joining (call : Nat) (groupId : Bytes) (ciphersuite : Nat) : Group :=
  let group := newGroup groupId ciphersuite 0
  { group with pendingCommit := some (stagedCommit call group .commitToPendingProposals) }

/-- `transport` is what the delivery service answers to a commit bundle. -/
def backend (transport : Except Nat Unit) : Backend :=
  { K := Unit
    State := Group
    Identity := Unit
    rt := .newestFirst id
    ser := fun group => .ok group.setPersisted
    deser := .ok
    tlsDeserialize
    processMessage
    storePendingProposal := fun group proposal =>
      changed { group with pendingProposals := group.pendingProposals ++ [proposal] }
    removePendingProposal := fun group reference =>
      if group.pendingProposals.any (·.reference = reference) then
        (.ok (), changed { group with
          pendingProposals := group.pendingProposals.eraseP (·.reference = reference) })
      else (.error 0, group)
    mergeStagedCommit := fun group commit => (.ok (), merge group commit)
    mergePendingCommit := fun group =>
      match group.pendingCommit with
      -- a client cannot remove itself
      | some commit => (.ok (), { merge group commit with isActive := group.isActive })
      | none => (.error 0, group)
    clearPendingCommit := fun group => changed { group with pendingCommit := none }
    deletePreviousEpochKeypairs := id
    computeConfirmationTag := fun group => .ok ((group.epochCommit.map tagOf).getD [])
    createCommit := fun call group _ request => createCommit call group request
    proposeAddMember := fun _ group _ keyPackage =>
      (.ok [], queue group (.member group.ownLeafIndex) (.add keyPackage))
    proposeRemoveMember := fun _ group _ member =>
      (.ok [], queue group (.member group.ownLeafIndex) (.remove member))
    createMessage := fun _ group _ message => (.ok (0 :: message), changed group)
    newWithGroupId := fun _ _ configuration id => .ok (newGroup id configuration.cipherSuite 0)
    newFromWelcome := fun _ configuration welcome =>
      .ok (newGroup welcome configuration.cipherSuite 1)
    joinByExternalCommit := fun call _ groupInfo configuration =>
      .ok (joining call groupInfo configuration.cipherSuite, [], some [])
    tryNewFullPlaintext := .ok
    encodeCustom := fun _ => []
    decodeCustom := fun _ => .ok .default
    extractIdentity := fun _ _ => .ok ()
    clientId := some
    findCredentialByPublicKey := fun _ => .ok someone
    loadCredential := fun _ => .ok someone
    generateHistorySecret := fun _ _ =>
      .ok ⟨historyClientIdPrefix, ⟨historyClientIdPrefix, historyClientIdPrefix, []⟩⟩
    prepareForTransport := fun _ _ => .ok [7]
    sendCommitBundle := fun _ _ => transport
    rampUp := id }

/-- A handle to a group at epoch 5 in a fresh transaction. -/
def handle (transport : Except Nat Unit) : Env (backend transport) :=
  { id := [42]
    configuration := .ofCipherSuite 1
    group := newGroup [42] 1 5
    rows := []
    transaction := .new
    conversationCache := .empty
    pendingEpochChanges := []
    accepted := []
    historyClients := []
    clock := 0 }

/-- A handle that has received messages. -/
def received (transport : Except Nat Unit) (messages : List Bytes) : Env (backend transport) :=
  messages.foldl (fun env message => finalState (decryptMessage (backend transport) message) env)
    (handle transport)

end CoreCrypto.Conversation.Sample
