import CoreCrypto.Keystore.Entity

/-!
# What the conversation code takes from outside

The messages and the group as OpenMLS shows them, and `Backend`: the functions of OpenMLS, of the
credential code, of the transport and of the random number generator that the conversation code
calls.  Nothing is assumed about them here.
-/

namespace CoreCrypto

/-! ### Messages -/

/-- `ContentType`, in the order of its discriminants. -/
inductive ContentType where
  | application
  | proposal
  | commit
  deriving DecidableEq, Repr

/-- `content_type as u8`. -/
def ContentType.toNat : ContentType → Nat
  | application => 1
  | proposal => 2
  | commit => 3

inductive Sender where
  | member (index : Nat)
  | external (index : Nat)
  | newMemberProposal
  | newMemberCommit
  deriving DecidableEq, Repr

/-- The credential of a leaf node, with the key its signatures are checked with. -/
structure CredentialWithKey where
  identity : Bytes
  content : Bytes
  signatureKey : Bytes
  deriving DecidableEq, Repr

structure KeyPackageIn where
  identity : Bytes
  signatureKey : Bytes
  content : Bytes
  deriving DecidableEq, Repr

inductive Proposal where
  | add (keyPackage : KeyPackageIn)
  | update (leafNode : CredentialWithKey)
  | remove (removed : Nat)
  | other (content : Bytes)
  deriving DecidableEq, Repr

/-- The leaf a `Remove` proposal removes. -/
def Proposal.removed? : Proposal → Option Nat
  | remove removed => some removed
  | _ => none

inductive FramedContentBodyIn where
  | application (content : Bytes)
  | proposal (proposal : Proposal)
  | commit (content : Bytes)
  deriving DecidableEq, Repr

def FramedContentBodyIn.contentType : FramedContentBodyIn → ContentType
  | application _ => .application
  | proposal _ => .proposal
  | commit _ => .commit

structure PublicMessageIn where
  epoch : Nat
  sender : Sender
  body : FramedContentBodyIn
  confirmationTag : Option Bytes
  /-- Signature and membership tag. -/
  authentication : Bytes
  deriving DecidableEq, Repr

structure PrivateMessageIn where
  epoch : Nat
  contentType : ContentType
  ciphertext : Bytes
  deriving DecidableEq, Repr

/-- `MlsMessageInBody`; `other` stands for welcomes, group infos and key packages. -/
inductive MlsMessageIn where
  | publicMessage (message : PublicMessageIn)
  | privateMessage (message : PrivateMessageIn)
  | other (content : Bytes)
  deriving DecidableEq, Repr

inductive ProtocolMessage where
  | publicMessage (message : PublicMessageIn)
  | privateMessage (message : PrivateMessageIn)
  deriving DecidableEq, Repr

namespace ProtocolMessage

def epoch : ProtocolMessage → Nat
  | publicMessage message => message.epoch
  | privateMessage message => message.epoch

def contentType : ProtocolMessage → ContentType
  | publicMessage message => message.body.contentType
  | privateMessage message => message.contentType

end ProtocolMessage

/-- The message that `process_message` takes, if the body is one. -/
def MlsMessageIn.protocolMessage? : MlsMessageIn → Option ProtocolMessage
  | publicMessage message => some (.publicMessage message)
  | privateMessage message => some (.privateMessage message)
  | other _ => none

/-! ### Groups -/

structure QueuedProposal where
  reference : Bytes
  sender : Sender
  proposal : Proposal
  deriving DecidableEq, Repr

/-- Sender and content of a commit: what the confirmed transcript hash is extended by. -/
structure Framed where
  sender : Sender
  content : Bytes
  deriving DecidableEq, Repr

structure StagedCommit (K : Type) where
  /-- The epoch of `staged_context`. -/
  epoch : Nat
  framed : Framed
  confirmationTag : Bytes
  queuedProposals : List QueuedProposal
  keys : K

structure Member where
  index : Nat
  credential : CredentialWithKey
  encryptionKey : Bytes
  deriving DecidableEq, Repr

/-- `InnerState`: whether the group differs from its serialised form. -/
inductive InnerState where
  | changed
  | persisted
  deriving DecidableEq, Repr

/-- `MlsGroup`, as far as its accessors show it. -/
structure MlsGroup (K : Type) where
  groupId : Bytes
  ciphersuite : Nat
  epoch : Nat
  isActive : Bool
  members : List Member
  ownLeafIndex : Nat
  ownLeaf : Option CredentialWithKey
  /-- Encryption keys of the leaf nodes of own update proposals. -/
  ownLeafNodes : List Bytes
  pendingProposals : List QueuedProposal
  pendingCommit : Option (StagedCommit K)
  /-- The commit that created the epoch; `none` in the first epoch of a new group. -/
  epochCommit : Option Framed
  innerState : InnerState
  keys : K

/-- `set_state(InnerState::Persisted)`. -/
def MlsGroup.setPersisted {K : Type} (group : MlsGroup K) : MlsGroup K :=
  { group with innerState := .persisted }

/-- Where a group stands: its epoch, and whether the client is a member. -/
structure Standing where
  isActive : Bool
  epoch : Nat
  deriving DecidableEq, Repr

def MlsGroup.standing {K : Type} (group : MlsGroup K) : Standing :=
  ⟨group.isActive, group.epoch⟩

inductive ProcessedMessageContent (K : Type) where
  | applicationMessage (content : Bytes)
  | proposalMessage (proposal : QueuedProposal)
  | stagedCommitMessage (commit : StagedCommit K)
  | externalJoinProposalMessage (proposal : QueuedProposal)

structure ProcessedMessage (K : Type) where
  credential : CredentialWithKey
  epoch : Nat
  content : ProcessedMessageContent K

/-- The errors of `process_message` that the conversation code tells apart. -/
inductive ProcessMessageError where
  | generationOutOfBound
  | wrongEpoch
  | aeadError
  | tooDistantInThePast
  | ownCommit
  | missingProposal
  | incompatibleWireFormat
  | other (code : Nat)
  deriving DecidableEq, Repr

/-! ### Commits -/

/-- Which of the functions that create a commit is called, with its arguments. -/
inductive CommitRequest where
  | addMembers (keyPackages : List KeyPackageIn)
  | removeMembers (members : List Nat)
  | explicitSelfUpdate (leafNode : Option CredentialWithKey)
  | commitToPendingProposals
  | commitToInlineProposals (proposals : List Proposal)
  deriving DecidableEq, Repr

structure CommitOutput where
  commit : Bytes
  welcome : Option Bytes
  groupInfo : Option Bytes
  deriving DecidableEq, Repr

inductive CreateCommitError where
  | duplicateSignatureKey
  | other (code : Nat)
  deriving DecidableEq, Repr

inductive WelcomeError where
  | noMatchingKeyPackage
  | noMatchingEncryptionKey
  | other (code : Nat)
  deriving DecidableEq, Repr

structure CommitBundle where
  welcome : Option Bytes
  commit : Bytes
  groupInfo : Bytes
  encryptedMessage : Option Bytes
  deriving DecidableEq, Repr

structure HistorySecret where
  clientId : Bytes
  keyPackage : KeyPackageIn
  deriving DecidableEq, Repr

/-! ### Configuration -/

inductive WirePolicy where
  | plaintext
  | ciphertext
  deriving DecidableEq, Repr

structure CustomConfiguration where
  keyRotationSpan : Option Nat
  wirePolicy : WirePolicy
  outOfOrderTolerance : Nat
  maximumForwardDistance : Nat
  deriving DecidableEq, Repr

/-- `CustomConfiguration::default`. -/
def CustomConfiguration.default : CustomConfiguration :=
  { keyRotationSpan := none
    wirePolicy := .plaintext
    outOfOrderTolerance := 2
    maximumForwardDistance := 1000 }

structure ConversationConfiguration where
  cipherSuite : Nat
  externalSenders : List Bytes
  custom : CustomConfiguration
  deriving DecidableEq, Repr

/-- `ConversationConfiguration { cipher_suite, ..Default::default() }`. -/
def ConversationConfiguration.ofCipherSuite (cipherSuite : Nat) : ConversationConfiguration :=
  ⟨cipherSuite, [], .default⟩

/-! ### The backend -/

/-- The functions the conversation code calls.  Those that draw random numbers or talk to the
delivery service take the number of such calls made before, so that two calls with the same
arguments may answer differently. -/
structure Backend where
  K : Type
  State : Type
  Identity : Type
  rt : Keystore.Runtime State
  ser : MlsGroup K → Except Nat State
  deser : State → Except Nat (MlsGroup K)
  tlsDeserialize : Bytes → Option MlsMessageIn
  processMessage : MlsGroup K → ProtocolMessage →
    Except ProcessMessageError (ProcessedMessage K) × MlsGroup K
  storePendingProposal : MlsGroup K → QueuedProposal → MlsGroup K
  removePendingProposal : MlsGroup K → Bytes → Except Nat Unit × MlsGroup K
  mergeStagedCommit : MlsGroup K → StagedCommit K → Except Nat Unit × MlsGroup K
  mergePendingCommit : MlsGroup K → Except Nat Unit × MlsGroup K
  clearPendingCommit : MlsGroup K → MlsGroup K
  deletePreviousEpochKeypairs : MlsGroup K → MlsGroup K
  computeConfirmationTag : MlsGroup K → Except Nat Bytes
  createCommit : Nat → MlsGroup K → CredentialWithKey → CommitRequest →
    Except CreateCommitError CommitOutput × MlsGroup K
  proposeAddMember : Nat → MlsGroup K → CredentialWithKey → KeyPackageIn →
    Except Nat Bytes × MlsGroup K
  proposeRemoveMember : Nat → MlsGroup K → CredentialWithKey → Nat →
    Except Nat Bytes × MlsGroup K
  createMessage : Nat → MlsGroup K → CredentialWithKey → Bytes → Except Nat Bytes × MlsGroup K
  newWithGroupId : Nat → CredentialWithKey → ConversationConfiguration → Bytes →
    Except Nat (MlsGroup K)
  newFromWelcome : Nat → ConversationConfiguration → Bytes → Except WelcomeError (MlsGroup K)
  joinByExternalCommit : Nat → CredentialWithKey → Bytes → ConversationConfiguration →
    Except Nat (MlsGroup K × Bytes × Option Bytes)
  tryNewFullPlaintext : Bytes → Except Nat Bytes
  encodeCustom : CustomConfiguration → Bytes
  decodeCustom : Bytes → Except Nat CustomConfiguration
  extractIdentity : CredentialWithKey → Nat → Except Nat Identity
  clientId : Bytes → Option Bytes
  findCredentialByPublicKey : Bytes → Except Nat CredentialWithKey
  loadCredential : Bytes → Except Nat CredentialWithKey
  generateHistorySecret : Nat → Nat → Except Nat HistorySecret
  prepareForTransport : Nat → HistorySecret → Except Nat Bytes
  sendCommitBundle : Nat → CommitBundle → Except Nat Unit
  /-- `(position as f32).ln() * DELAY_RAMP_UP_MULTIPLIER`, rounded down. -/
  rampUp : Nat → Nat

abbrev Backend.Group (b : Backend) : Type := MlsGroup b.K

end CoreCrypto
