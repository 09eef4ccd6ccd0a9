import CoreCrypto.Conversation.Decrypt
import CoreCrypto.Keystore.Writes
import CoreCrypto.Library.Simulation

/-!
# Receiving a message without its keystore

What a replayed message does depends on the group and the commit that waits for proposals only.
`absorb` says what it does in these terms, and `decryptWithoutRestore` follows it.
-/

namespace CoreCrypto.Conversation

open Keystore Library

variable {b : Backend} {α : Type} {K : Type}

structure Seat (b : Backend) where
  group : b.Group
  /-- The bytes of the commit that waits for proposals. -/
  buffered : Option Bytes

abbrev SeatOp (b : Backend) := EStateM Error (Seat b)

/-! ### The abstract machine -/

namespace Seat

/-- A change of the group is written back when it succeeds. -/
def mutate (f : b.Group → Except Error α × b.Group) : SeatOp b α := fun seat =>
  match f seat.group with
  | (.ok a, group) => .ok a { seat with group := group.setPersisted }
  | (.error e, group) => .error e { seat with group }

def lift : Except Error α → SeatOp b α
  | .ok a => pure a
  | .error e => throw e

def retrieve : SeatOp b (Option Bytes) := do
  return (← get).buffered

def clear : SeatOp b Unit :=
  modify fun seat => { seat with buffered := none }

def receiveProposal (retry : Bytes → SeatOp b (DecryptedMessage b)) (identity : b.Identity)
    (proposal : QueuedProposal) : SeatOp b (DecryptedMessage b) := do
  mutate (storeOnGroup b proposal)
  match ← retrieve with
  | none => return proposalAnswer b identity (← get).group
  | some commit =>
    match ← attempt (retry commit) with
    | .ok decrypted =>
      clear
      return decrypted
    | .error .bufferedCommit => return proposalAnswer b identity (← get).group
    | .error e => throw (.recursive "processing buffered commit" e)

def receiveCommit (identity : b.Identity) (commit : StagedCommit b.K) :
    SeatOp b (DecryptedMessage b) := do
  mutate (mergeStagedOnGroup b commit)
  return commitAnswer b identity (← get).group

def handleOwnCommit (cipherSuite : Nat) (confirmationTag : Bytes) :
    SeatOp b (DecryptedMessage b) := do
  lift (checkOwnCommit b (← get).group confirmationTag)
  mutate (mergePendingOnGroup b)
  lift (ownCommitAnswer b cipherSuite (← get).group)

def receiveOwnCommit (cipherSuite : Nat) (message : MlsMessageIn) :
    SeatOp b (DecryptedMessage b) := do
  let confirmationTag ← lift (extractConfirmationTagFromOwnCommit b (← get).group message)
  let answer ← handleOwnCommit cipherSuite confirmationTag
  return answer.withBuffered none

def receiveContent (retry : Bytes → SeatOp b (DecryptedMessage b)) (cipherSuite : Nat)
    (processed : ProcessedMessage b.K) : SeatOp b (DecryptedMessage b) := do
  let identity ← lift ((b.extractIdentity processed.credential cipherSuite).mapError
    (.external "extracting identity"))
  match processed.content with
  | .applicationMessage content => return applicationAnswer b identity processed.credential content
  | .proposalMessage proposal => receiveProposal retry identity proposal
  | .stagedCommitMessage commit => receiveCommit identity commit
  | .externalJoinProposalMessage proposal =>
    mutate (storeOnGroup b proposal)
    return proposalAnswer b identity (← get).group

def receive (retry : Bytes → SeatOp b (DecryptedMessage b)) (cipherSuite : Nat)
    (message : MlsMessageIn) : SeatOp b (DecryptedMessage b) := do
  let parsed ← lift (parseMessage b (← get).group message)
  match ← attempt (mutate (processOnGroup b parsed)) with
  | .error (.processing .ownCommit) => receiveOwnCommit cipherSuite message
  | .error (.processing .missingProposal) => throw .bufferedCommit
  | .error e => throw e
  | .ok processed => receiveContent retry cipherSuite processed

def tryBuffered (inner : MlsMessageIn → SeatOp b (DecryptedMessage b)) (commit : Bytes) :
    SeatOp b (DecryptedMessage b) :=
  match b.tlsDeserialize commit with
  | none => throw (.tlsDeserialize "mls message in")
  | some message => inner message

/-- A message is taken by the group, with the buffered commit tried again after a proposal. -/
def absorbAt (b : Backend) (cipherSuite : Nat) :
    Nat → MlsMessageIn → SeatOp b (DecryptedMessage b)
  | 0, _ => throw .recursionLimit
  | depth + 1, message =>
    receive (tryBuffered (absorbAt b cipherSuite depth)) cipherSuite message

def absorb (b : Backend) (cipherSuite : Nat) (message : MlsMessageIn) :
    SeatOp b (DecryptedMessage b) :=
  absorbAt b cipherSuite recursionDepth message

/-- The messages are taken one after the other; the first that cannot be stops the rest. -/
def absorbAll (b : Backend) (cipherSuite : Nat) :
    List MlsMessageIn → SeatOp b (List (BufferedDecryptedMessage b))
  | [] => return []
  | message :: rest => do
    let decrypted ← absorb b cipherSuite message
    let decryptedMessages ← absorbAll b cipherSuite rest
    return decrypted.buffered :: decryptedMessages

end Seat

/-! ### The view of a handle -/

/-- The bytes of the commit that waits for proposals, as read through the transaction. -/
def bufferedCommit (b : Backend) (rows : List (Entity b.State))
    (transaction : KeystoreTransaction b.State) (id : ConversationId) : Option Bytes :=
  (transaction.read b.rt rows (bufferedCommitEntityId id)).bind commitData?

def Env.seat (env : Env b) : Seat b :=
  ⟨env.group, bufferedCommit b env.rows env.transaction env.id⟩

/-- Groups can be serialised. -/
def Serialises (b : Backend) : Prop := ∀ group, ∃ state, b.ser group = .ok state

/-- The handle is still that of `origin`, and no pending message was written since. -/
structure SameHandle (origin env : Env b) : Prop where
  sameId : env.id = origin.id
  cipherSuite : env.configuration.cipherSuite = origin.configuration.cipherSuite
  rows : env.rows = origin.rows
  writes : Writes b.rt (·.typ ≠ .mlsPendingMessage) origin.transaction env.transaction

theorem SameHandle.refl (env : Env b) : SameHandle env env := ⟨rfl, rfl, rfl, .refl⟩

theorem SameHandle.later {origin env : Env b} (same : SameHandle origin env) (group : b.Group)
    {tx : KeystoreTransaction b.State}
    (writes : Writes b.rt (·.typ ≠ .mlsPendingMessage) env.transaction tx) :
    SameHandle origin { env with group, transaction := tx } :=
  ⟨same.sameId, same.cipherSuite, same.rows, same.writes.trans writes⟩

/-! ### Persisting -/

theorem setPersisted_of_not_changed {group : MlsGroup K}
    (unchanged : group.innerState ≠ .changed) : group.setPersisted = group := by
  cases state : group.innerState with
  | changed => exact absurd state unchanged
  | persisted => rw [MlsGroup.setPersisted, ← state]

/-- The handle after `group` was written back. -/
def Env.written (env : Env b) (group : b.Group) : Env b :=
  { env with
    group := group.setPersisted
    transaction :=
      match group.innerState, b.ser group with
      | .changed, .ok state => env.transaction.save b.rt (.persistedMlsGroup env.id state none)
      | _, _ => env.transaction }

theorem Env.written_writes (env : Env b) (group : b.Group) :
    Writes b.rt (· = groupEntityId env.id) env.transaction (env.written group).transaction := by
  unfold Env.written
  split
  next => exact .save _ rfl .refl
  next => exact .refl

theorem SameHandle.written {origin env : Env b} (same : SameHandle origin env) (group : b.Group) :
    SameHandle origin (env.written group) :=
  same.later group.setPersisted ((env.written_writes group).mono fun id isGroup => by
    simp [isGroup, groupEntityId])

theorem persist_eq (serialises : Serialises b) (env : Env b) :
    persist b env = .ok () (env.written env.group) := by
  obtain ⟨state, serialised⟩ := serialises env.group
  cases changed : env.group.innerState with
  | changed =>
    simp [persist, Env.written, changed, serialised, liftExcept, save, get, getThe,
      MonadStateOf.get, bind, EStateM.bind, EStateM.get, pure, EStateM.pure, modify, modifyGet,
      MonadStateOf.modifyGet, EStateM.modifyGet]
  | persisted =>
    have unchanged : env.group.innerState ≠ .changed := by simp [changed]
    simp [persist, Env.written, changed, setPersisted_of_not_changed unchanged, get, getThe,
      MonadStateOf.get, bind, EStateM.bind, EStateM.get, pure, EStateM.pure]

theorem mutateGroup_ok (serialises : Serialises b) (f : b.Group → Except Error α × b.Group)
    (env : Env b) (a : α) (group : b.Group) (called : f env.group = (.ok a, group)) :
    mutateGroup b (onGroup b f) env = .ok a (env.written group) := by
  have persisted := persist_eq serialises { env with group }
  simp only [mutateGroup, onGroup, bind, EStateM.bind, called, persisted, pure, EStateM.pure]
  rfl

theorem mutateGroup_error (f : b.Group → Except Error α × b.Group) (env : Env b) (e : Error)
    (group : b.Group) (called : f env.group = (.error e, group)) :
    mutateGroup b (onGroup b f) env = .error e { env with group } := by
  simp only [mutateGroup, onGroup, bind, EStateM.bind, called]

theorem bufferedCommit_writes {p : EntityId → Prop} {before after : KeystoreTransaction b.State}
    (writes : Writes b.rt p before after) (rows : List (Entity b.State)) (id : ConversationId)
    (other : ¬ p (bufferedCommitEntityId id)) :
    bufferedCommit b rows after id = bufferedCommit b rows before id := by
  rw [bufferedCommit, writes.read_eq rows _ other, bufferedCommit]

/-- The transaction after the key pairs that a merged commit makes useless were removed. -/
def withoutKeyPairs (transaction : KeystoreTransaction b.State) (encryptionKeys : List Bytes) :
    KeystoreTransaction b.State :=
  encryptionKeys.foldl
    (fun tx encryptionKey => tx.removeByEntityId ⟨.plain .encryptionKeyPair, encryptionKey⟩)
    transaction

theorem withoutKeyPairs_writes (transaction : KeystoreTransaction b.State)
    (encryptionKeys : List Bytes) :
    Writes b.rt (fun id => id.typ = .plain .encryptionKeyPair) transaction
      (withoutKeyPairs transaction encryptionKeys) := by
  induction encryptionKeys generalizing transaction with
  | nil => exact .refl
  | cons encryptionKey rest ih => exact .trans (.remove _ rfl .refl) (ih _)

theorem removeKeyPairs_eq (encryptionKeys : List Bytes) (env : Env b) :
    (encryptionKeys.forM fun encryptionKey =>
      remove b ⟨.plain .encryptionKeyPair, encryptionKey⟩) env =
        .ok () { env with transaction := withoutKeyPairs env.transaction encryptionKeys } := by
  induction encryptionKeys generalizing env with
  | nil => rfl
  | cons encryptionKey rest ih => exact ih _

/-- The handle after its pending commit was merged. -/
def Env.commitMerged (env : Env b) (merged : b.Group) : Env b :=
  Env.written
    { env with transaction := withoutKeyPairs env.transaction env.group.ownLeafNodes } merged

theorem commitAccepted_ok (serialises : Serialises b) {env : Env b} {merged : b.Group}
    (merges : b.mergePendingCommit env.group = (.ok (), merged)) :
    commitAccepted b env = .ok () (env.commitMerged merged) := by
  have removes := removeKeyPairs_eq env.group.ownLeafNodes { env with group := merged }
  have persisted := persist_eq serialises { env with
    group := merged, transaction := withoutKeyPairs env.transaction env.group.ownLeafNodes }
  simp only [commitAccepted, mutateGroup, onGroup, mergePendingOnGroup, get, getThe,
    MonadStateOf.get, bind, EStateM.bind, EStateM.get, merges, Except.mapError, removes, persisted,
    pure, EStateM.pure]
  rfl

theorem commitAccepted_error (env : Env b) (code : Nat) (group : b.Group)
    (fails : b.mergePendingCommit env.group = (.error code, group)) :
    commitAccepted b env = .error (.openMls "merging pending commit" code) { env with group } := by
  simp only [commitAccepted, mutateGroup, onGroup, mergePendingOnGroup, get, getThe,
    MonadStateOf.get, bind, EStateM.bind, EStateM.get, fails, Except.mapError]

/-! ### Following the abstract machine -/

/-- `op` on a handle has the outcome and the effect of `abs` on its seat. -/
abbrev MirrorsAt (origin env : Env b) (op : Op b α) (abs : SeatOp b α) : Prop :=
  FollowsAt Env.seat (SameHandle origin) env op abs

abbrev Mirrors (origin : Env b) (op : Op b α) (abs : SeatOp b α) : Prop :=
  Follows Env.seat (SameHandle origin) op abs

section Follows

variable {origin env : Env b}
  {retry' : Bytes → SeatOp b (DecryptedMessage b)}

theorem follows_liftExcept {ε : Type} (wrap : ε → Error) (result : Except ε α)
    (same : SameHandle origin env) : MirrorsAt origin env (liftExcept b wrap result)
      (Seat.lift (result.mapError wrap)) := by
  cases result with
  | ok a => exact follows_pure a same
  | error e => exact follows_throw (wrap e) same

theorem follows_lift (result : Except Error α) (same : SameHandle origin env) :
    MirrorsAt origin env (liftExcept b id result) (Seat.lift result) := by
  cases result with
  | ok a => exact follows_pure a same
  | error e => exact follows_throw e same

theorem seat_written (env : Env b) (group : b.Group) :
    (env.written group).seat = ⟨group.setPersisted, env.seat.buffered⟩ := by
  have kept := bufferedCommit_writes (env.written_writes group) env.rows env.id
    (by simp [bufferedCommitEntityId, groupEntityId])
  simp only [Env.seat, Seat.mk.injEq]
  exact ⟨rfl, kept⟩

theorem follows_mutate (serialises : Serialises b) (f : b.Group → Except Error α × b.Group)
    (same : SameHandle origin env) :
    MirrorsAt origin env (mutateGroup b (onGroup b f)) (Seat.mutate f) := by
  rcases called : f env.group with ⟨result, group⟩
  cases result with
  | error e =>
    rw [MirrorsAt, FollowsAt, mutateGroup_error f env e group called]
    simp only [Seat.mutate, Env.seat, called]
    exact ⟨trivial, same.later group .refl⟩
  | ok a =>
    rw [MirrorsAt, FollowsAt, mutateGroup_ok serialises f env a group called]
    simp only [Seat.mutate, seat_written]
    simp only [Env.seat, called]
    exact ⟨trivial, same.written group⟩

theorem seat_accepted (env : Env b) (merged : b.Group) :
    (env.commitMerged merged).seat = ⟨merged.setPersisted, env.seat.buffered⟩ := by
  have kept := bufferedCommit_writes
    (withoutKeyPairs_writes env.transaction env.group.ownLeafNodes) env.rows env.id
    (by simp [bufferedCommitEntityId])
  rw [Env.commitMerged, seat_written]
  simp only [Env.seat, kept]

theorem follows_commitAccepted (serialises : Serialises b)
    (same : SameHandle origin env) : MirrorsAt origin env (commitAccepted b)
      (Seat.mutate (mergePendingOnGroup b)) := by
  rcases called : b.mergePendingCommit env.group with ⟨result, group⟩
  cases result with
  | error code =>
    rw [MirrorsAt, FollowsAt, commitAccepted_error env code group called]
    simp only [Seat.mutate, Env.seat, mergePendingOnGroup, called, Except.mapError]
    exact ⟨trivial, same.later group .refl⟩
  | ok _ =>
    rw [MirrorsAt, FollowsAt, commitAccepted_ok serialises called]
    simp only [Seat.mutate, seat_accepted]
    simp only [Env.seat, mergePendingOnGroup, called, Except.mapError]
    have removed := withoutKeyPairs_writes (b := b) env.transaction env.group.ownLeafNodes
    exact ⟨trivial, (same.later env.group (removed.mono fun id typ => by simp [typ])).written group⟩

theorem follows_retrieveBufferedCommit (same : SameHandle origin env) :
    MirrorsAt origin env (retrieveBufferedCommit b) Seat.retrieve := ⟨rfl, same⟩

theorem follows_clearBufferedCommit (same : SameHandle origin env) :
    MirrorsAt origin env (clearBufferedCommit b) Seat.clear := by
  refine ⟨?_, same.later env.group (.remove _ (by simp [bufferedCommitEntityId]) .refl)⟩
  have cleared : bufferedCommit b env.rows
      (env.transaction.removeByEntityId (bufferedCommitEntityId env.id)) env.id = none := by
    simp [bufferedCommit]
  simp only [Seat.clear, Env.seat, modify, modifyGet, MonadStateOf.modifyGet, EStateM.modifyGet]
  rw [cleared]

theorem follows_proposalAnswer (identity : b.Identity)
    (same : SameHandle origin env) : MirrorsAt origin env
      (do return proposalAnswer b identity (← get).group)
      (do return proposalAnswer b identity (← get).group) := ⟨rfl, same⟩

theorem follows_receiveProposal (serialises : Serialises b)
    {retry : Bytes → Op b (DecryptedMessage b)}
    (retries : ∀ commit, Mirrors origin (retry commit) (retry' commit))
    (identity : b.Identity) (proposal : QueuedProposal)
    (same : SameHandle origin env) : MirrorsAt origin env
      (receiveProposal retry identity proposal) (Seat.receiveProposal retry' identity proposal) := by
  apply follows_bind (follows_mutate serialises _ same)
  intro _ env same
  apply follows_bind (follows_retrieveBufferedCommit same)
  intro buffered env same
  cases buffered with
  | none => exact follows_proposalAnswer identity same
  | some commit =>
    apply follows_bind (follows_attempt (retries commit env same))
    intro result env same
    rcases result with error | decrypted
    · -- only a commit that still misses proposals lets the proposal have its own answer
      cases error <;> first
        | exact follows_proposalAnswer identity same
        | exact follows_throw _ same
    · apply follows_bind (follows_clearBufferedCommit same)
      intro _ env same
      exact follows_pure decrypted same

theorem follows_receiveCommit (serialises : Serialises b)
    (restore : Op b (Option (List (BufferedDecryptedMessage b)))) (identity : b.Identity)
    (commit : StagedCommit b.K) (same : SameHandle origin env) : MirrorsAt origin env
      (receiveCommit restore .none identity commit) (Seat.receiveCommit identity commit) := by
  apply follows_bind (follows_mutate serialises _ same)
  intro _ env same
  exact ⟨rfl, same.sameId, same.cipherSuite, same.rows, same.writes⟩

theorem follows_handleOwnCommit (serialises : Serialises b) (confirmationTag : Bytes)
    (same : SameHandle origin env) : MirrorsAt origin env (handleOwnCommit b confirmationTag)
      (Seat.handleOwnCommit origin.configuration.cipherSuite confirmationTag) := by
  apply follows_get_bind
  apply follows_bind (follows_lift _ same)
  intro _ env same
  apply follows_bind (follows_commitAccepted serialises same)
  intro _ env same
  apply follows_get_bind
  rw [same.cipherSuite]
  exact follows_lift _ same

theorem follows_receiveOwnCommit (serialises : Serialises b)
    (restore : Op b (Option (List (BufferedDecryptedMessage b)))) (message : MlsMessageIn)
    (same : SameHandle origin env) : MirrorsAt origin env (receiveOwnCommit restore .none message)
      (Seat.receiveOwnCommit origin.configuration.cipherSuite message) := by
  apply follows_get_bind
  apply follows_bind (follows_lift _ same)
  intro confirmationTag env same
  apply follows_bind (follows_handleOwnCommit serialises confirmationTag same)
  intro answer env same
  exact follows_pure _ same

theorem follows_receiveContent (serialises : Serialises b)
    {retry : Bytes → Op b (DecryptedMessage b)}
    (retries : ∀ commit, Mirrors origin (retry commit) (retry' commit))
    (restore : Op b (Option (List (BufferedDecryptedMessage b))))
    (processed : ProcessedMessage b.K) (same : SameHandle origin env) :
    MirrorsAt origin env (receiveContent retry restore .none processed)
      (Seat.receiveContent retry' origin.configuration.cipherSuite processed) := by
  apply follows_get_left
  rw [same.cipherSuite]
  apply follows_bind (follows_liftExcept _ _ same)
  intro identity env same
  cases processed.content with
  | applicationMessage content => exact follows_pure _ same
  | proposalMessage proposal => exact follows_receiveProposal serialises retries _ _ same
  | stagedCommitMessage commit => exact follows_receiveCommit serialises restore _ _ same
  | externalJoinProposalMessage proposal =>
    apply follows_bind (follows_mutate serialises _ same)
    intro _ env same
    exact follows_proposalAnswer identity same

theorem follows_receive (serialises : Serialises b) {retry : Bytes → Op b (DecryptedMessage b)}
    (retries : ∀ commit, Mirrors origin (retry commit) (retry' commit))
    (restore : Op b (Option (List (BufferedDecryptedMessage b)))) (message : MlsMessageIn)
    (same : SameHandle origin env) : MirrorsAt origin env (receive retry restore .none message)
      (Seat.receive retry' origin.configuration.cipherSuite message) := by
  apply follows_get_bind
  apply follows_bind (follows_lift _ same)
  intro parsed env same
  apply follows_bind (follows_attempt (follows_mutate serialises _ same))
  intro result env same
  rcases result with error | processed
  · -- the errors that are looked into are errors of OpenMLS
    cases error with
    | processing source =>
      cases source with
      | ownCommit => exact follows_receiveOwnCommit serialises restore message same
      | _ => exact follows_throw _ same
    | _ => exact follows_throw _ same
  · exact follows_receiveContent serialises retries restore processed same

/-- **Receiving without restoring follows the abstract machine.** -/
theorem follows_decryptWithoutRestore (serialises : Serialises b) (depth : Nat)
    (message : MlsMessageIn) :
    Mirrors origin (decryptWithoutRestore b depth message)
      (Seat.absorbAt b origin.configuration.cipherSuite depth message) := by
  induction depth generalizing message with
  | zero => exact fun env same => follows_throw _ same
  | succ depth ih =>
    intro env same
    refine follows_receive serialises ?_ _ message same
    intro commit env same
    unfold tryProcessBufferedCommit Seat.tryBuffered
    cases b.tlsDeserialize commit with
    | none => exact follows_throw _ same
    | some message => exact ih message env same

theorem follows_replay (serialises : Serialises b) (messages : List MlsMessageIn) :
    Mirrors origin (replay (decryptMessageInner b · .none) messages)
      (Seat.absorbAll b origin.configuration.cipherSuite messages) := by
  induction messages with
  | nil => exact fun env same => follows_pure _ same
  | cons message rest ih =>
    intro env same
    apply follows_bind (follows_decryptWithoutRestore serialises recursionDepth message env same)
    intro decrypted env same
    apply follows_bind (ih env same)
    intro decryptedMessages env same
    exact follows_pure _ same

end Follows

end CoreCrypto.Conversation
