import CoreCrypto.Conversation.Replay
import CoreCrypto.Keystore.Listing

/-!
# What receiving a message can do

`Receives` lists the ways in which `decrypt_message_inner` can go: only the group and its row change
and the epoch stays, or a commit is merged and the buffered messages are replayed; and a proposal
may have the buffered commit go one of these ways.
-/

namespace CoreCrypto.Conversation

open Keystore Library

variable {b : Backend} {e : Error} {message : MlsMessageIn} {parsed : ParsedMessage}

/-! ### Groups that stay in their epoch -/

/-- What stays the same of a group while no commit is merged. -/
structure Kept {K : Type} (before after : MlsGroup K) : Prop where
  groupId : after.groupId = before.groupId
  ciphersuite : after.ciphersuite = before.ciphersuite
  epoch : after.epoch = before.epoch
  isActive : after.isActive = before.isActive

namespace Kept

variable {K : Type} {group before middle after : MlsGroup K}

theorem refl (group : MlsGroup K) : Kept group group := ⟨rfl, rfl, rfl, rfl⟩

theorem trans (first : Kept before middle) (second : Kept middle after) : Kept before after :=
  ⟨second.groupId.trans first.groupId, second.ciphersuite.trans first.ciphersuite,
    second.epoch.trans first.epoch, second.isActive.trans first.isActive⟩

theorem setPersisted (kept : Kept before after) : Kept before after.setPersisted :=
  ⟨kept.groupId, kept.ciphersuite, kept.epoch, kept.isActive⟩

end Kept

/-- What a merged commit does to a group, apart from its content. -/
structure NextEpoch {K : Type} (before after : MlsGroup K) : Prop where
  groupId : after.groupId = before.groupId
  ciphersuite : after.ciphersuite = before.ciphersuite
  epoch : after.epoch = before.epoch + 1
  changed : after.innerState = .changed

/-- How the functions of OpenMLS act on the epoch of a group: only merging a commit advances it,
and by one.  A missing proposal is reported for messages of the current epoch only. -/
structure EpochLaws (b : Backend) : Prop where
  processed : ∀ group message, Kept group (b.processMessage group message).2
  stored : ∀ group proposal, Kept group (b.storePendingProposal group proposal)
  stagedMerged : ∀ group commit after,
    b.mergeStagedCommit group commit = (.ok (), after) → NextEpoch group after
  stagedFailed : ∀ group commit code after,
    b.mergeStagedCommit group commit = (.error code, after) → Kept group after
  pendingMerged : ∀ group after,
    b.mergePendingCommit group = (.ok (), after) → NextEpoch group after
  pendingFailed : ∀ group code after,
    b.mergePendingCommit group = (.error code, after) → Kept group after
  missing : ∀ group message after,
    b.processMessage group message = (.error .missingProposal, after) → message.epoch = group.epoch

/-- Nothing has changed but the group within its epoch and its row. -/
def Quiet (env env' : Env b) : Prop :=
  ∃ group tx, env' = { env with group, transaction := tx } ∧ Kept env.group group ∧
    Writes b.rt (· = groupEntityId env.id) env.transaction tx

theorem Quiet.refl (env : Env b) : Quiet env env :=
  ⟨env.group, env.transaction, rfl, .refl _, .refl⟩

variable {env env' : Env b}

theorem Quiet.trans {middle : Env b} (first : Quiet env middle)
    (second : Quiet middle env') : Quiet env env' := by
  obtain ⟨group, tx, rfl, kept, writes⟩ := first
  obtain ⟨group', tx', rfl, kept', writes'⟩ := second
  exact ⟨group', tx', rfl, kept.trans kept', writes.trans writes'⟩

theorem quiet_group (env : Env b) (group : b.Group) (kept : Kept env.group group) :
    Quiet env { env with group } :=
  ⟨group, env.transaction, rfl, kept, .refl⟩

theorem quiet_written {group : b.Group} (kept : Kept env.group group) :
    Quiet env (env.written group) :=
  ⟨group.setPersisted, _, rfl, kept.setPersisted, env.written_writes group⟩

theorem processOnGroup_kept (laws : EpochLaws b) (parsed : ParsedMessage) (group : b.Group) :
    Kept group (processOnGroup b parsed group).2 := by
  have kept := laws.processed group parsed.protocolMessage
  unfold processOnGroup
  rcases called : b.processMessage group parsed.protocolMessage with ⟨result, after⟩
  rw [called] at kept
  cases result with
  | error e => exact kept
  | ok processed =>
    simp only
    split
    next => exact kept
    next => exact kept

/-! ### Own commits that come back -/

/-- The message is the pending commit of the own client, and OpenMLS merges it. -/
structure OwnEcho (b : Backend) (env : Env b) (message : MlsMessageIn) where
  parsed : ParsedMessage
  staging : b.Group
  confirmationTag : Bytes
  merged : b.Group
  parses : parseMessage b env.group message = .ok parsed
  processes : processOnGroup b parsed env.group = (.error (.processing .ownCommit), staging)
  tagged : extractConfirmationTagFromOwnCommit b staging message = .ok confirmationTag
  pending : checkOwnCommit b staging confirmationTag = .ok ()
  merges : b.mergePendingCommit staging = (.ok (), merged)

def OwnEcho.mergedEnv {env : Env b} {message : MlsMessageIn} (echo : OwnEcho b env message) :
    Env b :=
  Env.commitMerged { env with group := echo.staging } echo.merged

/-! ### The ways a message can go -/

/-- The message has a commit merged: `merged` is the handle after that, `answer` the answer but
for the replayed messages, and `queued` the epoch whose notification is queued last. -/
inductive Merges (b : Backend) (env : Env b) (message : MlsMessageIn) :
    Env b → DecryptedMessage b → Option Nat → Prop
  | foreign (valid : ValidCommit b env message) :
      Merges b env message valid.mergedEnv
        (commitAnswer b valid.identity valid.merged.setPersisted) (some valid.commit.epoch)
  | own (echo : OwnEcho b env message) (answer : DecryptedMessage b)
      (answers : ownCommitAnswer b env.configuration.cipherSuite echo.mergedEnv.group = .ok answer) :
      Merges b env message echo.mergedEnv answer none

theorem Env.commitMerged_writes (env : Env b) (merged : b.Group) :
    Writes b.rt (fun entityId => entityId = groupEntityId env.id ∨
      entityId.typ = .plain .encryptionKeyPair) env.transaction
      (env.commitMerged merged).transaction := by
  have removed := withoutKeyPairs_writes env.transaction env.group.ownLeafNodes
  have written := Env.written_writes
    { env with transaction := withoutKeyPairs env.transaction env.group.ownLeafNodes } merged
  exact (removed.mono fun _ typ => .inr typ).trans (written.mono fun _ same => .inl same)

theorem Merges.writes {merged : Env b} {answer : DecryptedMessage b} {queued : Option Nat}
    (merges : Merges b env message merged answer queued) :
    Writes b.rt (fun entityId => entityId = groupEntityId env.id ∨
      entityId.typ = .plain .encryptionKeyPair) env.transaction merged.transaction := by
  cases merges with
  | foreign valid =>
    refine Writes.trans ((env.written_writes valid.staging).mono fun _ same => .inl same) ?_
    exact ((env.written valid.staging).written_writes valid.merged).mono fun _ same => .inl same
  | own echo => exact Env.commitMerged_writes { env with group := echo.staging } echo.merged

theorem Merges.sameHandle {merged : Env b} {answer : DecryptedMessage b} {queued : Option Nat}
    (merges : Merges b env message merged answer queued) :
    merged.id = env.id ∧ merged.rows = env.rows ∧ merged.configuration = env.configuration := by
  cases merges with
  | foreign valid => exact ⟨rfl, rfl, rfl⟩
  | own echo => exact ⟨rfl, rfl, rfl⟩

/-- The buffered messages stay, perhaps in another order, while other rows are written. -/
theorem listed_perm {p : EntityId → Prop} (sameId : env'.id = env.id)
    (sameRows : env'.rows = env.rows) (writes : Writes b.rt p env.transaction env'.transaction)
    (keyed : env.transaction.WellKeyed b.rt)
    (others : ∀ entityId, p entityId → entityId.typ ≠ .mlsPendingMessage) :
    env'.listed.Perm env.listed := by
  simp only [Env.listed, pendingMessages, sameId, sameRows]
  apply List.Perm.filterMap
  refine writes.findPendingMessages_perm keyed others ?_
  intro e member
  have matching := (List.mem_filter.mp member).2
  simp only [decide_eq_true_eq] at matching
  exact matching.2

/-- What the answer to a message says when no commit is merged. -/
structure QuietAnswer (b : Backend) (env : Env b) (message : MlsMessageIn)
    (result : Except Error (DecryptedMessage b)) : Prop where
  active : ∀ decrypted, result = .ok decrypted → decrypted.isActive = true
  buffered : result = .error .bufferedCommit →
    ∃ content, message.protocolMessage? = some content ∧ content.epoch = env.group.epoch
  future : ∀ epoch, result = .error (.bufferedFutureMessage epoch) →
    ∃ content, message.protocolMessage? = some content ∧ content.epoch = env.group.epoch + 1
  duplicate : result = .error .duplicateMessage →
    ∃ parsed after, parseMessage b env.group message = .ok parsed ∧
      processOnGroup b parsed env.group = (.error .duplicateMessage, after)

/-- The handle after the notification was queued, if there is one. -/
def Env.queued (env : Env b) : Option Nat → Env b
  | none => env
  | some epoch =>
    { env with pendingEpochChanges := env.pendingEpochChanges ++ [(env.id, epoch)] }

/-- The handle after the buffered commit was cleared. -/
def Env.uncommitted (env : Env b) : Env b :=
  { env with transaction := env.transaction.removeByEntityId (bufferedCommitEntityId env.id) }

/-- The ways in which `decrypt_message_inner` can go, with the result it ends in. -/
inductive Receives (b : Backend) :
    Nat → Env b → MlsMessageIn → EStateM.Result Error (Env b) (DecryptedMessage b) → Prop
  | limit (env : Env b) (message : MlsMessageIn) :
      Receives b 0 env message (.error .recursionLimit env)
  | answered {depth : Nat} {env env' : Env b} {message : MlsMessageIn}
      {decrypted : DecryptedMessage b} (quiet : Quiet env env')
      (answer : QuietAnswer b env message (.ok decrypted)) :
      Receives b (depth + 1) env message (.ok decrypted env')
  | refused {depth : Nat} {env env' : Env b} {message : MlsMessageIn} {e : Error}
      (quiet : Quiet env env') (answer : QuietAnswer b env message (.error e)) :
      Receives b (depth + 1) env message (.error e env')
  | unanswered {depth : Nat} {env : Env b} {message : MlsMessageIn} {e : Error}
      (echo : OwnEcho b env message)
      (fails : ownCommitAnswer b env.configuration.cipherSuite echo.mergedEnv.group = .error e) :
      Receives b (depth + 1) env message (.error e echo.mergedEnv)
  | blocked {depth : Nat} {env merged env' : Env b} {message : MlsMessageIn}
      {answer : DecryptedMessage b} {queued : Option Nat} {e : Error}
      (merges : Merges b env message merged answer queued)
      (fails : restoring b merged = .error e env') :
      Receives b (depth + 1) env message (.error e env')
  | advanced {depth : Nat} {env merged env' : Env b} {message : MlsMessageIn}
      {answer : DecryptedMessage b} {queued : Option Nat}
      {bufferedMessages : Option (List (BufferedDecryptedMessage b))}
      (merges : Merges b env message merged answer queued)
      (restores : restoring b merged = .ok bufferedMessages env') :
      Receives b (depth + 1) env message
        (.ok (answer.withBuffered bufferedMessages) (env'.queued queued))
  | retried {depth : Nat} {env stored env' : Env b} {message buffered : MlsMessageIn}
      {commit : Bytes} {decrypted : DecryptedMessage b} (quiet : Quiet env stored)
      (waiting : stored.seat.buffered = some commit)
      (decodes : b.tlsDeserialize commit = some buffered)
      (inner : Receives b depth stored buffered (.ok decrypted env')) :
      Receives b (depth + 1) env message (.ok decrypted env'.uncommitted)
  | waited {depth : Nat} {env stored env' : Env b} {message buffered : MlsMessageIn}
      {commit : Bytes} (quiet : Quiet env stored) (identity : b.Identity)
      (waiting : stored.seat.buffered = some commit)
      (decodes : b.tlsDeserialize commit = some buffered)
      (inner : Receives b depth stored buffered (.error .bufferedCommit env')) :
      Receives b (depth + 1) env message (.ok (proposalAnswer b identity env'.group) env')
  | failed {depth : Nat} {env stored env' : Env b} {message buffered : MlsMessageIn}
      {commit : Bytes} {e : Error} (quiet : Quiet env stored)
      (waiting : stored.seat.buffered = some commit)
      (decodes : b.tlsDeserialize commit = some buffered) (other : e ≠ .bufferedCommit)
      (inner : Receives b depth stored buffered (.error e env')) :
      Receives b (depth + 1) env message
        (.error (.recursive "processing buffered commit" e) env')

/-! ### Errors of parsing and processing -/

theorem protocolMessage_of_parses {group : b.Group}
    (parses : parseMessage b group message = .ok parsed) :
    message.protocolMessage? = some parsed.protocolMessage := by
  cases message with
  | publicMessage content =>
    simp only [parseMessage, bind, Except.bind] at parses
    split at parses
    next => cases parses
    next => cases parses; rfl
  | privateMessage content => cases parses; rfl
  | other content => cases parses

/-- The error is none of those the outermost call acts on, and not the verdict that the message
is a duplicate. -/
structure Plain (e : Error) : Prop where
  commit : e ≠ .bufferedCommit
  future : ∀ epoch, e ≠ .bufferedFutureMessage epoch
  duplicate : e ≠ .duplicateMessage

theorem error_of_unparsed {group : b.Group}
    (fails : parseMessage b group message = .error e) : Plain e := by
  cases message with
  | publicMessage content =>
    simp only [parseMessage, isDuplicateMessage, bind, Except.bind] at fails
    split at fails
    next e' refuses =>
      cases fails
      split at refuses <;> first
        | cases refuses
        | (split at refuses
           · cases refuses; constructor <;> simp
           · split at refuses
             · cases refuses; constructor <;> simp
             · cases refuses)
    next => cases fails
  | privateMessage content => cases fails
  | other content => cases fails; constructor <;> simp

theorem error_of_untagged {group : b.Group}
    (fails : extractConfirmationTagFromOwnCommit b group message = .error e) : Plain e := by
  cases message with
  | publicMessage content =>
    simp only [extractConfirmationTagFromOwnCommit] at fails
    split at fails
    next =>
      split at fails
      next => cases fails
      next => cases fails; constructor <;> simp
    next => cases fails; constructor <;> simp
  | privateMessage content => cases fails; constructor <;> simp
  | other content => cases fails; constructor <;> simp

theorem error_of_notPending {group : b.Group} {confirmationTag : Bytes}
    (fails : checkOwnCommit b group confirmationTag = .error e) : Plain e := by
  unfold checkOwnCommit at fails
  split at fails
  next => cases fails; constructor <;> simp
  next =>
    split at fails
    next => cases fails
    next => cases fails; constructor <;> simp

theorem error_of_ownAnswer {cipherSuite : Nat} {group : b.Group}
    (fails : ownCommitAnswer b cipherSuite group = .error e) : Plain e := by
  unfold ownCommitAnswer at fails
  split at fails
  next => cases fails; constructor <;> simp
  next =>
    split at fails
    next => cases fails; constructor <;> simp
    next => cases fails

theorem error_of_process {group : b.Group} {after : b.Group}
    (fails : processOnGroup b parsed group = (.error e, after)) :
    e ≠ .bufferedCommit ∧
      (∀ epoch, e = .bufferedFutureMessage epoch →
        parsed.protocolMessage.epoch = group.epoch + 1) ∧
      (e = .processing .missingProposal →
        b.processMessage group parsed.protocolMessage = (.error .missingProposal, after)) := by
  unfold processOnGroup at fails
  rcases called : b.processMessage group parsed.protocolMessage with ⟨result, later⟩
  rw [called] at fails
  cases result with
  | ok processed =>
    simp only at fails
    split at fails
    next => cases fails; simp
    next => cases fails
  | error source =>
    cases fails
    cases source with
    | wrongEpoch =>
      simp only [processError, wrongEpochError]
      split
      next => simp
      next =>
        split
        next future => simp [future]
        next =>
          split
          next => cases parsed.contentType <;> simp
          next => simp
    | _ => simp [processError]

/-! ### The list is complete -/

theorem receive_unparsed (retry : Bytes → Op b (DecryptedMessage b))
    (restore : Op b (Option (List (BufferedDecryptedMessage b)))) (policy : RecursionPolicy)
    (fails : parseMessage b env.group message = .error e) :
    receive retry restore policy message env = .error e env := by
  simp only [receive, get, getThe, MonadStateOf.get, bind, EStateM.bind, EStateM.get, fails,
    liftExcept]
  rfl

theorem receive_refused (retry : Bytes → Op b (DecryptedMessage b))
    (restore : Op b (Option (List (BufferedDecryptedMessage b)))) (policy : RecursionPolicy)
    {after : b.Group} (parses : parseMessage b env.group message = .ok parsed)
    (fails : processOnGroup b parsed env.group = (.error e, after)) :
    receive retry restore policy message env =
      match e with
      | .processing .ownCommit => receiveOwnCommit restore policy message { env with group := after }
      | .processing .missingProposal => .error .bufferedCommit { env with group := after }
      | e => .error e { env with group := after } := by
  have refuses : processMessage b parsed env = .error e { env with group := after } :=
    mutateGroup_error _ env e after fails
  simp only [receive, get, getThe, MonadStateOf.get, bind, EStateM.bind, EStateM.get, parses,
    liftExcept, pure, EStateM.pure, attempt, refuses]
  cases e with
  | processing source => cases source <;> rfl
  | _ => rfl

theorem receive_processed (serialises : Serialises b) (retry : Bytes → Op b (DecryptedMessage b))
    (restore : Op b (Option (List (BufferedDecryptedMessage b)))) (policy : RecursionPolicy)
    {processed : ProcessedMessage b.K} {after : b.Group}
    (parses : parseMessage b env.group message = .ok parsed)
    (processes : processOnGroup b parsed env.group = (.ok processed, after)) :
    receive retry restore policy message env =
      receiveContent retry restore policy processed (env.written after) := by
  have succeeds : processMessage b parsed env = .ok processed (env.written after) :=
    mutateGroup_ok serialises _ env processed after processes
  simp only [receive, get, getThe, MonadStateOf.get, bind, EStateM.bind, EStateM.get, parses,
    liftExcept, pure, EStateM.pure, attempt, succeeds]

/-- An answer that is none of the errors that say something about the message. -/
theorem quietAnswer_error (env : Env b) (message : MlsMessageIn) (plain : Plain e) :
    QuietAnswer b env message (.error e) where
  active := fun _ impossible => by cases impossible
  buffered := fun same => absurd (Except.error.inj same) plain.commit
  future := fun epoch same => absurd (Except.error.inj same) (plain.future epoch)
  duplicate := fun same => absurd (Except.error.inj same) plain.duplicate

theorem quietAnswer_ok (env : Env b) (message : MlsMessageIn) {decrypted : DecryptedMessage b}
    (active : decrypted.isActive = true) : QuietAnswer b env message (.ok decrypted) where
  active := fun _ same => by cases same; exact active
  buffered := fun impossible => by cases impossible
  future := fun _ impossible => by cases impossible
  duplicate := fun impossible => by cases impossible

section Complete

variable {depth : Nat} {env : Env b} {message : MlsMessageIn} {parsed : ParsedMessage}
  {staging : b.Group}

theorem receives_refused (laws : EpochLaws b) (retry : Bytes → Op b (DecryptedMessage b))
    {e : Error} {after : b.Group} (parses : parseMessage b env.group message = .ok parsed)
    (fails : processOnGroup b parsed env.group = (.error e, after))
    (foreign : e ≠ .processing .ownCommit) :
    Receives b (depth + 1) env message (receive retry (restoring b) .asNecessary message env) := by
  have kept := processOnGroup_kept laws parsed env.group
  have content := protocolMessage_of_parses parses
  obtain ⟨notCommit, future, missing⟩ := error_of_process fails
  rw [fails] at kept
  rw [receive_refused retry _ _ parses fails]
  have quiet := quiet_group env after kept
  have answer : QuietAnswer b env message (.error e) :=
    { active := fun _ impossible => by cases impossible
      buffered := fun same => absurd (Except.error.inj same) notCommit
      future := fun epoch same => ⟨_, content, future epoch (Except.error.inj same)⟩
      duplicate := fun same => by cases same; exact ⟨parsed, after, parses, fails⟩ }
  cases e with
  | processing source =>
    cases source with
    | ownCommit => exact absurd rfl foreign
    | missingProposal =>
      refine .refused quiet { active := ?_, buffered := ?_, future := ?_, duplicate := ?_ }
      · intro _ impossible; cases impossible
      · intro _; exact ⟨_, content, laws.missing _ _ _ (missing rfl)⟩
      · intro _ impossible; cases impossible
      · intro impossible; cases impossible
    | _ => exact .refused quiet answer
  | _ => exact .refused quiet answer

theorem receives_own (serialises : Serialises b) (laws : EpochLaws b)
    (parses : parseMessage b env.group message = .ok parsed)
    (processes : processOnGroup b parsed env.group = (.error (.processing .ownCommit), staging)) :
    Receives b (depth + 1) env message
      (receiveOwnCommit (restoring b) .asNecessary message { env with group := staging }) := by
  have kept := processOnGroup_kept laws parsed env.group
  rw [processes] at kept
  have quiet := quiet_group env staging kept
  cases tagged : extractConfirmationTagFromOwnCommit b staging message with
  | error e =>
    simp only [receiveOwnCommit, get, getThe, MonadStateOf.get, bind, EStateM.bind, EStateM.get,
      tagged, liftExcept]
    exact .refused quiet (quietAnswer_error env message (error_of_untagged tagged))
  | ok confirmationTag =>
    simp only [receiveOwnCommit, handleOwnCommit, get, getThe, MonadStateOf.get, bind, EStateM.bind,
      EStateM.get, tagged, liftExcept, pure, EStateM.pure]
    cases pending : checkOwnCommit b staging confirmationTag with
    | error e => exact .refused quiet (quietAnswer_error env message (error_of_notPending pending))
    | ok _ =>
      rcases merges : b.mergePendingCommit staging with ⟨result, merged⟩
      cases result with
      | error code =>
        have fails := commitAccepted_error { env with group := staging } code merged merges
        simp only [mergePendingCommit, bind, EStateM.bind, EStateM.pure, fails]
        have failed := quiet_group env merged (kept.trans (laws.pendingFailed _ _ _ merges))
        exact .refused failed (quietAnswer_error env message (by constructor <;> simp))
      | ok _ =>
        let echo : OwnEcho b env message :=
          ⟨parsed, staging, confirmationTag, merged, parses, processes, tagged, pending, merges⟩
        have accepts : commitAccepted b { env with group := staging } = .ok () echo.mergedEnv :=
          commitAccepted_ok serialises merges
        have suite : echo.mergedEnv.configuration.cipherSuite = env.configuration.cipherSuite := rfl
        simp only [mergePendingCommit, bind, EStateM.bind, EStateM.pure, accepts, get, getThe,
          MonadStateOf.get, EStateM.get, suite]
        cases answers : ownCommitAnswer b env.configuration.cipherSuite echo.mergedEnv.group with
        | error e => exact .unanswered echo answers
        | ok answer =>
          simp only [liftExcept, if_true]
          cases restores : restoring b echo.mergedEnv with
          | error e env' =>
            simp only [EStateM.bind, pure, EStateM.pure, restores]
            exact .blocked (.own echo answer answers) restores
          | ok bufferedMessages env' =>
            simp only [EStateM.bind, pure, EStateM.pure, restores]
            exact .advanced (.own echo answer answers) restores

theorem receives_proposal (serialises : Serialises b) (laws : EpochLaws b)
    (inner : ∀ stored buffered, Receives b depth stored buffered
      (decryptAsNecessary b depth buffered stored)) {processed : Env b}
    (quiet : Quiet env processed) (identity : b.Identity) (proposal : QueuedProposal) :
    Receives b (depth + 1) env message
      (receiveProposal (tryProcessBufferedCommit (decryptAsNecessary b depth)) identity proposal
        processed) := by
  have stores : storeProposal b proposal processed =
      .ok () (processed.written (b.storePendingProposal processed.group proposal)) :=
    mutateGroup_ok serialises _ processed () _ rfl
  have quiet := quiet.trans (quiet_written (laws.stored processed.group proposal))
  generalize processed.written (b.storePendingProposal processed.group proposal) = stored
    at stores quiet
  have retrieves : retrieveBufferedCommit b stored = .ok stored.seat.buffered stored := rfl
  simp only [receiveProposal, bind, EStateM.bind, stores, retrieves]
  cases waiting : stored.seat.buffered with
  | none => exact .answered quiet (quietAnswer_ok env message rfl)
  | some commit =>
    cases decodes : b.tlsDeserialize commit with
    | none =>
      simp only [tryProcessBufferedCommit, decodes]
      exact .refused quiet (quietAnswer_error env message (by constructor <;> simp))
    | some buffered =>
      have went := inner stored buffered
      simp only [tryProcessBufferedCommit, decodes]
      cases retries : decryptAsNecessary b depth buffered stored with
      | ok decrypted env' =>
        rw [retries] at went
        simp only [EStateM.bind, attempt, retries]
        exact .retried quiet waiting decodes went
      | error e env' =>
        rw [retries] at went
        simp only [EStateM.bind, attempt, retries]
        by_cases missing : e = .bufferedCommit
        · subst missing
          exact .waited quiet identity waiting decodes went
        · have throws : Receives b (depth + 1) env message
              (.error (.recursive "processing buffered commit" e) env') :=
            .failed quiet waiting decodes missing went
          cases e <;> first
            | exact throws
            | exact absurd rfl missing

theorem receives_content (serialises : Serialises b) (laws : EpochLaws b)
    (inner : ∀ stored buffered, Receives b depth stored buffered
      (decryptAsNecessary b depth buffered stored)) {processed : ProcessedMessage b.K}
    (parses : parseMessage b env.group message = .ok parsed)
    (processes : processOnGroup b parsed env.group = (.ok processed, staging)) :
    Receives b (depth + 1) env message
      (receiveContent (tryProcessBufferedCommit (decryptAsNecessary b depth)) (restoring b)
        .asNecessary processed (env.written staging)) := by
  have kept := processOnGroup_kept laws parsed env.group
  rw [processes] at kept
  have quiet := quiet_written kept
  have suite : (env.written staging).configuration.cipherSuite = env.configuration.cipherSuite :=
    rfl
  simp only [receiveContent, get, getThe, MonadStateOf.get, bind, EStateM.bind, EStateM.get, suite]
  cases identifies : b.extractIdentity processed.credential env.configuration.cipherSuite with
  | error code => exact .refused quiet (quietAnswer_error env message (by constructor <;> simp))
  | ok identity =>
    simp only [liftExcept, pure, EStateM.pure]
    cases content : processed.content with
    | applicationMessage bytes => exact .answered quiet (quietAnswer_ok env message rfl)
    | proposalMessage proposal =>
      exact receives_proposal serialises laws inner quiet identity proposal
    | externalJoinProposalMessage proposal =>
      have stores : storeProposal b proposal (env.written staging) =
          .ok () ((env.written staging).written
            (b.storePendingProposal (env.written staging).group proposal)) :=
        mutateGroup_ok serialises _ _ () _ rfl
      simp only [EStateM.bind, stores]
      exact .answered (quiet.trans (quiet_written (laws.stored _ proposal)))
        (quietAnswer_ok env message rfl)
    | stagedCommitMessage commit =>
      rcases merges : b.mergeStagedCommit staging.setPersisted commit with ⟨result, merged⟩
      cases result with
      | error code =>
        have fails : mergeStagedCommit b commit (env.written staging) =
            .error (.openMls "merge staged commit" code)
              { env.written staging with group := merged } := by
          refine mutateGroup_error _ _ _ merged ?_
          simp only [mergeStagedOnGroup, Env.written, merges, Except.mapError]
        simp only [receiveCommit, bind, EStateM.bind, fails]
        have failed := quiet_group (env.written staging) merged (laws.stagedFailed _ _ _ _ merges)
        exact .refused (quiet.trans failed)
          (quietAnswer_error env message (by constructor <;> simp))
      | ok _ =>
        let valid : ValidCommit b env message :=
          ⟨parsed, processed, staging, commit, identity, merged, parses, processes, content,
            identifies, merges⟩
        have merging : mergeStagedCommit b commit (env.written staging) =
            .ok () valid.mergedEnv := by
          refine mutateGroup_ok serialises _ _ () merged ?_
          simp only [mergeStagedOnGroup, Env.written, merges, Except.mapError]
        simp only [receiveCommit, bind, EStateM.bind, merging, get, getThe, MonadStateOf.get,
          EStateM.get, if_true]
        cases restores : restoring b valid.mergedEnv with
        | error e env' => exact .blocked (.foreign valid) restores
        | ok bufferedMessages env' => exact .advanced (.foreign valid) restores

/-- **Every call goes one of the listed ways.** -/
theorem receives (serialises : Serialises b) (laws : EpochLaws b) (depth : Nat) (env : Env b)
    (message : MlsMessageIn) :
    Receives b depth env message (decryptAsNecessary b depth message env) := by
  induction depth generalizing env message with
  | zero => exact .limit env message
  | succ depth ih =>
    have unfolds : decryptAsNecessary b (depth + 1) message env =
        receive (tryProcessBufferedCommit (decryptAsNecessary b depth)) (restoring b)
          .asNecessary message env := rfl
    rw [unfolds]
    cases parses : parseMessage b env.group message with
    | error e =>
      rw [receive_unparsed _ _ _ parses]
      exact .refused (.refl env) (quietAnswer_error env message (error_of_unparsed parses))
    | ok parsed =>
      rcases processes : processOnGroup b parsed env.group with ⟨result, staging⟩
      cases result with
      | error e =>
        by_cases own : e = .processing .ownCommit
        · subst own
          rw [receive_refused _ _ _ parses processes]
          exact receives_own serialises laws parses processes
        · exact receives_refused laws _ parses processes own
      | ok processed =>
        rw [receive_processed serialises _ _ _ parses
          processes]
        exact receives_content serialises laws ih parses processes

end Complete

end CoreCrypto.Conversation
