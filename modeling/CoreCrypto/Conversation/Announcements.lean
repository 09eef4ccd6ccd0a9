import CoreCrypto.Conversation.Buffers
import CoreCrypto.Conversation.Duplicates

/-!
# Announced epochs

The observer is told about the epochs that a transaction has queued.  A received commit is queued
after the buffered messages were replayed, so behind the commits among these and not at all if the
replay fails; an own commit that comes back is not queued, and neither is an external join that
replaces the group of a conversation.
-/

namespace CoreCrypto.Conversation

open Keystore Library

variable {b : Backend} {bytes : Bytes} {message : MlsMessageIn}

/-! ### Queues that follow the group -/

/-- The epochs that are queued for a conversation, in the order of the notifications. -/
def queuedFor (id : ConversationId) (changes : List (ConversationId × Nat)) : List Nat :=
  (changes.filter (fun change => change.1 = id)).map Prod.snd

@[simp] theorem queuedFor_append (id : ConversationId) (first second : List (ConversationId × Nat)) :
    queuedFor id (first ++ second) = queuedFor id first ++ queuedFor id second := by
  simp [queuedFor]

@[simp] theorem queuedFor_singleton (id : ConversationId) (epoch : Nat) :
    queuedFor id [(id, epoch)] = [epoch] := by
  simp [queuedFor]

theorem queuedFor_others (id : ConversationId) (changes : List (ConversationId × Nat)) :
    queuedFor id (changes.filter (fun change => change.1 ≠ id)) = [] := by
  simp [queuedFor, List.filter_filter]

/-- Since `origin`, the epochs that the group has moved to were queued, each once and in order: a
merged commit moves the group to the next epoch. -/
structure Announced (origin env : Env b) : Prop where
  sameId : env.id = origin.id
  epoch : origin.group.epoch ≤ env.group.epoch
  queued : queuedFor origin.id env.pendingEpochChanges =
    queuedFor origin.id origin.pendingEpochChanges ++
      List.range' (origin.group.epoch + 1) (env.group.epoch - origin.group.epoch)

namespace Announced

variable {origin env env' : Env b}

theorem refl (env : Env b) : Announced env env := ⟨rfl, Nat.le_refl _, by simp⟩

theorem trans (first : Announced origin env) (second : Announced env env') :
    Announced origin env' where
  sameId := second.sameId.trans first.sameId
  epoch := Nat.le_trans first.epoch second.epoch
  queued := by
    have later := second.queued
    rw [first.sameId, first.queued, List.append_assoc] at later
    rw [later]
    -- the two ranges meet at the epoch in between
    have meet : env.group.epoch + 1 =
        origin.group.epoch + 1 + (env.group.epoch - origin.group.epoch) := by
      have := first.epoch
      omega
    have total : env.group.epoch - origin.group.epoch + (env'.group.epoch - env.group.epoch) =
        env'.group.epoch - origin.group.epoch := by
      have := first.epoch
      have := second.epoch
      omega
    rw [meet, List.range'_append_1, total]

theorem still (sameId : env'.id = env.id) (epoch : env'.group.epoch = env.group.epoch)
    (queued : queuedFor env.id env'.pendingEpochChanges =
      queuedFor env.id env.pendingEpochChanges) : Announced env env' :=
  ⟨sameId, Nat.le_of_eq epoch.symm, by simp [queued, epoch]⟩

theorem next (sameId : env'.id = env.id) (epoch : env'.group.epoch = env.group.epoch + 1)
    (queued : env'.pendingEpochChanges =
      env.pendingEpochChanges ++ [(env.id, env.group.epoch + 1)]) : Announced env env' where
  sameId := sameId
  epoch := by omega
  queued := by
    have one : env'.group.epoch - env.group.epoch = 1 := by omega
    rw [queued, queuedFor_append, queuedFor_singleton, one]
    rfl

theorem kept (announced : Announced origin env) {group : b.Group} (kept : Kept env.group group) :
    Announced origin { env with group } :=
  announced.trans (still rfl kept.epoch rfl)

theorem written (announced : Announced origin env) {group : b.Group}
    (kept : Kept env.group group) : Announced origin (env.written group) :=
  announced.trans (still rfl kept.epoch rfl)

end Announced

variable {env env' : Env b}

theorem Quiet.announced (quiet : Quiet env env') : Announced env env' := by
  obtain ⟨group, tx, rfl, kept, -⟩ := quiet
  exact .still rfl kept.epoch rfl

/-- What is used of OpenMLS here: a staged commit tells the epoch it leads to, and an own commit
is pending only after it was created. -/
structure AnnouncingLaws (b : Backend) : Prop where
  committing : CommittingLaws b
  activity : ActivityLaws b
  stagedEpoch : ∀ group message processed after commit,
    b.processMessage group message = (.ok processed, after) →
    processed.content = .stagedCommitMessage commit → commit.epoch = group.epoch + 1
  processed : ∀ group message,
    group.pendingCommit = none → (b.processMessage group message).2.pendingCommit = none
  stored : ∀ group proposal,
    group.pendingCommit = none → (b.storePendingProposal group proposal).pendingCommit = none
  staged : ∀ group commit,
    group.pendingCommit = none → (b.mergeStagedCommit group commit).2.pendingCommit = none

theorem AnnouncingLaws.epoch_of_staged (laws : AnnouncingLaws b) {group : b.Group}
    {commit : StagedCommit b.K} (staged : StagedIn b group commit) :
    commit.epoch = group.epoch + 1 := by
  obtain ⟨before, message, processed, after, called, content, rfl⟩ := staged
  have kept := laws.committing.epochs.processed before message
  rw [called] at kept
  rw [laws.stagedEpoch before message processed after commit called content, ← kept.epoch]
  rfl

theorem AnnouncingLaws.notPending_of_processOnGroup (laws : AnnouncingLaws b)
    {parsed : ParsedMessage} {group after : b.Group} {result : Except Error (ProcessedMessage b.K)}
    (idle : group.pendingCommit = none)
    (processes : processOnGroup b parsed group = (result, after)) : after.pendingCommit = none := by
  obtain ⟨verdict, called, -⟩ := processOnGroup_called processes
  have kept := laws.processed group parsed.protocolMessage idle
  rwa [called] at kept

theorem announced_staged (laws : AnnouncingLaws b) {origin : Env b}
    (announced : Announced origin env) {commit : StagedCommit b.K} {merged : b.Group}
    (staged : StagedIn b env.group commit)
    (merges : b.mergeStagedCommit env.group commit = (.ok (), merged)) :
    Announced origin ((env.written merged).queued (some commit.epoch)) := by
  have next := laws.committing.epochs.stagedMerged _ _ _ merges
  refine announced.trans (.next rfl next.epoch ?_)
  rw [← laws.epoch_of_staged staged]
  rfl

/-! ### Replayed messages -/

/-- While the group stays in its epoch, nothing is queued. -/
structure Unqueued (origin env : Env b) : Prop where
  sameId : env.id = origin.id
  epoch : origin.group.epoch ≤ env.group.epoch
  queue : env.group.epoch = origin.group.epoch →
    env.pendingEpochChanges = origin.pendingEpochChanges

namespace Unqueued

variable {origin env : Env b} {group : b.Group}

theorem kept (unqueued : Unqueued origin env) (kept : Kept env.group group) :
    Unqueued origin { env with group } :=
  ⟨unqueued.sameId, by rw [kept.epoch]; exact unqueued.epoch,
    fun same => unqueued.queue (kept.epoch.symm.trans same)⟩

theorem written (unqueued : Unqueued origin env) (kept : Kept env.group group) :
    Unqueued origin (env.written group) :=
  ⟨unqueued.sameId, by rw [Env.written]; exact (unqueued.kept kept).epoch,
    fun same => unqueued.queue (kept.epoch.symm.trans same)⟩

theorem moved (unqueued : Unqueued origin env) {env' : Env b} (sameId : env'.id = env.id)
    (epoch : env'.group.epoch = env.group.epoch + 1) : Unqueued origin env' where
  sameId := sameId.trans unqueued.sameId
  epoch := by
    have := unqueued.epoch
    omega
  queue := by
    have := unqueued.epoch
    omega

end Unqueued

theorem unqueued_receiving (serialises : Serialises b) (laws : EpochLaws b) (origin : Env b) :
    Receiving b (Unqueued origin) (pure none) .none where
  processed := fun _ _ _ _ holds processes => holds.written (kept_of_processOnGroup laws processes)
  refused := fun _ _ _ _ _ holds _ processes => holds.kept (kept_of_processOnGroup laws processes)
  stores := keeps_storeProposal serialises
    (fun env proposal holds => holds.written (laws.stored env.group proposal))
  clears := fun _ holds => ⟨holds.sameId, holds.epoch, holds.queue⟩
  commits := keeps_receiveCommit serialises
    (fun _ _ _ holds _ merges => holds.moved rfl (laws.stagedMerged _ _ _ merges).epoch)
    (fun _ _ _ _ holds fails => holds.kept (laws.stagedFailed _ _ _ _ fails))
  ownCommits := keeps_receiveOwnCommit (keeps_commitAccepted serialises
    (fun _ _ holds merges => holds.moved rfl (laws.pendingMerged _ _ merges).epoch)
    (fun _ _ _ holds fails => holds.kept (laws.pendingFailed _ _ _ fails))) (keeps_pure none) .none

/-- The buffered messages can all be replayed, and none of them has a commit merged. -/
def Env.Still (env : Env b) : Prop :=
  ∃ decoded results seat, env.listed.mapM (decodePending b) = .ok decoded ∧
    Seat.absorbAll b env.configuration.cipherSuite (replayOrder decoded) env.seat =
      .ok results seat ∧
    seat.group.epoch = env.group.epoch

theorem Env.Still.restores (still : env.Still) (serialises : Serialises b) {e : Error}
    : restoring b env ≠ .error e env' := by
  intro fails
  obtain ⟨decoded, results, seat, decodes, taken, -⟩ := still
  obtain ⟨_, -, restores⟩ := restoring_ok serialises decodes taken
  rw [fails] at restores
  cases restores

/-- Where no commit is replayed, nothing is queued. -/
theorem Env.Still.announced (still : env.Still) (serialises : Serialises b)
    (laws : EpochLaws b) {answer : Option (List (BufferedDecryptedMessage b))}
    (restores : restoring b env = .ok answer env') :
    env'.id = env.id ∧ env'.group.epoch = env.group.epoch ∧
      env'.pendingEpochChanges = env.pendingEpochChanges := by
  obtain ⟨decoded, results, seat, decodes, taken, sameEpoch⟩ := still
  have unqueued := keeps_restoring (unqueued_receiving serialises laws env) serialises
    (fun _ holds => ⟨holds.sameId, holds.epoch, holds.queue⟩) env
    ⟨rfl, Nat.le_refl _, fun _ => rfl⟩
  have group := (restoring_group env).trans (restorePendingMessages_group serialises decodes)
  simp only [finalState, restores, taken] at unqueued group
  have epoch : env'.group.epoch = env.group.epoch := by rw [group, sameEpoch]
  exact ⟨unqueued.sameId, epoch, unqueued.queue epoch⟩

/-! ### Receiving a message -/

/-- No own commit comes back, neither as the message nor as the commit that waits for it. -/
def Foreign (b : Backend) (env : Env b) (message : MlsMessageIn) : Prop :=
  ∀ env' message', Reached b env message env' message' → IsEmpty (OwnEcho b env' message')

theorem Foreign.buffered {stored : Env b} {waiting : MlsMessageIn} {commit : Bytes}
    (foreign : Foreign b env message) (quiet : Quiet env stored)
    (isWaiting : stored.seat.buffered = some commit)
    (decodes : b.tlsDeserialize commit = some waiting) : Foreign b stored waiting :=
  fun env' message' reached => foreign env' message' (.buffered quiet isWaiting decodes reached)

/-- The state a call has ended in was announced. -/
def AnnouncedAt (env : Env b) : EStateM.Result Error (Env b) (DecryptedMessage b) → Prop
  | .ok _ env' => Announced env env'
  | .error _ env' => Announced env env'

/-- A commit whose replay merges nothing is announced once the replay is done. -/
theorem announced_advanced (serialises : Serialises b) (laws : AnnouncingLaws b)
    {valid : ValidCommit b env message} (still : valid.mergedEnv.Still)
    {answer : Option (List (BufferedDecryptedMessage b))}
    (restores : restoring b valid.mergedEnv = .ok answer env') :
    Announced env (env'.queued (some valid.commit.epoch)) := by
  have epochs := laws.committing.epochs
  have kept := processOnGroup_kept epochs valid.parsed env.group
  rw [valid.processes] at kept
  have next := epochs.stagedMerged _ _ _ valid.merges
  have moved : valid.merged.epoch = env.group.epoch + 1 := next.epoch.trans (by rw [← kept.epoch]; rfl)
  obtain ⟨sameId, sameEpoch, sameQueue⟩ := still.announced serialises epochs restores
  refine .next sameId (sameEpoch.trans moved) ?_
  obtain ⟨verdict, called, verdictOk⟩ := processOnGroup_called valid.processes
  rw [verdictOk valid.processed rfl] at called
  rw [Env.queued, sameId, sameQueue, laws.stagedEpoch _ _ _ _ _ called valid.stages]
  rfl

theorem announced_of_receives (serialises : Serialises b) (laws : AnnouncingLaws b) {depth : Nat}
    {result : EStateM.Result Error (Env b) (DecryptedMessage b)}
    (went : Receives b depth env message result) (foreign : Foreign b env message)
    (still : ∀ merged, Applied b env message merged → merged.Still) : AnnouncedAt env result := by
  induction went with
  | limit env message => exact .refl env
  | answered quiet answer => exact quiet.announced
  | refused quiet answer => exact quiet.announced
  | unanswered echo fails => exact ((foreign _ _ (.self _ _)).false echo).elim
  | blocked merges fails =>
    exact absurd fails ((still _ (.delivered merges)).restores serialises)
  | advanced merges restores =>
    cases merges with
    | own echo answer answers => exact ((foreign _ _ (.self _ _)).false echo).elim
    | foreign valid =>
      exact announced_advanced serialises laws (still _ (.delivered (.foreign valid))) restores
  | retried quiet waiting decodes inner ih =>
    have announced := ih (foreign.buffered quiet waiting decodes)
      (fun merged applied => still merged (.buffered quiet waiting decodes applied))
    -- clearing the buffered commit touches neither the group nor the queue
    exact quiet.announced.trans (announced.trans (.still rfl rfl rfl))
  | waited quiet identity waiting decodes inner ih =>
    exact quiet.announced.trans (ih (foreign.buffered quiet waiting decodes)
      (fun merged applied => still merged (.buffered quiet waiting decodes applied)))
  | failed quiet waiting decodes other inner ih =>
    exact quiet.announced.trans (ih (foreign.buffered quiet waiting decodes)
      (fun merged applied => still merged (.buffered quiet waiting decodes applied)))

/-! ### The operations of a handle -/

section Operations

variable (serialises : Serialises b) (laws : AnnouncingLaws b) (origin : Env b)

include serialises laws

theorem announced_wipe : Keeps (Announced origin) (wipe b) := by
  have kept : ∀ group : b.Group, Kept group (removePendingProposals b
      ((b.deletePreviousEpochKeypairs group).pendingProposals.map (·.reference))
      (b.deletePreviousEpochKeypairs group)).2 := fun group =>
    (laws.activity.keysDeleted group).trans (removePendingProposals_kept laws.activity _ _)
  apply keeps_bind
  · apply keeps_mutateGroup serialises
    · intro env _ after holds called
      have same := kept env.group
      rw [called] at same
      exact holds.written same
    · intro env _ after holds called
      have same := kept env.group
      rw [called] at same
      exact holds.kept same
  · exact fun _ _ holds => holds.trans (.still rfl rfl rfl)

theorem announced_settle (bytes : Bytes) (result : Except Error (DecryptedMessage b)) :
    Keeps (Announced origin) (settle b bytes result) := by
  cases result with
  | error e =>
    cases e with
    | bufferedFutureMessage _ => exact fun _ holds => holds.trans (.still rfl rfl rfl)
    | bufferedCommit => exact fun _ holds => holds.trans (.still rfl rfl rfl)
    | _ => exact keeps_throw _
  | ok decrypted =>
    simp only [settle]
    split
    next => exact keeps_bind (announced_wipe serialises laws origin) fun _ => keeps_pure _
    next => exact keeps_pure _

theorem working_announced : Working b Kept Kept (Announced origin) where
  changed := fun _ _ holds kept => holds.kept kept
  written := fun _ _ holds kept => holds.written kept
  recorded := fun _ _ _ _ holds => holds.trans (.still rfl rfl rfl)
  merged := by
    apply keeps_mergeCommit serialises
    · intro env merged holds merges
      have next := laws.committing.epochs.pendingMerged _ _ merges
      refine holds.trans (.next rfl next.epoch ?_)
      rw [← next.epoch]
      rfl
    · intro env code group holds fails
      exact holds.kept (laws.committing.epochs.pendingFailed _ _ _ fails)

end Operations

/-- A message is announced as it should be if no own commit comes back and the replay that follows
a merged commit merges no other. -/
theorem announced_decryptMessage (serialises : Serialises b) (laws : AnnouncingLaws b)
    (foreign : ∀ message, b.tlsDeserialize bytes = some message → Foreign b env message)
    (still : ∀ message, b.tlsDeserialize bytes = some message →
      ∀ merged, Applied b env message merged → merged.Still) :
    Announced env (finalState (decryptMessage b bytes) env) := by
  cases decodes : b.tlsDeserialize bytes with
  | none =>
    simp only [finalState, decryptMessage, decodes]
    exact .refl env
  | some message =>
    have announced := announced_of_receives serialises laws
      (receives serialises laws.committing.epochs recursionDepth env message)
      (foreign message decodes) (still message decodes)
    have settles := announced_settle serialises laws env bytes
    have inner : decryptAsNecessary b recursionDepth message env =
        decryptMessageInner b message .asNecessary env := rfl
    rw [inner] at announced
    simp only [finalState, decryptMessage, decodes, bind, EStateM.bind, attempt]
    cases called : decryptMessageInner b message .asNecessary env with
    | ok decrypted env' =>
      rw [called] at announced
      exact triple_finalState (settles (.ok decrypted)) announced
    | error e env' =>
      rw [called] at announced
      exact triple_finalState (settles (.error e)) announced

/-! ### The replay that ends a join -/

/-- No own commit is pending, and everything since `origin` was announced. -/
structure Joined (origin env : Env b) : Prop where
  announced : Announced origin env
  pendingCommit : env.group.pendingCommit = none

/-- Without a pending commit, an own commit that comes back is ignored. -/
theorem keeps_ownCommit_ignored {inv : Env b → Prop}
    (ignored : ∀ env, inv env → env.group.pendingCommit = none)
    (restore : Op b (Option (List (BufferedDecryptedMessage b)))) (policy : RecursionPolicy)
    (message : MlsMessageIn) : Keeps inv (receiveOwnCommit restore policy message) := by
  intro env holds
  simp only [receiveOwnCommit, handleOwnCommit, checkOwnCommit, get, getThe, MonadStateOf.get, bind,
    EStateM.bind, EStateM.get]
  cases extractConfirmationTagFromOwnCommit b env.group message with
  | error e => exact holds
  | ok confirmationTag =>
    simp only [liftExcept, pure, EStateM.pure, ignored env holds]
    exact holds

theorem joined_receiving (serialises : Serialises b) (laws : AnnouncingLaws b) (origin : Env b) :
    Receiving b (Joined origin) (pure none) .none where
  processed := by
    intro env parsed processed after holds processes
    have idle := laws.notPending_of_processOnGroup holds.pendingCommit processes
    exact ⟨holds.announced.written (kept_of_processOnGroup laws.committing.epochs processes), idle⟩
  refused := fun _ _ _ _ _ holds _ processes =>
    ⟨holds.announced.kept (kept_of_processOnGroup laws.committing.epochs processes),
      laws.notPending_of_processOnGroup holds.pendingCommit processes⟩
  stores := keeps_storeProposal serialises fun env proposal holds =>
    ⟨holds.announced.written (laws.committing.epochs.stored env.group proposal),
      laws.stored _ _ holds.pendingCommit⟩
  clears := fun _ holds => ⟨holds.announced.trans (.still rfl rfl rfl), holds.pendingCommit⟩
  commits := keeps_receiveCommit serialises
    (fun env commit merged holds staged merges => by
      have none := laws.staged env.group commit holds.pendingCommit
      rw [merges] at none
      exact ⟨announced_staged laws holds.announced staged merges, none⟩)
    (fun env commit code group holds fails => by
      have none := laws.staged env.group commit holds.pendingCommit
      rw [fails] at none
      exact ⟨holds.announced.kept (laws.committing.epochs.stagedFailed _ _ _ _ fails), none⟩)
  ownCommits := keeps_ownCommit_ignored (fun _ holds => holds.pendingCommit) _ _

/-! ### Joining again -/

/-- The scope of the transaction, with no other conversation in it. -/
def Env.scope (env : Env b) : Scope b :=
  { heap := [⟨env.id, env.group, env.configuration⟩]
    conversationCache := env.conversationCache
    rows := env.rows
    transaction := env.transaction
    pendingEpochChanges := env.pendingEpochChanges
    accepted := env.accepted
    historyClients := env.historyClients
    clock := env.clock }

/-- The handle after the conversation was joined by an external commit: `merge` puts a new group in
the place of the old one, if it gets that far. -/
def Env.rejoined (env : Env b) (state : b.State) (customConfiguration : Bytes) : Env b :=
  ((finalState (PendingConversation.mk env.id state customConfiguration).merge env.scope).focus
    env.scope.heap.length).getD env

/-- The conversation is stored, and the group that the join leads to, if it can be read, is one of
this conversation in its present epoch. -/
def Env.Rejoinable (env : Env b) (state : b.State) : Prop :=
  (env.scope.row (groupEntityId env.id)).isSome ∧
    ∀ group, PendingConversation.mergedGroup b "deserializing mls group" state = .ok group →
      group.groupId = env.id ∧ group.epoch = env.group.epoch

theorem announced_rejoined (serialises : Serialises b) {state : b.State} (custom : Bytes)
    (rejoinable : env.Rejoinable state) : Announced env (env.rejoined state custom) := by
  obtain ⟨stored, same⟩ := rejoinable
  unfold Env.rejoined
  cases merges : PendingConversation.mergedGroup b "deserializing mls group" state with
  | error e =>
    simp only [finalState, PendingConversation.merge, merges, liftScope, bind, EStateM.bind]
    exact .refl env
  | ok group =>
    cases configured : b.decodeCustom custom with
    | error code =>
      simp only [finalState, PendingConversation.merge, merges, configured, liftScope, bind,
        EStateM.bind, pure, EStateM.pure]
      exact .refl env
    | ok configuration =>
      obtain ⟨serialised, serialises⟩ := serialises group
      obtain ⟨sameId, sameEpoch⟩ := same group merges
      let joinable : Joinable b ⟨env.id, state, custom⟩ :=
        ⟨group, serialised, configuration, merges, serialises, configured, sameId⟩
      have clearOnly : Joinable.policy env.scope ⟨env.id, state, custom⟩ = .clearOnly :=
        if_pos stored
      rw [finalState, joinable.merge_eq, clearOnly]
      exact .still sameId sameEpoch rfl

/-! ### Transactions -/

/-- What operations on other conversations leave of the parts that a transaction shares. -/
structure Elsewhere (b : Backend) where
  transaction : KeystoreTransaction b.State
  conversationCache : LruMap ConversationId Nat TransactionContext.conversationCacheCapacity
  changes : List (ConversationId × Nat)
  accepted : List CommitBundle
  historyClients : List (ConversationId × HistorySecret)
  clock : Nat

/-- What happens in a transaction, seen from one of its conversations. -/
inductive TransactionStep (b : Backend) where
  | handle (step : HandleStep)
  | wipe
  /-- The replay with which a join ends. -/
  | restore (policy : MessageRestorePolicy)
  | rejoin (state : b.State) (customConfiguration : Bytes)
  | elsewhere (left : Elsewhere b)

/-- The handle after a step, whether it has succeeded or not. -/
def TransactionStep.perform (b : Backend) (env : Env b) : TransactionStep b → Env b
  | .handle step => step.perform b env
  | .wipe => finalState (Conversation.wipe b) env
  | .restore policy =>
    finalState (restorePendingMessages (decryptMessageInner b · .none) policy) env
  | .rejoin state customConfiguration => env.rejoined state customConfiguration
  | .elsewhere left =>
    { env with
      transaction := left.transaction
      conversationCache := left.conversationCache
      -- each conversation queues its own epochs
      pendingEpochChanges :=
        env.pendingEpochChanges ++ left.changes.filter (fun change => change.1 ≠ env.id)
      accepted := left.accepted
      historyClients := left.historyClients
      clock := left.clock }

/-- No own commit comes back, a commit that is merged finds no other among the buffered messages,
a join has left no commit pending, and a join of the same conversation does not change its epoch. -/
def Announceable (b : Backend) (env : Env b) : TransactionStep b → Prop
  | .handle (.decryptMessage bytes) => ∀ message, b.tlsDeserialize bytes = some message →
      Foreign b env message ∧ ∀ merged, Applied b env message merged → merged.Still
  | .restore _ => env.group.pendingCommit = none
  | .rejoin state _ => env.Rejoinable state
  | _ => True

theorem announced_perform (serialises : Serialises b) (laws : AnnouncingLaws b)
    {step : TransactionStep b} (announceable : Announceable b env step) :
    Announced env (step.perform b env) := by
  have working := working_announced serialises laws env
  cases step with
  | handle step =>
    cases step with
    | decryptMessage bytes =>
      exact announced_decryptMessage serialises laws
        (fun message decodes => (announceable message decodes).1)
        (fun message decodes => (announceable message decodes).2)
    | commit call =>
      exact triple_finalState (working_perform working serialises laws.committing.calls call)
        (.refl env)
    | encryptMessage message =>
      exact triple_finalState (working_encryptMessage working serialises laws.committing.calls
        message) (.refl env)
  | wipe => exact triple_finalState (announced_wipe serialises laws env) (.refl env)
  | restore policy =>
    have replayed := keeps_replayed (joined_receiving serialises laws env) serialises
      recursionDepth
    have emptied : Keeps (Joined env) (clearPendingMessages b) := fun _ holds =>
      ⟨holds.announced.trans (.still rfl rfl rfl), holds.pendingCommit⟩
    have joined := triple_finalState (keeps_restorePendingMessages emptied replayed policy)
      ⟨.refl env, announceable⟩
    exact joined.announced
  | rejoin state customConfiguration =>
    exact announced_rejoined serialises customConfiguration announceable
  | elsewhere left =>
    refine .still rfl rfl ?_
    simp only [TransactionStep.perform, queuedFor_append, queuedFor_others, List.append_nil]

/-- What the end of a transaction tells the observer: all changes if `finish` succeeds, and nothing
if it fails or the transaction is aborted. -/
structure Notifies {S H P : Type} (rt : Runtime S) (core : TransactionContext.Core S H P)
    (changes : List (ConversationId × Nat)) : Prop where
  finished : ∀ engine, (TransactionContext.finish rt core (.valid changes) engine).1 = .ok () →
    (TransactionContext.finish rt core (.valid changes) engine).2.1.mls.map (·.epochChanges) =
      core.mls.map (·.epochChanges ++ changes)
  failed : ∀ engine e, (TransactionContext.finish rt core (.valid changes) engine).1 = .error e →
    (TransactionContext.finish rt core (.valid changes) engine).2.1.mls.map (·.epochChanges) =
      core.mls.map (·.epochChanges)
  aborted : (TransactionContext.abort core (.valid changes)).2.1.mls.map (·.epochChanges) =
    core.mls.map (·.epochChanges)

theorem notifies {S H P : Type} (rt : Runtime S) (core : TransactionContext.Core S H P)
    (changes : List (ConversationId × Nat)) : Notifies rt core changes where
  finished := by
    intro engine succeeded
    simp only [TransactionContext.finish] at succeeded ⊢
    split at succeeded
    next => simp [Function.comp_def, TransactionContext.notifyEpochChanged, *]
    next => cases succeeded
  failed := by
    intro engine e fails
    simp only [TransactionContext.finish] at fails ⊢
    split at fails
    next => cases fails
    next => simp [Function.comp_def, TransactionContext.clearConversationCache, *]
  aborted := by
    simp only [TransactionContext.abort]
    split <;> simp [Function.comp_def, TransactionContext.clearConversationCache]

theorem still_of_unlisted (unlisted : env.listed = []) : env.Still :=
  ⟨[], [], env.seat, by rw [unlisted]; rfl, rfl, rfl⟩

theorem Quiet.buffered (quiet : Quiet env env') : env'.seat.buffered = env.seat.buffered := by
  obtain ⟨group, tx, rfl, -, writes⟩ := quiet
  exact bufferedCommit_writes writes env.rows env.id
    (by simp [bufferedCommitEntityId, groupEntityId])

theorem announceable_of_unbuffered (keyed : env.transaction.WellKeyed b.rt)
    (alone : env.seat.buffered = none) (unlisted : env.listed = [])
    (foreign : ∀ message, b.tlsDeserialize bytes = some message → IsEmpty (OwnEcho b env message)) :
    Announceable b env (.handle (.decryptMessage bytes)) := by
  intro message decodes
  refine ⟨?_, fun merged applied => still_of_unlisted ?_⟩
  · intro env' message' reached
    cases reached with
    | self => exact foreign message decodes
    | buffered quiet waiting =>
      rw [quiet.buffered, alone] at waiting
      cases waiting
  · have same := applied.listed_perm keyed
    rw [unlisted] at same
    exact same.eq_nil

/-! ### Examples -/

namespace Sample

theorem epoch_of_processPublic {group : Group} {message : PublicMessageIn}
    {commit : StagedCommit Unit}
    (staged : processPublic group message = .ok (.stagedCommitMessage commit)) :
    commit.epoch = group.epoch + 1 := by
  unfold processPublic at staged
  split at staged
  next => cases staged
  next =>
    split at staged
    next => cases staged
    next => split at staged <;> cases staged
    next =>
      split at staged
      next => cases staged
      next =>
        split at staged
        next => cases staged
        next => cases staged; rfl

theorem not_staged_of_processPrivate {group : Group} {message : PrivateMessageIn}
    {commit : StagedCommit Unit} :
    processPrivate group message ≠ .ok (.stagedCommitMessage commit) := by
  intro staged
  unfold processPrivate at staged
  split at staged
  next => cases staged
  next => split at staged <;> cases staged

theorem announcingLaws (transport : Except Nat Unit) : AnnouncingLaws (backend transport) where
  committing := committingLaws transport
  activity := activityLaws transport
  stagedEpoch := by
    intro group message processed after commit called content
    have result := congrArg Prod.fst called
    cases message with
    | publicMessage message =>
      cases taken : processPublic group message with
      | error e => simp [backend, processMessage, taken, Except.map] at result
      | ok staged =>
        simp only [backend, processMessage, taken, Except.map] at result
        cases result
        cases content
        exact epoch_of_processPublic taken
    | privateMessage message =>
      cases taken : processPrivate group message with
      | error e => simp [backend, processMessage, taken, Except.map] at result
      | ok staged =>
        simp only [backend, processMessage, taken, Except.map] at result
        cases result
        cases content
        exact absurd taken not_staged_of_processPrivate
  processed := fun _ _ none => none
  stored := fun _ _ none => none
  staged := fun _ _ _ => rfl

/-- The handle while its own commit is on its way. -/
def committing : Env (backend (.ok ())) :=
  { handle (.ok ()) with
    group := (createCommit 0 (handle (.ok ())).group .commitToPendingProposals).2 }

/-- A pending external commit to the group in the epoch. -/
def joiningAt (epoch : Nat) : Group :=
  let group := newGroup [42] 1 epoch
  { group with pendingCommit := some (stagedCommit 0 group .commitToPendingProposals) }

/-- The handle to a stored conversation in epoch 0. -/
def created : Env (backend (.ok ())) :=
  { handle (.ok ()) with
    group := newGroup [42] 1 0
    rows := [.persistedMlsGroup [42] (newGroup [42] 1 0) none] }

def transactionSteps : List (TransactionStep (backend (.ok ()))) :=
  [.handle (.decryptMessage [3, 5]), .handle (.commit .updateKeyMaterial),
    .rejoin (joiningAt 6) [], .elsewhere ⟨.new, .empty, [([43], 9)], [], [], 4⟩, .wipe]

end Sample

end CoreCrypto.Conversation
