import CoreCrypto.Conversation.Receive

/-!
# What receiving a message keeps

An invariant that is stable under changes of the group within its epoch, merged commits and writes
of other rows is kept by `decrypt_message_inner`, whatever the message and the outcome.
-/

namespace CoreCrypto.Conversation

open Keystore Library

variable {b : Backend} {α : Type} {result : Except Error (ProcessedMessage b.K)}
  {parsed : ParsedMessage}

/-- The invariant is kept by everything that receiving a message does to a handle. -/
structure Stable (b : Backend) (inv : Env b → Prop) : Prop where
  changed : ∀ env group, inv env → Kept env.group group → inv { env with group }
  written : ∀ env group, inv env → Kept env.group group → inv (env.written group)
  merged : ∀ env group, inv env → NextEpoch env.group group → inv (env.written group)
  keyPairs : ∀ env keys, inv env →
    inv { env with transaction := withoutKeyPairs env.transaction keys }
  uncommitted : ∀ env, inv env → inv env.uncommitted
  emptied : ∀ env, inv env → inv { env with
    transaction := env.transaction.removePendingMessagesByConversationId env.id }
  queued : ∀ env epoch, inv env → inv (env.queued epoch)

/-- The operation keeps the invariant, whether it succeeds or not. -/
abbrev Keeps (inv : Env b → Prop) (op : Op b α) : Prop :=
  Triple inv op (fun _ => inv) (fun _ => inv)

section Rules

variable {inv : Env b → Prop}

theorem keeps_pure (a : α) : Keeps inv (pure a : Op b α) := triple_pure (fun _ holds => holds)

theorem keeps_throw (e : Error) : Keeps inv (throw e : Op b α) :=
  triple_throw (fun _ holds => holds)

theorem keeps_bind {β : Type} {op : Op b α} {f : α → Op b β} (first : Keeps inv op)
    (rest : ∀ a, Keeps inv (f a)) : Keeps inv (op >>= f) :=
  triple_bind (fun _ => inv) first rest

theorem keeps_get_bind {f : Env b → Op b α} (rest : ∀ env, Keeps inv (f env)) :
    Keeps inv (get >>= f) :=
  fun env holds => rest env env holds

theorem keeps_liftExcept {ε : Type} (wrap : ε → Error) (result : Except ε α) :
    Keeps inv (liftExcept b wrap result) := by
  cases result with
  | ok a => exact keeps_pure a
  | error e => exact keeps_throw (wrap e)

theorem keeps_attempt {op : Op b α} (kept : Keeps inv op) :
    Keeps inv (attempt op : Op b (Except Error α)) := by
  intro env holds
  have after := kept env holds
  simp only [attempt]
  cases called : op env with
  | ok a env' =>
    rw [called] at after
    exact after
  | error e env' =>
    rw [called] at after
    exact after

theorem keeps_mutateGroup (serialises : Serialises b) {f : b.Group → Except Error α × b.Group}
    (succeeds : ∀ env a after, inv env → f env.group = (.ok a, after) → inv (env.written after))
    (fails : ∀ env e after, inv env → f env.group = (.error e, after) →
      inv { env with group := after }) : Keeps inv (mutateGroup b (onGroup b f)) := by
  intro env holds
  rcases called : f env.group with ⟨result, after⟩
  cases result with
  | ok a =>
    rw [mutateGroup_ok serialises f env a after called]
    exact succeeds env a after holds called
  | error e =>
    rw [mutateGroup_error f env e after called]
    exact fails env e after holds called

theorem keeps_storeProposal (serialises : Serialises b) (written : ∀ env proposal, inv env →
      inv (env.written (b.storePendingProposal env.group proposal))) (proposal : QueuedProposal) :
    Keeps inv (storeProposal b proposal) := by
  apply keeps_mutateGroup serialises
  · intro env _ after holds called
    cases called
    exact written env proposal holds
  · intro env _ after _ called
    cases called

theorem keeps_commitAccepted (serialises : Serialises b)
    (succeeds : ∀ env merged, inv env → b.mergePendingCommit env.group = (.ok (), merged) →
      inv (env.commitMerged merged))
    (fails : ∀ env code group, inv env → b.mergePendingCommit env.group = (.error code, group) →
      inv { env with group }) : Keeps inv (commitAccepted b) := by
  intro env holds
  rcases merges : b.mergePendingCommit env.group with ⟨result, merged⟩
  cases result with
  | ok _ =>
    rw [commitAccepted_ok serialises merges]
    exact succeeds env merged holds merges
  | error code =>
    rw [commitAccepted_error env code merged merges]
    exact fails env code merged holds merges

theorem keeps_mergeStagedCommit (serialises : Serialises b) {commit : StagedCommit b.K}
    (succeeds : ∀ env merged, inv env → b.mergeStagedCommit env.group commit = (.ok (), merged) →
      inv (env.written merged)) (fails : ∀ env code group, inv env →
      b.mergeStagedCommit env.group commit = (.error code, group) → inv { env with group }) :
    Keeps inv (mergeStagedCommit b commit) := by
  apply keeps_mutateGroup serialises
  · intro env a after holds called
    rcases merges : b.mergeStagedCommit env.group commit with ⟨result, later⟩
    simp only [mergeStagedOnGroup, merges] at called
    cases result with
    | ok _ => cases called; exact succeeds env _ holds merges
    | error code => cases called
  · intro env e after holds called
    rcases merges : b.mergeStagedCommit env.group commit with ⟨result, later⟩
    simp only [mergeStagedOnGroup, merges] at called
    cases result with
    | ok _ => cases called
    | error code => cases called; exact fails env code _ holds merges

theorem keeps_receiveMerged {commit : StagedCommit b.K}
    (merges : Keeps inv (mergeStagedCommit b commit))
    (queues : ∀ env epoch, inv env → inv (env.queued epoch))
    {restore : Op b (Option (List (BufferedDecryptedMessage b)))} (restores : Keeps inv restore)
    (policy : RecursionPolicy) (identity : b.Identity) :
    Keeps inv (receiveCommit restore policy identity commit) := by
  apply keeps_bind merges
  intro _
  apply keeps_get_bind
  intro _
  have finishes : ∀ answer : DecryptedMessage b, Keeps inv (do
      queueEpochChanged b (← get).id commit.epoch
      return answer) :=
    fun _ env holds => queues env (some commit.epoch) holds
  dsimp only
  split
  next => exact keeps_bind restores fun _ => finishes _
  next => exact keeps_bind (keeps_pure none) fun _ => finishes _

theorem keeps_receiveOwnCommit (accepts : Keeps inv (commitAccepted b))
    {restore : Op b (Option (List (BufferedDecryptedMessage b)))} (restores : Keeps inv restore)
    (policy : RecursionPolicy) (message : MlsMessageIn) :
    Keeps inv (receiveOwnCommit restore policy message) := by
  apply keeps_get_bind
  intro _
  apply keeps_bind (keeps_liftExcept _ _)
  intro confirmationTag
  apply keeps_bind
  · apply keeps_get_bind
    intro _
    apply keeps_bind (keeps_liftExcept _ _)
    intro _
    apply keeps_bind accepts
    intro _
    apply keeps_get_bind
    intro _
    exact keeps_liftExcept _ _
  · intro answer
    dsimp only
    split
    next => exact keeps_bind restores fun _ => keeps_pure _
    next => exact keeps_bind (keeps_pure none) fun _ => keeps_pure _

/-- The commit was staged when a message was processed, and the group has since been written
back. -/
def StagedIn (b : Backend) (group : b.Group) (commit : StagedCommit b.K) : Prop :=
  ∃ before message processed after, b.processMessage before message = (.ok processed, after) ∧
    processed.content = .stagedCommitMessage commit ∧ group = after.setPersisted

/-- Where nothing is replayed, a received commit is announced right after it was merged. -/
theorem keeps_receiveCommit (serialises : Serialises b)
    (announced : ∀ env commit merged, inv env → StagedIn b env.group commit →
      b.mergeStagedCommit env.group commit = (.ok (), merged) →
      inv ((env.written merged).queued (some commit.epoch)))
    (fails : ∀ env commit code group, inv env →
      b.mergeStagedCommit env.group commit = (.error code, group) → inv { env with group })
    (identity : b.Identity) (commit : StagedCommit b.K) :
    Triple (fun env => inv env ∧ StagedIn b env.group commit)
      (receiveCommit (pure none) .none identity commit) (fun _ => inv) (fun _ => inv) := by
  rintro env ⟨holds, staged⟩
  rcases merges : b.mergeStagedCommit env.group commit with ⟨result, merged⟩
  cases result with
  | ok _ =>
    have merging : mergeStagedCommit b commit env = .ok () (env.written merged) := by
      refine mutateGroup_ok serialises _ _ () merged ?_
      simp only [mergeStagedOnGroup, merges, Except.mapError]
    simp only [receiveCommit, bind, EStateM.bind, merging]
    exact announced env commit merged holds staged merges
  | error code =>
    have failing : mergeStagedCommit b commit env =
        .error (.openMls "merge staged commit" code) { env with group := merged } := by
      refine mutateGroup_error _ _ _ merged ?_
      simp only [mergeStagedOnGroup, merges, Except.mapError]
    simp only [receiveCommit, bind, EStateM.bind, failing]
    exact fails env commit code merged holds merges

end Rules

/-! ### One call -/

theorem processOnGroup_called {group after : b.Group}
    (processes : processOnGroup b parsed group = (result, after)) :
    ∃ verdict, b.processMessage group parsed.protocolMessage = (verdict, after) ∧
      ∀ processed, result = .ok processed → verdict = .ok processed := by
  unfold processOnGroup at processes
  rcases called : b.processMessage group parsed.protocolMessage with ⟨verdict, later⟩
  rw [called] at processes
  cases verdict with
  | error e =>
    cases processes
    exact ⟨_, rfl, fun _ impossible => by cases impossible⟩
  | ok processed =>
    simp only at processes
    split at processes
    next =>
      cases processes
      exact ⟨_, rfl, fun _ impossible => by cases impossible⟩
    next =>
      cases processes
      exact ⟨_, rfl, fun _ same => by cases same; rfl⟩

theorem kept_of_processOnGroup (laws : EpochLaws b) {group after : b.Group}
    (processes : processOnGroup b parsed group = (result, after)) : Kept group after := by
  have kept := processOnGroup_kept laws parsed group
  rwa [processes] at kept

/-- The invariant is kept by the parts of one call of `decrypt_message_inner`. -/
structure Receiving (b : Backend) (inv : Env b → Prop)
    (restore : Op b (Option (List (BufferedDecryptedMessage b)))) (policy : RecursionPolicy) :
    Prop where
  processed : ∀ env parsed processed after, inv env →
    processOnGroup b parsed env.group = (.ok processed, after) → inv (env.written after)
  refused : ∀ env message parsed e after, inv env → parseMessage b env.group message = .ok parsed →
    processOnGroup b parsed env.group = (.error e, after) → inv { env with group := after }
  stores : ∀ proposal, Keeps inv (storeProposal b proposal)
  clears : Keeps inv (clearBufferedCommit b)
  commits : ∀ identity commit, Triple (fun env => inv env ∧ StagedIn b env.group commit)
    (receiveCommit restore policy identity commit) (fun _ => inv) (fun _ => inv)
  ownCommits : ∀ message, Keeps inv (receiveOwnCommit restore policy message)

section Receiving

variable {inv : Env b → Prop} {restore : Op b (Option (List (BufferedDecryptedMessage b)))}
  {policy : RecursionPolicy} {inner : MlsMessageIn → Op b (DecryptedMessage b)}

theorem keeps_receiveProposal (receiving : Receiving b inv restore policy)
    {retry : Bytes → Op b (DecryptedMessage b)} (retries : ∀ commit, Keeps inv (retry commit))
    (identity : b.Identity) (proposal : QueuedProposal) :
    Keeps inv (receiveProposal retry identity proposal) := by
  have answers : Keeps inv (do return proposalAnswer b identity (← get).group) :=
    keeps_get_bind fun _ => keeps_pure _
  apply keeps_bind (receiving.stores proposal)
  intro _
  apply keeps_bind (show Keeps inv (retrieveBufferedCommit b) from fun _ holds => holds)
  intro waiting
  cases waiting with
  | none => exact answers
  | some commit =>
    apply keeps_bind (keeps_attempt (retries commit))
    intro result
    rcases result with e | decrypted
    · -- the proposal gets its own answer or the error is passed on: nothing is done
      cases e <;> exact fun _ holds => holds
    · apply keeps_bind receiving.clears
      intro _
      exact keeps_pure _

theorem keeps_receiveContent (receiving : Receiving b inv restore policy)
    {retry : Bytes → Op b (DecryptedMessage b)} (retries : ∀ commit, Keeps inv (retry commit))
    (processed : ProcessedMessage b.K) :
    Triple (fun env => inv env ∧
        ∀ commit, processed.content = .stagedCommitMessage commit → StagedIn b env.group commit)
      (receiveContent retry restore policy processed) (fun _ => inv) (fun _ => inv) := by
  rintro env ⟨holds, staged⟩
  simp only [receiveContent, get, getThe, MonadStateOf.get, bind, EStateM.bind, EStateM.get]
  cases b.extractIdentity processed.credential env.configuration.cipherSuite with
  | error code => exact holds
  | ok identity =>
    simp only [liftExcept, pure, EStateM.pure]
    cases content : processed.content with
    | applicationMessage content => exact holds
    | proposalMessage proposal =>
      exact keeps_receiveProposal receiving retries identity proposal env holds
    | stagedCommitMessage commit =>
      exact receiving.commits identity commit env ⟨holds, staged commit content⟩
    | externalJoinProposalMessage proposal =>
      exact keeps_bind (receiving.stores proposal)
        (fun _ => keeps_get_bind fun _ => keeps_pure _) env holds

theorem keeps_receive (receiving : Receiving b inv restore policy) (serialises : Serialises b)
    {retry : Bytes → Op b (DecryptedMessage b)} (retries : ∀ commit, Keeps inv (retry commit))
    (message : MlsMessageIn) : Keeps inv (receive retry restore policy message) := by
  intro env holds
  cases parses : parseMessage b env.group message with
  | error e =>
    rw [receive_unparsed _ _ _ parses]
    exact holds
  | ok parsed =>
    rcases processes : processOnGroup b parsed env.group with ⟨result, after⟩
    cases result with
    | error e =>
      have later := receiving.refused env message parsed e after holds parses processes
      rw [receive_refused _ _ _ parses processes]
      cases e with
      | processing source => cases source <;> first
          | exact receiving.ownCommits message _ later
          | exact later
      | _ => exact later
    | ok processed =>
      rw [receive_processed serialises _ _ _ parses processes]
      refine keeps_receiveContent receiving retries processed _
        ⟨receiving.processed env parsed processed after holds processes, ?_⟩
      intro commit content
      obtain ⟨verdict, called, verdictOk⟩ := processOnGroup_called processes
      rw [verdictOk processed rfl] at called
      exact ⟨env.group, parsed.protocolMessage, processed, after, called, content, rfl⟩

theorem keeps_tryProcessBufferedCommit (kept : ∀ message, Keeps inv (inner message))
    (commit : Bytes) : Keeps inv (tryProcessBufferedCommit inner commit) := by
  unfold tryProcessBufferedCommit
  cases b.tlsDeserialize commit with
  | none => exact keeps_throw _
  | some message => exact kept message

/-- **Invariant rule for replayed messages.** -/
theorem keeps_replayed (receiving : Receiving b inv (pure none) .none) (serialises : Serialises b)
    (depth : Nat) (message : MlsMessageIn) : Keeps inv (decryptWithoutRestore b depth message) := by
  induction depth generalizing message with
  | zero => exact keeps_throw _
  | succ depth ih =>
    exact keeps_receive receiving serialises (keeps_tryProcessBufferedCommit ih) message

/-- **Invariant rule for messages after which the buffered ones are replayed.** -/
theorem keeps_delivered (receiving : Receiving b inv (restoring b) .asNecessary)
    (serialises : Serialises b) (depth : Nat) (message : MlsMessageIn) :
    Keeps inv (decryptAsNecessary b depth message) := by
  induction depth generalizing message with
  | zero => exact keeps_throw _
  | succ depth ih =>
    exact keeps_receive receiving serialises (keeps_tryProcessBufferedCommit ih) message

theorem keeps_replay (kept : ∀ message, Keeps inv (inner message)) (messages : List MlsMessageIn) :
    Keeps inv (replay inner messages) := by
  induction messages with
  | nil => exact keeps_pure _
  | cons message rest ih =>
    apply keeps_bind (kept message)
    intro decrypted
    apply keeps_bind ih
    intro decryptedMessages
    exact keeps_pure _

theorem keeps_restorePendingMessages (emptied : Keeps inv (clearPendingMessages b))
    (kept : ∀ message, Keeps inv (inner message)) (policy : MessageRestorePolicy) :
    Keeps inv (restorePendingMessages inner policy) := by
  cases policy with
  | clearOnly => exact fun env holds => emptied env holds
  | decryptAndClear =>
    intro env holds
    rw [restorePendingMessages_eq]
    cases env.listed.mapM (decodePending b) with
    | error e => exact holds
    | ok decoded =>
      have after := keeps_replay kept (replayOrder decoded) env holds
      simp only
      cases replayed : replay inner (replayOrder decoded) env with
      | error e env' => rwa [replayed] at after
      | ok results env' => rwa [replayed] at after

theorem keeps_restoring (receiving : Receiving b inv (pure none) .none) (serialises : Serialises b)
    (emptied : Keeps inv (clearPendingMessages b)) : Keeps inv (restoring b) := by
  apply keeps_bind (keeps_restorePendingMessages emptied
    (keeps_replayed receiving serialises recursionDepth) .decryptAndClear)
  intro answer
  cases answer with
  | none => exact keeps_pure none
  | some decryptedMessages =>
    apply keeps_bind emptied
    intro _
    exact keeps_pure _

end Receiving

/-! ### Stable invariants -/

section Stable

variable {inv : Env b → Prop}

theorem stable_mergeStagedCommit (stable : Stable b inv) (serialises : Serialises b)
    (laws : EpochLaws b) (commit : StagedCommit b.K) : Keeps inv (mergeStagedCommit b commit) :=
  keeps_mergeStagedCommit serialises
    (fun env merged holds merges => stable.merged env merged holds
      (laws.stagedMerged _ _ _ merges))
    (fun env _ merged holds fails => stable.changed env merged holds
      (laws.stagedFailed _ _ _ _ fails))

theorem stable_commitAccepted (stable : Stable b inv) (serialises : Serialises b)
    (laws : EpochLaws b) : Keeps inv (commitAccepted b) :=
  keeps_commitAccepted serialises
    (fun env merged holds merges => stable.merged _ merged (stable.keyPairs env _ holds)
      (laws.pendingMerged _ _ merges))
    (fun env _ merged holds fails => stable.changed env merged holds
      (laws.pendingFailed _ _ _ fails))

theorem stable_receiving (stable : Stable b inv) (serialises : Serialises b) (laws : EpochLaws b)
    {restore : Op b (Option (List (BufferedDecryptedMessage b)))} (restores : Keeps inv restore)
    (policy : RecursionPolicy) : Receiving b inv restore policy where
  processed := fun env _ _ after holds processes =>
    stable.written env after holds (kept_of_processOnGroup laws processes)
  refused := fun env _ _ _ after holds _ processes =>
    stable.changed env after holds (kept_of_processOnGroup laws processes)
  stores := keeps_storeProposal serialises
    (fun env proposal holds => stable.written env _ holds (laws.stored env.group proposal))
  clears := stable.uncommitted
  commits := fun identity commit env holds =>
    keeps_receiveMerged (stable_mergeStagedCommit stable serialises laws commit) stable.queued
      restores policy identity env holds.1
  ownCommits := keeps_receiveOwnCommit (stable_commitAccepted stable serialises laws) restores
    policy

theorem keeps_decryptWithoutRestore (stable : Stable b inv) (serialises : Serialises b)
    (laws : EpochLaws b) (depth : Nat) (message : MlsMessageIn) :
    Keeps inv (decryptWithoutRestore b depth message) :=
  keeps_replayed (stable_receiving stable serialises laws (keeps_pure none) .none) serialises depth
    message

theorem stable_restoring (stable : Stable b inv) (serialises : Serialises b) (laws : EpochLaws b) :
    Keeps inv (restoring b) :=
  keeps_restoring (stable_receiving stable serialises laws (keeps_pure none) .none) serialises
    stable.emptied

/-- **Invariant rule for `decrypt_message_inner`.** -/
theorem keeps_decryptMessageInner (stable : Stable b inv) (serialises : Serialises b)
    (laws : EpochLaws b) (message : MlsMessageIn) (policy : RecursionPolicy) :
    Keeps inv (decryptMessageInner b message policy) := by
  cases policy with
  | asNecessary =>
    exact keeps_delivered (stable_receiving stable serialises laws
      (stable_restoring stable serialises laws) .asNecessary) serialises recursionDepth message
  | none => exact keeps_decryptWithoutRestore stable serialises laws recursionDepth message

end Stable

end CoreCrypto.Conversation
