import CoreCrypto.Conversation.Joining

/-!
# Buffered rows belong to live groups

The runs of a client over all operations on its conversations.  The buffers get out of order where
the group moves on or goes away and nobody looks at them: by an own commit, a wipe, a received
commit or a rejoin.
-/

namespace CoreCrypto.Conversation

open Keystore Library

variable {b : Backend} {α : Type} {env : Env b} {message : MlsMessageIn}

/-- Runs an operation of a handle to the conversation. -/
def onConversation (b : Backend) (context : String) (id : ConversationId) (op : Op b α) :
    ScopeOp b α := do
  let address ← conversation b id
  withHandle context address op

inductive ConversationStep where
  | message (id : ConversationId) (payload : Bytes)
  | commit (id : ConversationId) (call : CommittingCall)
  | wipe (id : ConversationId)
  | newConversation (id : ConversationId) (credentialRef : Bytes)
      (configuration : ConversationConfiguration)
  | processWelcomeMessage (welcome : Bytes) (cipherSuite : Nat)
  | joinByExternalCommit (groupInfo : Bytes) (cipherSuite : Nat) (credentialRef : Bytes)
  | finish
  | abort

/-- The client after a step, whether it has succeeded or not. -/
def ConversationStep.perform (b : Backend) (scope : Scope b) : ConversationStep → Scope b
  | .message id payload => finalState (incomingMessage b id payload) scope
  | .commit id call => finalState (onConversation b "committing" id (call.perform b)) scope
  | .wipe id => finalState (onConversation b "wiping" id (Conversation.wipe b)) scope
  | .newConversation id credentialRef configuration =>
    finalState (Conversation.newConversation b id credentialRef configuration) scope
  | .processWelcomeMessage welcome cipherSuite =>
    finalState (Conversation.processWelcomeMessage b welcome cipherSuite) scope
  | .joinByExternalCommit groupInfo cipherSuite credentialRef =>
    finalState (Conversation.joinByExternalCommit b groupInfo cipherSuite credentialRef) scope
  | .finish => scope.finish
  | .abort => scope.abort

/-- The step leaves the buffers in order: a message does, an own commit and a wipe find nothing
buffered, and a join can replay what is buffered. -/
def TidyStep (b : Backend) (scope : Scope b) : ConversationStep → Prop
  | .message id payload =>
    match conversation b id scope with
    | .ok address scope' => ∀ env, scope'.focus address = some env →
        ∀ message, b.tlsDeserialize payload = some message → Orderly b env message
    | .error (.pendingConversation pending) scope' => JoinTidy b scope' pending
    | .error _ _ => True
  | .commit id _ => scope.NoBuffers id
  | .wipe id => scope.NoBuffers id
  | .joinByExternalCommit groupInfo cipherSuite credentialRef => ∀ pending scope',
      sendJoinCommit b groupInfo cipherSuite credentialRef scope = .ok pending scope' →
        JoinTidy b scope' pending
  | _ => True

/-- A buffered commit is one of the epoch of a joined group, a buffered message is one of the next
epoch or for a pending conversation, and the cached groups are the stored ones. -/
structure BuffersBelong (b : Backend) (scope : Scope b) : Prop where
  rows : Belongs b scope.row scope.PendingRow
  cached : ∀ id address, scope.conversationCache.peek id = some address → Seated scope id address

/-- A conversation that is wiped, by its handle or by a message that removes the client, leaves
nothing buffered. -/
def WipesBuffers (b : Backend) (scope : Scope b) : ConversationStep → Prop
  | .wipe id => (ConversationStep.perform b scope (.wipe id)).NoBuffers id
  | .message id payload =>
    match conversation b id scope with
    | .ok address scope' => ∀ decrypted after,
        withHandle "decrypting message" address (decryptMessage b payload) scope' =
          .ok decrypted after → decrypted.isActive = false → after.NoBuffers id
    | .error _ _ => True
  | _ => True

variable {scope : Scope b}

theorem Tidy.buffersBelong (tidy : Tidy scope) : BuffersBelong b scope :=
  ⟨tidy.current, tidy.live.cached⟩

theorem tidy_message (laws : RemovalLaws b) (tidy : Tidy scope)
    {id : ConversationId} {payload : Bytes} (tidyStep : TidyStep b scope (.message id payload)) :
    Tidy (ConversationStep.perform b scope (.message id payload)) ∧
      WipesBuffers b scope (.message id payload) := by
  have finds := findsTidy_conversation tidy id
  simp only [TidyStep] at tidyStep
  simp only [WipesBuffers, ConversationStep.perform, finalState, incomingMessage, bind, EStateM.bind,
    attempt]
  cases called : conversation b id scope with
  | ok address scope' =>
    rw [called] at finds tidyStep
    obtain ⟨found, -, -, env, focused⟩ := finds
    exact tidy_decryptMessage laws found focused (tidyStep env focused.focus)
  | error e scope' =>
    rw [called] at finds tidyStep
    obtain ⟨rfl, uncached, row⟩ := finds
    rcases missing_cases tidy.live uncached row called with
      rfl | ⟨state, customConfiguration, group, rfl, isPending, deserialises, groupId, active⟩
    · exact ⟨tidy, trivial⟩
    · exact ⟨tidy_tryProcessOwnJoinCommit laws tidy deserialises groupId active tidyStep row
        isPending, trivial⟩

/-- What holds after the operation of any handle holds after that of the conversation's. -/
theorem onConversation_ends (tidy : Tidy scope) (id : ConversationId)
    (context : String) (op : Op b α) (post : Scope b → Prop) (missing : post scope)
    (found : ∀ scope' address env, Tidy scope' → scope'.rows = scope.rows →
      scope'.transaction = scope.transaction → Focused scope' id address env →
      post (finalState (withHandle context address op) scope')) :
    post (finalState (onConversation b context id op) scope) := by
  have finds := findsTidy_conversation tidy id
  simp only [finalState, onConversation, bind, EStateM.bind]
  cases called : conversation b id scope with
  | ok address scope' =>
    rw [called] at finds
    obtain ⟨tidy', sameRows, sameTransaction, env, focused⟩ := finds
    exact found scope' address env tidy' sameRows sameTransaction focused
  | error e scope' =>
    rw [called] at finds
    rw [finds.1]
    exact missing

theorem Scope.NoBuffers.of_same {scope' : Scope b} {id : ConversationId}
    (noBuffers : scope.NoBuffers id) (sameRows : scope'.rows = scope.rows)
    (sameTransaction : scope'.transaction = scope.transaction) : scope'.NoBuffers id := by
  constructor
  · rw [Scope.row, sameRows, sameTransaction]
    exact noBuffers.commit
  · intro message row
    rw [Scope.PendingRow, sameRows, sameTransaction] at row
    exact noBuffers.messages message row

theorem tidy_perform (laws : RemovalLaws b) (committing : CommittingLaws b)
    (creation : CreationLaws b) {step : ConversationStep} (tidy : Tidy scope)
    (tidyStep : TidyStep b scope step) :
    Tidy (ConversationStep.perform b scope step) ∧ WipesBuffers b scope step := by
  cases step with
  | message id payload => exact tidy_message laws tidy tidyStep
  | commit id call =>
    refine ⟨onConversation_ends tidy id _ _ Tidy tidy ?_, trivial⟩
    intro scope' address env tidy' sameRows sameTransaction focused
    exact tidy_commit laws committing tidy' focused (tidyStep.of_same sameRows sameTransaction) call _
  | wipe id =>
    refine onConversation_ends tidy id "wiping" (wipe b) (fun scope => Tidy scope ∧ scope.NoBuffers id)
      ⟨tidy, tidyStep⟩ ?_
    intro scope' address env tidy' sameRows sameTransaction focused
    exact tidy_wipe laws tidy' focused (tidyStep.of_same sameRows sameTransaction) _
  | newConversation id credentialRef configuration =>
    exact ⟨triple_finalState (tidy_newConversation laws creation id credentialRef configuration)
      tidy, trivial⟩
  | processWelcomeMessage welcome cipherSuite =>
    exact ⟨triple_finalState (tidy_processWelcomeMessage laws creation welcome cipherSuite)
      tidy, trivial⟩
  | joinByExternalCommit groupInfo cipherSuite credentialRef =>
    exact ⟨tidy_joinByExternalCommit laws creation tidy tidyStep,
      trivial⟩
  | finish => exact ⟨tidy_finish tidy, trivial⟩
  | abort => exact ⟨tidy_abort tidy, trivial⟩

theorem Applied.regrouped {merged : Env b}
    (applied : Applied b env message merged) : Regrouped env merged := by
  induction applied with
  | delivered merges => exact merges.regrouped
  | buffered quiet _ _ _ ih => exact quiet.regrouped.trans ih

/-- With nothing buffered, a message leaves the buffers in order unless it is an own commit. -/
theorem orderly_of_unbuffered (keyed : env.transaction.WellKeyed b.rt) (unbuffered : env.Unbuffered)
    (unlisted : env.listed = []) (foreign : IsEmpty (OwnEcho b env message)) : Orderly b env message := by
  have nothing : ∀ merged, Applied b env message merged → merged.listed = [] := by
    intro merged applied
    have same := applied.listed_perm keyed
    rw [unlisted] at same
    exact same.eq_nil
  refine ⟨?_, ?_, ?_, fun _ _ _ _ => unbuffered.commit⟩
  · intro merged applied
    rw [Env.Calm, nothing merged applied]
    exact calm_nil _ _
  · intro merged applied
    have drained := (applied.regrouped.unbuffered keyed unbuffered).messages
    refine ⟨?_, fun _ => drained, fun message stored foreign =>
      drained message ⟨foreign, .inr stored⟩⟩
    rw [nothing merged applied]
    exact ⟨[], rfl, [], merged.seat, rfl⟩
  · intro env' message' reached echo
    cases reached with
    | self => exact (foreign.false echo).elim
    | buffered quiet waiting =>
      -- no commit is waiting
      have none := quiet.regrouped.commitRow.trans unbuffered.commit
      simp only [Env.seat, bufferedCommit] at waiting
      rw [Env.commitRow] at none
      rw [none] at waiting
      cases waiting

/-! ### On the sample backend -/

/-- The buffered commit is not one of the epoch of a joined group. -/
def strayCommit (b : Backend) (scope : Scope b) (id : ConversationId) : Bool :=
  match scope.row (bufferedCommitEntityId id), scope.row (groupEntityId id) with
  | some (.storedBufferedCommit _ commit), some (.persistedMlsGroup _ state _) =>
    match b.tlsDeserialize commit, b.deser state with
    | some message, .ok group =>
      message.protocolMessage?.all (fun content => content.epoch ≠ group.epoch)
    | _, _ => true
  | some _, _ => true
  | none, _ => false

theorem not_buffersBelong {id : ConversationId}
    (stray : strayCommit b scope id = true) : ¬ BuffersBelong b scope := by
  intro belong
  cases row : scope.row (bufferedCommitEntityId id) with
  | none => simp [strayCommit, row] at stray
  | some entity =>
    obtain ⟨commit, standing, rfl, ⟨stored, found, holds⟩, message, decodes, content, isContent,
      claims⟩ := belong.rows.commit id entity row
    obtain ⟨state, parentId, group, rfl, deserialises, -, rfl⟩ := holds
    simp only [strayCommit, row, found, decodes, deserialises, isContent, Option.all_some,
      decide_eq_true_eq] at stray
    exact stray claims

namespace Sample

theorem creationLaws (transport : Except Nat Unit) : CreationLaws (backend transport) where
  created := by
    intro call signer configuration id group created
    cases created
    exact ⟨rfl, rfl⟩
  welcomed := by
    intro call configuration welcome group welcomed
    cases welcomed
    rfl
  joining := by
    intro call signer groupInfo configuration group commit info joins
    cases joins
    rfl

theorem tidy_client : Tidy client := by
  have stored : Belongs (backend (.ok ())) (storedRow (backend (.ok ())).rt client.rows)
      (fun id message => message.foreignId? = some id ∧ message ∈ client.rows) := by
    refine ⟨?_, ?_⟩
    · intro id entity row
      simp only [storedRow, client, List.find?_singleton, decide_eq_true_eq] at row
      split at row
      next same => cases same
      next => cases row
    · rintro id message ⟨foreign, member⟩
      simp only [client, List.mem_singleton] at member
      subst member
      cases foreign
  exact ⟨live_client, stored, belongs_new rfl stored⟩

theorem noBuffers_client (id : ConversationId) : client.NoBuffers id := by
  constructor
  · rw [Scope.row, show client.transaction = .new from rfl, KeystoreTransaction.read_new]
    rfl
  · intro message row
    rw [Scope.PendingRow, show client.transaction = .new from rfl,
      KeystoreTransaction.pendingRow_new] at row
    obtain ⟨foreign, member⟩ := row
    simp only [client, List.mem_singleton] at member
    subst member
    cases foreign

/-- The conversation is there, nothing is listed for it, and the own leaf is the first. -/
def ready (scope : Scope (backend (.ok ()))) (id : ConversationId) : Bool :=
  match conversation (backend (.ok ())) id scope with
  | .ok address scope' =>
    (scope'.focus address).all fun env => env.listed.isEmpty && env.group.ownLeafIndex = 0
  | .error _ _ => false

theorem tidyStep_commit : TidyStep (backend (.ok ())) client (.message [42] [3, 5]) := by
  have isReady : ready client [42] = true := by decide +kernel
  have finds := findsTidy_conversation tidy_client [42]
  simp only [ready] at isReady
  simp only [TidyStep]
  cases called : conversation (backend (.ok ())) [42] client with
  | error e scope' => simp [called] at isReady
  | ok address scope' =>
    rw [called] at finds isReady
    obtain ⟨-, sameRows, sameTransaction, env, focused⟩ := finds
    intro env' isFocused
    cases focused.focus.symm.trans isFocused
    simp only [focused.focus, Option.all_some, Bool.and_eq_true, List.isEmpty_iff,
      decide_eq_true_eq] at isReady
    have unbuffered :=
      ((noBuffers_client [42]).of_same sameRows sameTransaction).unbuffered focused
    intro message decodes
    cases decodes
    refine orderly_of_unbuffered focused.attached.within.keyed unbuffered isReady.1
      (foreign_of_sender ?_)
    rw [isReady.2]
    decide

end Sample

end CoreCrypto.Conversation
