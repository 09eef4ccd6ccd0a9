import CoreCrypto.Conversation.Live
import CoreCrypto.Conversation.SampleLaws

/-!
# Removed clients lose the conversation

The conversations of a client over the messages that come in: as long as no replayed message
touches the membership, every stored and every cached group is one the client is a member of,
so `conversation` hands out no other and agrees with `conversation_exists`.
-/

namespace CoreCrypto.Conversation

open Keystore Library

variable {b : Backend} {scope : Scope b}

/-! ### Runs -/

/-- `decrypt_message` of the client: a message goes to the conversation, or to the pending one. -/
def incomingMessage (b : Backend) (id : ConversationId) (payload : Bytes) :
    ScopeOp b (DecryptedMessage b) := do
  match ← attempt (conversation b id) with
  | .ok address => withHandle "decrypting message" address (decryptMessage b payload)
  | .error (.pendingConversation pending) => pending.tryProcessOwnJoinCommit payload
  | .error e => throw e

inductive ClientStep where
  | message (id : ConversationId) (payload : Bytes)
  | finish
  | abort
  deriving DecidableEq, Repr

def ClientStep.perform (b : Backend) (scope : Scope b) : ClientStep → Scope b
  | .message id payload => finalState (incomingMessage b id payload) scope
  | .finish => scope.finish
  | .abort => scope.abort

/-- The messages replayed in this step leave the membership as it is: those after a commit that is
merged, and those after a join. -/
def CalmStep (b : Backend) (scope : Scope b) : ClientStep → Prop
  | .message id payload =>
    match conversation b id scope with
    | .ok address scope' => ∀ env message merged, scope'.focus address = some env →
        b.tlsDeserialize payload = some message → Applied b env message merged → merged.Calm
    | .error (.pendingConversation pending) scope' =>
        ∀ joinable : Joinable b pending, (joinable.handle scope').Calm
    | .error _ _ => True
  | _ => True

/-- A message that is answered says whether the client is a member, and leaves the conversation
cached and stored if and only if it is. -/
def AnswersMembership (b : Backend) (scope : Scope b) : ClientStep → Prop
  | .message id payload =>
    match conversation b id scope with
    | .ok address scope' => ∀ decrypted after,
        withHandle "decrypting message" address (decryptMessage b payload) scope' =
          .ok decrypted after → SettledAs after id address decrypted
    | .error (.pendingConversation pending) scope' => ∀ decrypted after,
        pending.tryProcessOwnJoinCommit payload scope' = .ok decrypted after →
          SettledAs after id scope'.heap.length decrypted
    | .error _ _ => True
  | _ => True

/-- `conversation` hands out only groups the client is a member of, and succeeds if and only if
`conversation_exists` says so. -/
def HandsOutMembers (b : Backend) (scope : Scope b) : Prop :=
  ∀ id, (∀ address scope', conversation b id scope = .ok address scope' →
      ∃ conversation, scope'.heap[address]? = some conversation ∧
        conversation.group.isActive = true) ∧
    (outcome (conversationExists b id) scope = .ok true ↔
      ∃ address scope', conversation b id scope = .ok address scope')

theorem handsOutMembers_of_live (live : Live scope) : HandsOutMembers b scope := by
  intro id
  have finds := finds_conversation live id
  constructor
  · intro address scope' found
    rw [found] at finds
    obtain ⟨conversation, inHeap, member, -⟩ := finds.2.1.live
    exact ⟨conversation, inHeap, member.isActive⟩
  · have exists_eq : outcome (conversationExists b id) scope =
        .ok ((scope.conversationCache.peek id).isSome ||
          (scope.row (groupEntityId id)).isSome) := rfl
    rw [exists_eq, Except.ok.injEq]
    cases called : conversation b id scope with
    | ok address scope' =>
      refine ⟨fun _ => ⟨address, scope', rfl⟩, fun _ => ?_⟩
      by_contra missing
      simp only [Bool.or_eq_true, not_or, Option.not_isSome_iff_eq_none] at missing
      rw [conversation_missing missing.1 missing.2] at called
      cases called
    | error e scope' =>
      rw [called] at finds
      obtain ⟨-, uncached, row⟩ := finds
      simp [uncached, row]

/-- The rows that were read through the transaction are the stored ones once it is committed. -/
theorem storedRow_finished (keyed : scope.transaction.WellKeyed b.rt)
    {written : List (Entity b.State)}
    (executed : scope.transaction.execute b.rt scope.rows = .ok written) (entityId : EntityId)
    (typ : entityId.typ = .persistedMlsGroup ∨ entityId.typ = .storedBufferedCommit) :
    storedRow b.rt written entityId = scope.row entityId := by
  apply KeystoreTransaction.storedRow_execute b.rt scope.transaction scope.rows written entityId
    keyed _ _ executed
  · rcases typ with typ | typ <;> simp [DeletedByKey, typ, EntityType.saveMode]
  · rcases typ with typ | typ <;> simp [typ, EntityType.saveMode]

/-- A pending group that was stored before stays the one that is found. -/
theorem pendingRow_finished (keyed : scope.transaction.WellKeyed b.rt)
    {written : List (Entity b.State)}
    (executed : scope.transaction.execute b.rt scope.rows = .ok written) (id : ConversationId) :
    storedRow b.rt written (pendingGroupEntityId id) = scope.row (pendingGroupEntityId id) ∨
      (storedRow b.rt written (pendingGroupEntityId id)).isSome ∧
        storedRow b.rt written (pendingGroupEntityId id) =
          storedRow b.rt scope.rows (pendingGroupEntityId id) :=
  KeystoreTransaction.storedRow_execute_append keyed
    (by simp [DeletedByKey, pendingGroupEntityId, EntityType.saveMode]) rfl executed

theorem live_finish (live : Live scope) : Live scope.finish := by
  unfold Scope.finish
  cases executed : scope.transaction.execute b.rt scope.rows with
  | error e =>
    exact ⟨live.keyed, live.stored, live.rows, fun id address found => by simp at found⟩
  | ok written =>
    have readsSame := storedRow_finished live.keyed executed
    have stored : LiveRows b (storedRow b.rt written) := by
      refine ⟨?_, ?_⟩
      · intro id entity row
        rw [readsSame _ (.inl rfl)] at row
        exact live.rows.groups id entity row
      · intro id entity row
        rcases pendingRow_finished live.keyed executed id with same | ⟨-, same⟩
        · exact live.rows.pending id entity (same ▸ row)
        · exact live.stored.pending id entity (same ▸ row)
    refine ⟨KeystoreTransaction.wellKeyed_new b.rt, stored, stored, ?_⟩
    intro id address found
    refine (live.cached id address found).congr rfl ?_
    rw [Scope.row, KeystoreTransaction.read_new]
    exact readsSame _ (.inl rfl)

theorem live_abort (live : Live scope) : Live scope.abort := by
  refine ⟨KeystoreTransaction.wellKeyed_new b.rt, live.stored, live.stored, ?_⟩
  intro id address found
  simp [Scope.abort] at found

theorem message_ends (laws : RemovalLaws b) (live : Live scope)
    (id : ConversationId) (payload : Bytes) (calm : CalmStep b scope (.message id payload)) :
    Live (finalState (incomingMessage b id payload) scope) ∧
      AnswersMembership b scope (.message id payload) := by
  have finds := finds_conversation live id
  simp only [CalmStep] at calm
  simp only [AnswersMembership, finalState, incomingMessage, bind, EStateM.bind, attempt]
  cases called : conversation b id scope with
  | ok address scope' =>
    rw [called] at finds calm
    obtain ⟨found, seated, cached⟩ := finds
    obtain ⟨env, focused⟩ := seated.focused found cached
    have ends := ends_decryptMessage laws found focused
      (fun message decodes merged applied => calm env message merged focused.focus decodes applied)
    simp only
    cases answered : withHandle "decrypting message" address (decryptMessage b payload) scope' with
    | ok decrypted after =>
      rw [answered] at ends
      refine ⟨ends.1, ?_⟩
      intro _ _ same
      cases same
      exact ends.2
    | error e after =>
      rw [answered] at ends
      exact ⟨ends, fun _ _ impossible => by cases impossible⟩
  | error e scope' =>
    rw [called] at finds calm
    obtain ⟨same, uncached, row⟩ := finds
    subst same
    rcases missing_cases live uncached row called with
      rfl | ⟨state, customConfiguration, group, rfl, -, deserialises, groupId, active⟩
    · exact ⟨live, trivial⟩
    · have merged := joinEnds_merge laws live deserialises groupId active (fun _ => calm)
      have ends := ends_tryProcessOwnJoinCommit live payload merged
      simp only
      cases answered : PendingConversation.tryProcessOwnJoinCommit
          ⟨id, state, customConfiguration⟩ payload scope' with
      | ok decrypted after =>
        rw [answered] at ends
        refine ⟨ends.1, ?_⟩
        intro _ _ same
        cases same
        exact ends.2
      | error e after =>
        rw [answered] at ends
        exact ⟨ends, fun _ _ impossible => by cases impossible⟩

/-- **Removed clients lose the conversation.** In every run in which the replayed messages leave
the membership as it is, each answer says whether the client is a member, the conversation is
cached and stored if and only if it is, and `conversation` hands out no group that the client is
not a member of. -/
theorem removed_client_loses_conversation (laws : RemovalLaws b) (scope : Scope b)
    (live : Live scope) (steps : List ClientStep)
    (calm : Guarded (ClientStep.perform b) (CalmStep b) scope steps) :
    Guarded (ClientStep.perform b)
      (fun scope step => AnswersMembership b scope step ∧ HandsOutMembers b scope) scope steps ∧
    HandsOutMembers b (run (ClientStep.perform b) scope steps) := by
  have preserved : ∀ scope step, Live scope → CalmStep b scope step →
      Live (ClientStep.perform b scope step) := by
    intro scope step live calm
    cases step with
    | message id payload => exact (message_ends laws live id payload calm).1
    | finish => exact live_finish live
    | abort => exact live_abort live
  constructor
  · refine guarded_of_invariant _ _ _ Live preserved ?_ scope steps live calm
    intro scope step live calm
    refine ⟨?_, handsOutMembers_of_live live⟩
    cases step with
    | message id payload => exact (message_ends laws live id payload calm).2
    | finish => trivial
    | abort => trivial
  · exact handsOutMembers_of_live (run_invariant _ _ Live preserved scope steps live calm)

/-! ### On the sample backend -/

/-- The conversation is there, and nothing is buffered for it. -/
def nothingBuffered (b : Backend) (scope : Scope b) (id : ConversationId) : Bool :=
  match conversation b id scope with
  | .ok address scope' => (scope'.focus address).all (·.listed.isEmpty)
  | .error _ _ => false

theorem calmStep_of_nothingBuffered (live : Live scope) (id : ConversationId) (payload : Bytes)
    (empty : nothingBuffered b scope id = true) : CalmStep b scope (.message id payload) := by
  have finds := finds_conversation live id
  simp only [nothingBuffered] at empty
  simp only [CalmStep]
  cases called : conversation b id scope with
  | error e scope' => simp [called] at empty
  | ok address scope' =>
    rw [called] at finds empty
    intro env message merged focused decodes applied
    obtain ⟨env', isFocused⟩ := finds.2.1.focused finds.1 finds.2.2
    have same := isFocused.focus.symm.trans focused
    cases same
    have nothing : merged.listed = [] := by
      have perm := applied.listed_perm isFocused.attached.within.keyed
      simp only [focused, Option.all_some, List.isEmpty_iff] at empty
      rwa [empty, List.perm_nil] at perm
    rw [Env.Calm, nothing]
    exact calm_nil _ _

/-- The answer to a message says that the client is a member of a group it is not a member of. -/
def answersWrongly (b : Backend) (scope : Scope b) (id : ConversationId) (payload : Bytes) : Bool :=
  match conversation b id scope with
  | .ok address scope' =>
    match withHandle "decrypting message" address (decryptMessage b payload) scope' with
    | .ok decrypted after =>
      decrypted.isActive && (after.heap[address]?).all (fun found => !found.group.isActive)
    | .error _ _ => false
  | .error _ _ => false

theorem not_answersMembership {id : ConversationId} {payload : Bytes}
    (wrongly : answersWrongly b scope id payload = true) :
    ¬ AnswersMembership b scope (.message id payload) := by
  intro answers
  simp only [answersWrongly] at wrongly
  simp only [AnswersMembership] at answers
  cases called : conversation b id scope with
  | error e scope' => simp [called] at wrongly
  | ok address scope' =>
    simp only [called] at wrongly answers
    cases answered : withHandle "decrypting message" address (decryptMessage b payload) scope' with
    | error e after => simp [answered] at wrongly
    | ok decrypted after =>
      obtain ⟨found, inHeap, agrees, -⟩ := answers decrypted after answered
      simp [answered, inHeap, agrees] at wrongly

/-- `conversation` hands out a group that the client is not a member of. -/
def handsOutWrongly (b : Backend) (scope : Scope b) (id : ConversationId) : Bool :=
  match conversation b id scope with
  | .ok address scope' => (scope'.heap[address]?).all (fun found => !found.group.isActive)
  | .error _ _ => false

theorem not_handsOutMembers (id : ConversationId)
    (wrongly : handsOutWrongly b scope id = true) : ¬ HandsOutMembers b scope := by
  intro hands
  simp only [handsOutWrongly] at wrongly
  cases called : conversation b id scope with
  | error e scope' => simp [called] at wrongly
  | ok address scope' =>
    obtain ⟨found, inHeap, active⟩ := (hands id).1 address scope' called
    simp [called, inHeap, active] at wrongly

namespace Sample

theorem removalLaws (transport : Except Nat Unit) : RemovalLaws (backend transport) :=
  ⟨serialises transport, roundTrips transport, removesProposals transport, epochLaws transport,
    activityLaws transport⟩

/-- A client with one stored group, at epoch 5. -/
def client : Scope (backend (.ok ())) :=
  { heap := []
    conversationCache := .empty
    rows := [.persistedMlsGroup [42] (newGroup [42] 1 5).setPersisted none]
    transaction := .new
    pendingEpochChanges := []
    accepted := []
    historyClients := []
    clock := 0 }

theorem live_client : Live client := by
  have rows : LiveRows (backend (.ok ())) (storedRow (backend (.ok ())).rt client.rows) := by
    refine ⟨?_, ?_⟩
    · intro id entity row
      simp only [storedRow, client, List.find?_singleton, decide_eq_true_eq] at row
      split at row
      next same =>
        cases row
        cases same
        exact ⟨5, _, _, _, rfl, rfl, rfl, rfl⟩
      next => cases row
    · intro id entity row
      simp only [storedRow, client, List.find?_singleton, decide_eq_true_eq] at row
      split at row
      next same => cases same
      next => cases row
  refine ⟨KeystoreTransaction.wellKeyed_new _, rows, rows, ?_⟩
  intro id address found
  simp [client] at found

end Sample

/-- The client is removed by a commit that refers to a proposal, and loses the conversation. -/
theorem removed_client_loses_conversation_sample :
    (run (ClientStep.perform (Sample.backend (.ok ()))) Sample.client
        [.message [42] [1, 5, 1, 0], .message [42] [3, 5, 16], .finish]).rows.isEmpty ∧
      HandsOutMembers (Sample.backend (.ok ()))
        (run (ClientStep.perform (Sample.backend (.ok ()))) Sample.client
          [.message [42] [1, 5, 1, 0], .message [42] [3, 5, 16], .finish]) := by
  have first : CalmStep (Sample.backend (.ok ())) Sample.client (.message [42] [1, 5, 1, 0]) :=
    calmStep_of_nothingBuffered Sample.live_client _ _ (by decide +kernel)
  have live := (message_ends (Sample.removalLaws (.ok ())) Sample.live_client _ _ first).1
  have second := calmStep_of_nothingBuffered live [42] [3, 5, 16] (by decide +kernel)
  refine ⟨by decide +kernel, (removed_client_loses_conversation (Sample.removalLaws (.ok ()))
    Sample.client Sample.live_client _ ?_).2⟩
  exact ⟨first, second, trivial, trivial⟩

/-- A proposal to remove the client and the commit to it arrive before the commit that starts
their epoch.  The replay removes the client, but the answer says that it is a member, and the
conversation is still handed out. -/
theorem replayed_removal_goes_unnoticed :
    ¬ AnswersMembership (Sample.backend (.ok ()))
        (run (ClientStep.perform (Sample.backend (.ok ()))) Sample.client
          [.message [42] [1, 6, 1, 0], .message [42] [3, 6, 16]]) (.message [42] [3, 5]) ∧
      ¬ HandsOutMembers (Sample.backend (.ok ()))
        (run (ClientStep.perform (Sample.backend (.ok ()))) Sample.client
          [.message [42] [1, 6, 1, 0], .message [42] [3, 6, 16], .message [42] [3, 5]]) :=
  ⟨not_answersMembership (by decide +kernel), not_handsOutMembers [42] (by decide +kernel)⟩

end CoreCrypto.Conversation
