import CoreCrypto.Conversation.Tidy

/-!
# Joined and new conversations

A join replays the messages that were buffered for the conversation, a rejoin drops them, and a new
conversation has an unused id.  A tidy client stays tidy if a join can replay what is buffered and a
rejoin finds no buffered commit.
-/

namespace CoreCrypto.Conversation

open Keystore Library

variable {b : Backend}

/-! ### Joining -/

/-- A join leaves nothing buffered: no message of the conversation is stored, a rejoin finds no
buffered commit, and the messages buffered for a pending conversation can all be replayed without
touching the membership. -/
structure JoinTidy (b : Backend) (scope : Scope b) (pending : PendingConversation b) : Prop where
  unstored : ∀ message ∈ scope.rows, message.foreignId? ≠ some pending.id
  rejoin : Joinable.Rejoins scope pending → scope.row (bufferedCommitEntityId pending.id) = none
  calm : ¬ Joinable.Rejoins scope pending →
    ∀ joinable : Joinable b pending, (joinable.handle scope).Calm
  drains : ¬ Joinable.Rejoins scope pending →
    ∀ joinable : Joinable b pending, (joinable.handle scope).Drains

section Join

variable {scope : Scope b} {pending : PendingConversation b} {message : Bytes}
  {pendingGroup : b.Group}

theorem joined_writes (joinable : Joinable b pending) (scope : Scope b) :
    Writes b.rt (· = groupEntityId pending.id) scope.transaction
      (joinable.joined scope).transaction := by
  rw [← joinable.sameId]
  exact .save _ rfl .refl

theorem commitRow_joined (belongs : Belongs b scope.row scope.PendingRow)
    (joinTidy : JoinTidy b scope pending) (joinable : Joinable b pending) :
    (joinable.handle scope).commitRow = none := by
  have kept : (joinable.handle scope).commitRow = scope.row (bufferedCommitEntityId pending.id) := by
    rw [← joinable.sameId]
    exact (joined_writes joinable scope).read_eq scope.rows _
      (by simp [bufferedCommitEntityId, groupEntityId])
  rw [kept]
  by_cases rejoins : Joinable.Rejoins scope pending
  · exact joinTidy.rejoin rejoins
  · cases row : scope.row (bufferedCommitEntityId pending.id) with
    | none => rfl
    | some entity =>
      -- a buffered commit belongs to a group that was joined before
      obtain ⟨_, _, -, ⟨stored, found, -⟩, -⟩ := belongs.commit pending.id entity row
      exact absurd (by rw [Joinable.Rejoins, found]; rfl) rejoins

theorem restored_ok (laws : RemovalLaws b) (joinTidy : JoinTidy b scope pending)
    (joinable : Joinable b pending) :
    ∃ answer env, restorePendingMessages (decryptMessageInner b · .none)
      (Joinable.policy scope pending) (joinable.handle scope) = .ok answer env := by
  by_cases rejoins : Joinable.Rejoins scope pending
  · have clearOnly : Joinable.policy scope pending = .clearOnly := if_pos rejoins
    rw [clearOnly]
    exact ⟨none, _, rfl⟩
  · have decryptAndClear : Joinable.policy scope pending = .decryptAndClear := if_neg rejoins
    obtain ⟨decoded, decodes, results, seat, taken⟩ := (joinTidy.drains rejoins joinable).replayable
    obtain ⟨env, -, -, restores⟩ :=
      restorePendingMessages_ok laws.serialises decodes taken
    rw [decryptAndClear]
    exact ⟨_, env, restores⟩

theorem unstored_joined (joinTidy : JoinTidy b scope pending) (joinable : Joinable b pending) :
    (joinable.handle scope).Unstored := by
  have sameId : (joinable.handle scope).id = pending.id := joinable.sameId
  rw [Env.Unstored, sameId]
  exact joinTidy.unstored

/-- It leaves no buffered commit, and messages only if it says so. -/
theorem unbuffered_restored (laws : RemovalLaws b) (joinTidy : JoinTidy b scope pending)
    {joinable : Joinable b pending} (keyed : (joinable.handle scope).transaction.WellKeyed b.rt)
    (alone : (joinable.handle scope).commitRow = none)
    {answer : Option (List (BufferedDecryptedMessage b))} {env : Env b}
    (restores : restorePendingMessages (decryptMessageInner b · .none)
      (Joinable.policy scope pending) (joinable.handle scope) = .ok answer env) :
    env.commitRow = none ∧ Shrinks (joinable.handle scope) env ∧ env.Unstored ∧
      (answer = none → ∀ message, ¬ env.PendingRow message) := by
  have sameOp : ∀ policy, restorePendingMessages (decryptMessageInner b · .none) policy
      (joinable.handle scope) = restorePendingMessages (decryptWithoutRestore b recursionDepth)
        policy (joinable.handle scope) := fun _ => rfl
  have keeps : ∀ {inv : Env b → Prop}, Stable b inv → inv (joinable.handle scope) → inv env := by
    intro inv stable holds
    have kept := keeps_restorePendingMessages stable.emptied
      (keeps_decryptWithoutRestore stable laws.serialises laws.epochs recursionDepth)
      (Joinable.policy scope pending) _ holds
    rw [← sameOp, restores] at kept
    exact kept
  have uncommitted := keeps stable_uncommitted ⟨keyed, alone⟩
  have shrinks := keeps (stable_shrinks (joinable.handle scope)) ⟨keyed, fun _ _ row => row⟩
  have unstored := keeps stable_unstored (unstored_joined joinTidy joinable)
  refine ⟨uncommitted.2, shrinks.2, unstored, ?_⟩
  rintro rfl
  by_cases rejoins : Joinable.Rejoins scope pending
  · have clearOnly : Joinable.policy scope pending = .clearOnly := if_pos rejoins
    rw [clearOnly] at restores
    cases restores
    exact (unstored_joined joinTidy joinable).emptied _
  · have decryptAndClear : Joinable.policy scope pending = .decryptAndClear := if_neg rejoins
    rw [decryptAndClear] at restores
    have empty := (joinTidy.drains rejoins joinable).listed
      (listed_of_restored_none laws.serialises restores)
    exact (keeps stable_drained ⟨keyed, empty⟩).2

theorem apart_finished (keyed : scope.transaction.WellKeyed b.rt)
    (answer : Option (List (BufferedDecryptedMessage b))) :
    Apart pending.id scope (Joinable.finished pending answer scope) := by
  have unpended : ∀ scope : Scope b, scope.transaction.WellKeyed b.rt →
      Apart pending.id scope { scope with
        transaction := scope.transaction.removeByEntityId (pendingGroupEntityId pending.id) } := by
    intro scope keyed
    have writes : Writes b.rt (· = pendingGroupEntityId pending.id) scope.transaction
        (scope.transaction.removeByEntityId (pendingGroupEntityId pending.id)) := .remove _ rfl .refl
    refine .of_writes rfl writes keyed ?_ (fun _ same => .inr same)
    rintro _ rfl
    simp [pendingGroupEntityId]
  cases answer with
  | none => exact unpended scope keyed
  | some results =>
    exact (Apart.emptied keyed).trans (unpended _
      (KeystoreTransaction.wellKeyed_removePendingMessages b.rt _ _ keyed))

theorem noBuffers_finished (keyed : scope.transaction.WellKeyed b.rt)
    {answer : Option (List (BufferedDecryptedMessage b))}
    (alone : scope.row (bufferedCommitEntityId pending.id) = none)
    (unstored : ∀ message ∈ scope.rows, message.foreignId? ≠ some pending.id)
    (drained : answer = none → ∀ message, ¬ scope.PendingRow pending.id message) :
    (Joinable.finished pending answer scope).NoBuffers pending.id := by
  obtain ⟨-, -, reads⟩ := finished_row pending keyed answer
  refine ⟨(reads _ (by simp [bufferedCommitEntityId])
    (by simp [bufferedCommitEntityId, pendingGroupEntityId])).trans alone, fun message row => ?_⟩
  cases answer with
  | none =>
    exact drained rfl message (KeystoreTransaction.pendingRow_of_removeByEntityId row)
  | some results =>
    have removed := KeystoreTransaction.pendingRow_of_removeByEntityId row
    exact unstored message (KeystoreTransaction.mem_of_pendingRow_removed removed) removed.1

theorem tidy_merge (laws : RemovalLaws b) (tidy : Tidy scope)
    (deserialises : b.deser pending.state = .ok pendingGroup)
    (groupId : pendingGroup.groupId = pending.id) (active : pendingGroup.isActive = true)
    (joinTidy : JoinTidy b scope pending) : Tidy (finalState pending.merge scope) := by
  rcases merge_joinable laws scope deserialises groupId active with ⟨e, fails⟩ | ⟨joinable, member⟩
  · rw [finalState, fails]
    exact tidy
  · have ends := joinEnds_merge laws tidy.live deserialises groupId active joinTidy.calm
    obtain ⟨joinedLive, focused⟩ := joinable_focused laws tidy.live member
    obtain ⟨answer, env, restores⟩ := restored_ok laws joinTidy joinable
    obtain ⟨alone, shrinks, unstored, drained⟩ := unbuffered_restored laws joinTidy
      focused.attached.within.keyed (commitRow_joined tidy.current joinTidy joinable) restores
    have restored := attached_restored laws focused.attached focused.isActive
      (fun fresh => joinTidy.calm fresh joinable)
    rw [restores] at restored
    obtain ⟨attached, -⟩ := restored
    rw [Joinable.merge_eq joinable scope, restores] at ends
    rw [finalState, Joinable.merge_eq joinable scope, restores]
    have sameId : env.id = pending.id := attached.within.id.trans focused.sameId
    have keyed : ((joinable.joined scope).unfocus scope.heap.length env).transaction.WellKeyed b.rt :=
      attached.within.keyed
    -- the group is persisted, the messages are replayed, and the pending group is removed
    have persisted : Apart pending.id scope (joinable.joined scope) := by
      refine .of_writes rfl (joined_writes joinable scope) tidy.live.keyed ?_ ?_
      · rintro _ rfl
        simp [groupEntityId]
      · rintro _ rfl
        exact .inl (.inl rfl)
    have apart := (persisted.trans (.unfocus focused attached.within.reads
      fun other message _ => shrinks other message)).trans
      (apart_finished keyed answer)
    refine tidy.of_current ends.1 (attached.within.rows.trans focused.rows)
      (apart.belongs tidy.current (noBuffers_finished keyed ?_ ?_ ?_).belongsTo)
    · rw [← sameId]
      exact alone
    · rw [← sameId]
      exact unstored
    · intro nothing message row
      refine drained nothing message ?_
      rw [Env.PendingRow, sameId]
      exact row

/-- The answer to the own join commit is read off the conversation that was joined. -/
theorem mergeAndRestoreMessages_scope (pending : PendingConversation b) (scope : Scope b) :
    finalState pending.mergeAndRestoreMessages scope =
      match pending.merge scope with
      | .ok _ scope' => finalState (conversation b pending.id) scope'
      | .error _ scope' => scope' := by
  simp only [finalState, PendingConversation.mergeAndRestoreMessages, bind, EStateM.bind]
  cases pending.merge scope with
  | error e scope' => rfl
  | ok bufferedMessages scope' =>
    simp only
    cases conversation b pending.id scope' with
    | error e after => rfl
    | ok address after =>
      simp only [get, getThe, MonadStateOf.get, EStateM.get]
      cases after.heap[address]? with
      | none => rfl
      | some conversation =>
        simp only
        cases conversation.group.ownLeaf with
        | none => rfl
        | some ownLeaf =>
          simp only
          cases b.extractIdentity ownLeaf conversation.configuration.cipherSuite with
          | error code => rfl
          | ok identity => rfl

theorem mergeAndRestoreMessages_reads {address : Nat}
    (merged : JoinEnds pending.id address (pending.merge scope)) :
    (finalState pending.mergeAndRestoreMessages scope).rows = (finalState pending.merge scope).rows ∧
      (finalState pending.mergeAndRestoreMessages scope).transaction =
        (finalState pending.merge scope).transaction := by
  rw [mergeAndRestoreMessages_scope, finalState]
  cases called : pending.merge scope with
  | error e scope' => exact ⟨rfl, rfl⟩
  | ok bufferedMessages scope' =>
    rw [called] at merged
    simp only [finalState, conversation, bind, EStateM.bind,
      getOrFetch_cached merged.2.2]
    exact ⟨rfl, rfl⟩

/-- A message for a pending conversation completes the join, is refused or waits. -/
theorem tryProcessOwnJoinCommit_scope (pending : PendingConversation b) (message : Bytes)
    (scope : Scope b) :
    finalState (pending.tryProcessOwnJoinCommit message) scope =
        finalState pending.mergeAndRestoreMessages scope ∨
      finalState (pending.tryProcessOwnJoinCommit message) scope = scope ∨
      finalState (pending.tryProcessOwnJoinCommit message) scope =
        scope.saved (.mlsPendingMessage pending.id message) := by
  have unchanged := isOwnJoinCommit_scope pending message scope
  simp only [finalState, PendingConversation.tryProcessOwnJoinCommit, bind, EStateM.bind]
    at unchanged ⊢
  cases called : pending.isOwnJoinCommit message scope with
  | error e scope' =>
    rw [called] at unchanged
    exact .inr (.inl unchanged)
  | ok isOwn scope' =>
    rw [called] at unchanged
    obtain rfl : scope = scope' := unchanged.symm
    cases isOwn with
    | true => exact .inl rfl
    | false => exact .inr (.inr rfl)

/-- A message for a pending conversation is buffered without a look at its epoch. -/
theorem tidy_bufferPending (tidy : Tidy scope)
    (unjoined : scope.row (groupEntityId pending.id) = none)
    (isPending : (scope.row (pendingGroupEntityId pending.id)).isSome)
    (live : Live (scope.saved (.mlsPendingMessage pending.id message))) :
    Tidy (scope.saved (.mlsPendingMessage pending.id message)) := by
  have writes : Writes b.rt (fun entityId => entityId.typ = .mlsPendingMessage) scope.transaction
      (scope.saved (.mlsPendingMessage pending.id message)).transaction := .save _ rfl .refl
  have reads : ∀ entityId, entityId.typ ≠ .mlsPendingMessage →
      (scope.saved (.mlsPendingMessage pending.id message)).row entityId = scope.row entityId :=
    fun entityId other => writes.read_eq scope.rows entityId other
  have groups := fun id => reads (groupEntityId id) (by simp [groupEntityId])
  have pendings := fun id => reads (pendingGroupEntityId id) (by simp [pendingGroupEntityId])
  have storedAs : ∀ id standing, StoredAs b scope.row id standing →
      StoredAs b (scope.saved (.mlsPendingMessage pending.id message)).row id standing := by
    rintro id standing ⟨entity, row, holds⟩
    exact ⟨entity, (groups id).trans row, holds⟩
  refine tidy.of_current live rfl ⟨?_, ?_⟩
  · intro id entity row
    obtain ⟨commit, standing, rfl, stored, claims⟩ := tidy.current.commit id entity
      ((reads (bufferedCommitEntityId id) (by simp [bufferedCommitEntityId])).symm.trans row)
    exact ⟨commit, standing, rfl, storedAs id standing stored, claims⟩
  · intro id row found
    rcases KeystoreTransaction.pendingRow_save found with older | rfl
    · obtain ⟨bytes, rfl, belongsTo⟩ := tidy.current.messages id row older
      refine ⟨bytes, rfl, ?_⟩
      rcases belongsTo with ⟨standing, stored, claims⟩ | ⟨unstored, isSome⟩
      · exact .inl ⟨standing, storedAs id standing stored, claims⟩
      · exact .inr ⟨(groups id).trans unstored, by rw [pendings id]; exact isSome⟩
    · -- the group is still pending
      obtain rfl : pending.id = id := Option.some.inj found.1
      exact ⟨message, rfl, .inr ⟨(groups pending.id).trans unjoined,
        by rw [pendings pending.id]; exact isPending⟩⟩

theorem tidy_tryProcessOwnJoinCommit (laws : RemovalLaws b) (tidy : Tidy scope)
    (deserialises : b.deser pending.state = .ok pendingGroup)
    (groupId : pendingGroup.groupId = pending.id) (active : pendingGroup.isActive = true)
    (joinTidy : JoinTidy b scope pending) (unjoined : scope.row (groupEntityId pending.id) = none)
    (isPending : (scope.row (pendingGroupEntityId pending.id)).isSome) :
    Tidy (finalState (pending.tryProcessOwnJoinCommit message) scope) := by
  have merged := joinEnds_merge laws tidy.live deserialises groupId active joinTidy.calm
  have live : Live (finalState (pending.tryProcessOwnJoinCommit message) scope) := by
    have ends := ends_tryProcessOwnJoinCommit tidy.live message merged
    rw [finalState]
    cases answered : pending.tryProcessOwnJoinCommit message scope with
    | ok decrypted after =>
      rw [answered] at ends
      exact ends.1
    | error e after =>
      rw [answered] at ends
      exact ends
  rcases tryProcessOwnJoinCommit_scope pending message scope with joins | refuses | waits
  · rw [joins] at live ⊢
    obtain ⟨sameRows, sameTransaction⟩ := mergeAndRestoreMessages_reads merged
    exact (tidy_merge laws tidy deserialises groupId active joinTidy).of_same live sameRows
      sameTransaction
  · rw [refuses]
    exact tidy
  · rw [waits] at live ⊢
    exact tidy_bufferPending tidy unjoined isPending live

end Join

/-! ### New conversations -/

/-- A client is a member of the groups it creates, is invited to, or is about to join. -/
structure CreationLaws (b : Backend) : Prop where
  created : ∀ call signer configuration id group,
    b.newWithGroupId call signer configuration id = .ok group →
    group.groupId = id ∧ group.isActive = true
  welcomed : ∀ call configuration welcome group,
    b.newFromWelcome call configuration welcome = .ok group → group.isActive = true
  joining : ∀ call signer groupInfo configuration group commit info,
    b.joinByExternalCommit call signer groupInfo configuration = .ok (group, commit, info) →
    group.isActive = true

/-- Neither a joined nor a pending group has the id. -/
structure Unused (scope : Scope b) (id : ConversationId) : Prop where
  group : scope.row (groupEntityId id) = none
  pending : scope.row (pendingGroupEntityId id) = none

section Create

variable {scope : Scope b} {α : Type}

theorem triple_liftScope {ε : Type} {wrap : ε → ScopeError b} {result : Except ε α}
    {pre : Scope b → Prop} {post : α → Scope b → Prop} {err : ScopeError b → Scope b → Prop}
    (ok : ∀ a scope, result = .ok a → pre scope → post a scope)
    (error : ∀ e scope, pre scope → err e scope) :
    Triple pre (liftScope b wrap result) post err := by
  cases result with
  | ok a => exact triple_pure fun scope => ok a scope rfl
  | error e => exact triple_throw fun scope => error (wrap e) scope

/-! ### Created groups and the buffers -/

theorem tidy_recorded (tidy : Tidy scope) (accepted : List CommitBundle) (clock : Nat) :
    Tidy { scope with accepted, clock } := by
  refine tidy.of_same ⟨tidy.live.keyed, tidy.live.stored, tidy.live.rows, ?_⟩ rfl rfl
  intro id address found
  exact (tidy.live.cached id address found).congr rfl rfl

/-- A group under an unused id starts with empty buffers. -/
theorem tidy_persisted (laws : RemovalLaws b) (tidy : Tidy scope) {group : b.Group}
    (unused : Unused scope group.groupId) (active : group.isActive = true) {state : b.State}
    (serialised : b.ser group = .ok state) (configuration : ConversationConfiguration) :
    Tidy (scope.persisted ⟨group.groupId, group.setPersisted, configuration⟩ state) := by
  let conversation : SharedConversation b := ⟨group.groupId, group.setPersisted, configuration⟩
  have member : conversation.Live group.groupId := ⟨rfl, rfl, active⟩
  have holds : Holds b group.groupId conversation.group.standing
      (.persistedMlsGroup group.groupId state none) :=
    ⟨state, none, group.setPersisted, rfl, laws.roundTrips _ _ serialised, rfl, rfl⟩
  have live := (live_persisted tidy.live member holds).1
  obtain ⟨noCommit, noMessages⟩ := tidy.current.of_row unused.group unused.pending
  have writes : Writes b.rt (· = groupEntityId group.groupId) scope.transaction
      (scope.persisted conversation state).transaction := .save _ rfl .refl
  have others : ∀ entityId, entityId = groupEntityId group.groupId →
      entityId.typ ≠ .mlsPendingMessage := by
    rintro _ rfl
    simp [groupEntityId]
  have apart : Apart group.groupId scope (scope.persisted conversation state) :=
    .of_writes rfl writes tidy.live.keyed others fun _ same => .inl (.inl same)
  refine tidy.of_current live rfl (apart.belongs tidy.current
    (Scope.NoBuffers.belongsTo ⟨?_, fun message row => ?_⟩))
  · rw [← noCommit]
    exact writes.read_eq scope.rows _ (by simp [bufferedCommitEntityId, groupEntityId])
  · exact noMessages message
      ((writes.pendingRow_iff tidy.live.keyed others scope.rows _ message).mp row)

/-- Storing a group that the client is about to join leaves the buffers. -/
theorem tidy_savePendingGroup (tidy : Tidy scope) {id : ConversationId} {entity : Entity b.State}
    (holds : HoldsPending b id entity) : Tidy (scope.saved entity) := by
  have key : b.rt.fromEntity entity = pendingGroupEntityId id := by
    obtain ⟨state, parentId, customConfiguration, group, rfl, -⟩ := holds
    rfl
  have writes : Writes b.rt (· = pendingGroupEntityId id) scope.transaction
      (scope.saved entity).transaction := .save _ key .refl
  have own : (scope.saved entity).row (pendingGroupEntityId id) = some entity := by
    rw [← key]
    exact KeystoreTransaction.read_save_self b.rt scope.transaction scope.rows entity
  have reads : ∀ entityId, entityId ≠ pendingGroupEntityId id →
      (scope.saved entity).row entityId = scope.row entityId :=
    fun entityId different => writes.read_eq scope.rows entityId different
  have groups : ∀ other, (scope.saved entity).row (groupEntityId other) =
      scope.row (groupEntityId other) :=
    fun other => reads _ (by simp [groupEntityId, pendingGroupEntityId])
  have live : Live (scope.saved entity) := by
    refine live_writes tidy.live writes (fun _ => by simp [groupEntityId, pendingGroupEntityId]) ?_
    intro other stored row
    by_cases same : other = id
    · subst same
      cases own.symm.trans row
      exact holds
    · exact tidy.live.rows.pending other stored
        ((reads _ (by simp [pendingGroupEntityId, same])).symm.trans row)
  refine tidy.of_current live rfl (belongs_of_each fun other => ?_)
  refine tidy.current.belongsTo (groups other)
    (reads _ (by simp [bufferedCommitEntityId, pendingGroupEntityId])) (fun isSome => ?_)
    fun message => (writes.pendingRow_iff tidy.live.keyed (by simp [pendingGroupEntityId]) scope.rows
      other message).mp
  by_cases same : other = id
  · subst same
    exact Option.isSome_iff_exists.mpr ⟨_, own⟩
  · rw [reads _ (by simp [pendingGroupEntityId, same])]
    exact isSome

theorem tidy_scopeTick : Triple (Tidy (b := b)) (scopeTick b) (fun _ => Tidy) (fun _ => Tidy) :=
  fun scope tidy => tidy_recorded tidy scope.accepted _

/-- A group is created only under an id that is not in use. -/
theorem unused_of_ensureNew (id : ConversationId) :
    Triple (Tidy (b := b)) (ensureNew b id) (fun _ scope => Tidy scope ∧ Unused scope id)
      (fun _ => Tidy) := by
  intro scope tidy
  rw [ensureNew_eq]
  split_ifs with taken
  · exact tidy
  · simp only [Scope.taken, Bool.or_eq_true, not_or, Option.not_isSome_iff_eq_none] at taken
    obtain ⟨⟨-, noGroup⟩, noPending⟩ := taken
    refine ⟨tidy, noGroup, ?_⟩
    cases row : scope.row (pendingGroupEntityId id) with
    | none => rfl
    | some entity =>
      -- a row of a pending group is one
      obtain ⟨state, parentId, customConfiguration, group, rfl, -⟩ :=
        tidy.live.rows.pending id entity row
      rw [row] at noPending
      cases noPending

theorem tidy_newConversation (laws : RemovalLaws b) (creation : CreationLaws b)
    (id : ConversationId) (credentialRef : Bytes) (configuration : ConversationConfiguration) :
    Triple (Tidy (b := b)) (newConversation b id credentialRef configuration) (fun _ => Tidy)
      (fun _ => Tidy) := by
  apply triple_bind _ (unused_of_ensureNew id)
  intro _
  apply triple_bind (fun _ scope => Tidy scope ∧ Unused scope id)
  · exact triple_liftScope (fun _ _ _ holds => holds) (fun _ _ holds => holds.1)
  intro signer
  apply triple_bind (fun _ scope => Tidy scope ∧ Unused scope id)
  · exact fun scope holds => ⟨tidy_recorded holds.1 scope.accepted _, holds.2.group,
      holds.2.pending⟩
  intro call
  apply triple_bind (fun group scope =>
    (Tidy scope ∧ Unused scope group.groupId) ∧ group.isActive = true)
  · refine triple_liftScope (fun group scope created holds => ?_) (fun _ _ holds => holds.1)
    obtain ⟨sameId, active⟩ := creation.created _ _ _ _ _ created
    rw [sameId]
    exact ⟨holds, active⟩
  intro group
  apply triple_discard
  rintro scope ⟨⟨tidy, unused⟩, active⟩
  obtain ⟨state, serialised⟩ := laws.serialises group
  rw [persist_ok serialised configuration scope]
  exact tidy_persisted laws tidy unused active serialised _

theorem tidy_processWelcomeMessage (laws : RemovalLaws b) (creation : CreationLaws b)
    (welcome : Bytes) (cipherSuite : Nat) :
    Triple (Tidy (b := b)) (processWelcomeMessage b welcome cipherSuite) (fun _ => Tidy)
      (fun _ => Tidy) := by
  apply triple_bind _ tidy_scopeTick
  intro call
  apply triple_bind (fun group scope => Tidy scope ∧ group.isActive = true)
  · exact triple_liftScope
      (fun group scope welcomed tidy => ⟨tidy, creation.welcomed _ _ _ _ welcomed⟩)
      (fun _ _ tidy => tidy)
  rintro group scope ⟨tidy, active⟩
  have persists : Triple (fun scope => Tidy scope ∧ Unused scope group.groupId)
      (discard (persistConversationFromMlsGroup b group (.ofCipherSuite cipherSuite)))
      (fun _ => Tidy) (fun _ => Tidy) := by
    apply triple_discard
    rintro scope ⟨tidy, unused⟩
    obtain ⟨state, serialised⟩ := laws.serialises group
    rw [persist_ok serialised _ scope]
    exact tidy_persisted laws tidy unused active serialised _
  have returns : Triple Tidy (pure group.groupId : ScopeOp b ConversationId) (fun _ => Tidy)
      (fun _ => Tidy) := fun _ tidy => tidy
  exact triple_bind _ (unused_of_ensureNew group.groupId)
    (fun _ => triple_bind (fun _ => Tidy) persists fun _ => returns) scope tidy

/-- The pending conversation is one of a group that the client will be a member of. -/
def PendingMember (pending : PendingConversation b) : Prop :=
  ∃ group, b.deser pending.state = .ok group ∧ group.groupId = pending.id ∧ group.isActive = true

theorem tidy_sendJoinCommit (laws : RemovalLaws b) (creation : CreationLaws b) (groupInfo : Bytes)
    (cipherSuite : Nat) (credentialRef : Bytes) :
    Triple (Tidy (b := b)) (sendJoinCommit b groupInfo cipherSuite credentialRef)
      (fun pending scope => Tidy scope ∧ PendingMember pending) (fun _ => Tidy) := by
  have keeps : ∀ {ε α : Type} {wrap : ε → ScopeError b} (result : Except ε α),
      Triple Tidy (liftScope b wrap result) (fun _ => Tidy) (fun _ => Tidy) :=
    fun result => triple_liftScope (fun _ _ _ holds => holds) (fun _ _ holds => holds)
  apply triple_bind _ (keeps _)
  intro signer
  apply triple_bind _ tidy_scopeTick
  intro call
  apply triple_bind (fun joined scope => Tidy scope ∧ joined.1.isActive = true)
  · exact triple_liftScope
      (fun joined scope joins holds => ⟨holds, creation.joining _ _ _ _ _ _ _ joins⟩)
      (fun _ _ holds => holds)
  rintro ⟨group, commit, info⟩
  cases info with
  | none => exact fun scope holds => holds.1
  | some info =>
    dsimp only
    apply triple_bind (fun _ scope => Tidy scope ∧ group.isActive = true)
    · exact triple_liftScope (fun _ _ _ holds => holds) (fun _ _ holds => holds.1)
    intro groupInfo
    apply triple_bind (fun state scope =>
      (Tidy scope ∧ group.isActive = true) ∧ b.ser group = .ok state)
    · exact triple_liftScope (fun _ _ serialised holds => ⟨holds, serialised⟩)
        (fun _ _ holds => holds.1)
    intro state
    -- the group is stored as pending before the commit is sent
    apply triple_bind (fun _ scope => Tidy scope ∧
      PendingMember (b := b) ⟨group.groupId, state, b.encodeCustom .default⟩)
    · rintro scope ⟨⟨tidy, active⟩, serialised⟩
      have read := laws.roundTrips _ _ serialised
      exact ⟨tidy_savePendingGroup tidy ⟨state, none, _, group.setPersisted, rfl, read, rfl, active⟩,
        group.setPersisted, read, rfl, active⟩
    intro _
    apply triple_bind (fun _ scope => Tidy scope ∧
      PendingMember (b := b) ⟨group.groupId, state, b.encodeCustom .default⟩)
    · exact fun scope holds => ⟨tidy_recorded holds.1 scope.accepted _, holds.2⟩
    intro call
    apply triple_bind _ (triple_liftScope (fun _ _ _ holds => holds) (fun _ _ holds => holds.1))
    intro _ scope holds
    exact ⟨tidy_recorded holds.1 _ scope.clock, holds.2⟩

theorem tidy_joinByExternalCommit (laws : RemovalLaws b) (creation : CreationLaws b)
    (tidy : Tidy scope) {groupInfo : Bytes} {cipherSuite : Nat} {credentialRef : Bytes}
    (joinTidy : ∀ pending scope', sendJoinCommit b groupInfo cipherSuite credentialRef scope =
      .ok pending scope' → JoinTidy b scope' pending) :
    Tidy (finalState (joinByExternalCommit b groupInfo cipherSuite credentialRef) scope) := by
  have sends := tidy_sendJoinCommit laws creation groupInfo cipherSuite credentialRef scope tidy
  simp only [finalState, joinByExternalCommit, bind, EStateM.bind]
  cases called : sendJoinCommit b groupInfo cipherSuite credentialRef scope with
  | error e scope' =>
    rw [called] at sends
    exact sends
  | ok pending scope' =>
    rw [called] at sends
    obtain ⟨stored, group, deserialises, groupId, active⟩ := sends
    have joined := tidy_merge laws stored deserialises groupId active
      (joinTidy pending scope' called)
    simp only [finalState, discard, Functor.discard, Functor.mapConst, Function.comp_apply,
      EStateM.map] at joined ⊢
    cases merged : pending.merge scope' with
    | ok answer after =>
      simp only [merged] at joined ⊢
      exact joined
    | error e after =>
      simp only [merged] at joined ⊢
      exact joined

end Create

end CoreCrypto.Conversation
