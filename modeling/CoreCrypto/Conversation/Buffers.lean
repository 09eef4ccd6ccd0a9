import CoreCrypto.Conversation.Activity
import CoreCrypto.Keystore.Pending

/-!
# The buffers of a conversation

Messages of the next epoch are buffered, and one commit that waits for proposals.  A merged commit
has the messages replayed and removed, but nothing looks at the buffered commit unless it is the one
that was merged.
-/

namespace CoreCrypto.Conversation

open Keystore Library

variable {b : Backend} {bytes : Bytes} {result : EStateM.Result Error (Env b) (DecryptedMessage b)}
  {env env' : Env b} {message : MlsMessageIn} {depth : Nat}

/-- The message claims the epoch. -/
def Asserts (message : MlsMessageIn) (epoch : Nat) : Prop :=
  ∃ content, message.protocolMessage? = some content ∧ content.epoch = epoch

/-- The bytes are those of a message that claims the epoch. -/
def Claims (b : Backend) (bytes : Bytes) (epoch : Nat) : Prop :=
  ∃ message, b.tlsDeserialize bytes = some message ∧ Asserts message epoch

namespace Env

/-- The message is buffered until the next epoch. -/
def PendingRow (env : Env b) (message : Entity b.State) : Prop :=
  env.transaction.PendingRow env.rows env.id message

/-- The row of the buffered commit. -/
def commitRow (env : Env b) : Option (Entity b.State) :=
  env.transaction.read b.rt env.rows (bufferedCommitEntityId env.id)

/-- Every buffered message claims the epoch it waits for. -/
structure Tended (env : Env b) : Prop where
  commit : ∀ entity, env.commitRow = some entity →
    ∃ commit, entity = .storedBufferedCommit env.id commit ∧ Claims b commit env.group.epoch
  messages : ∀ message, env.PendingRow message →
    ∃ bytes, message = .mlsPendingMessage env.id bytes ∧ Claims b bytes (env.group.epoch + 1)

/-- Nothing is buffered. -/
structure Unbuffered (env : Env b) : Prop where
  commit : env.commitRow = none
  messages : ∀ message, ¬ env.PendingRow message

theorem Unbuffered.tended {env : Env b} (unbuffered : env.Unbuffered) : env.Tended where
  commit := by
    intro entity row
    rw [unbuffered.commit] at row
    cases row
  messages := fun message row => absurd row (unbuffered.messages message)

/-- No earlier transaction has stored a message of the conversation: it would stay listed until the
next commit, whatever this transaction removes. -/
def Unstored (env : Env b) : Prop := ∀ message ∈ env.rows, message.foreignId? ≠ some env.id

/-- The buffered messages can all be replayed, the listing misses none of them, and they are the
messages of this transaction. -/
structure Drains (env : Env b) : Prop where
  replayable : Replayable b env.configuration.cipherSuite env.seat env.listed
  listed : env.listed = [] → ∀ message, ¬ env.PendingRow message
  unstored : env.Unstored

end Env

/-! ### Writes that are not to the buffers -/

/-- The rows that merging a commit writes. -/
def GroupRows (id : ConversationId) (entityId : EntityId) : Prop :=
  entityId = groupEntityId id ∨ entityId.typ = .plain .encryptionKeyPair

theorem not_groupRows_commit (id : ConversationId) :
    ¬ GroupRows id (bufferedCommitEntityId id) := by
  simp [GroupRows, groupEntityId, bufferedCommitEntityId]

theorem groupRows_typ {id : ConversationId} {entityId : EntityId} (row : GroupRows id entityId) :
    entityId.typ ≠ .mlsPendingMessage := by
  rcases row with rfl | typ
  · simp [groupEntityId]
  · simp [typ]

/-- The transaction differs in rows of the group only. -/
structure Regrouped (env env' : Env b) : Prop where
  sameId : env'.id = env.id
  rows : env'.rows = env.rows
  writes : Writes b.rt (GroupRows env.id) env.transaction env'.transaction

namespace Regrouped

variable {env middle env' : Env b}

theorem refl (env : Env b) : Regrouped env env := ⟨rfl, rfl, .refl⟩

theorem trans (first : Regrouped env middle) (second : Regrouped middle env') :
    Regrouped env env' := by
  refine ⟨second.sameId.trans first.sameId, second.rows.trans first.rows, ?_⟩
  have writes := second.writes
  rw [first.sameId] at writes
  exact first.writes.trans writes

theorem commitRow (regrouped : Regrouped env env') : env'.commitRow = env.commitRow := by
  rw [Env.commitRow, regrouped.sameId, regrouped.rows]
  exact regrouped.writes.read_eq env.rows _ (not_groupRows_commit env.id)

theorem pendingRow (regrouped : Regrouped env env') (keyed : env.transaction.WellKeyed b.rt)
    (message : Entity b.State) : env'.PendingRow message ↔ env.PendingRow message := by
  rw [Env.PendingRow, regrouped.sameId, regrouped.rows]
  exact regrouped.writes.pendingRow_iff keyed (fun _ row => groupRows_typ row) env.rows env.id
    message

theorem keyed (regrouped : Regrouped env env') (keyed : env.transaction.WellKeyed b.rt) :
    env'.transaction.WellKeyed b.rt := regrouped.writes.wellKeyed keyed

theorem unbuffered (regrouped : Regrouped env env') (keyed : env.transaction.WellKeyed b.rt)
    (unbuffered : env.Unbuffered) : env'.Unbuffered :=
  ⟨regrouped.commitRow.trans unbuffered.commit,
    fun message row => unbuffered.messages message ((regrouped.pendingRow keyed message).mp row)⟩

end Regrouped

theorem Quiet.regrouped (quiet : Quiet env env') : Regrouped env env' := by
  obtain ⟨group, tx, rfl, -, writes⟩ := quiet
  exact ⟨rfl, rfl, writes.mono fun _ same => .inl same⟩

theorem Merges.regrouped {merged : Env b} {answer : DecryptedMessage b} {queued : Option Nat}
    (merges : Merges b env message merged answer queued) : Regrouped env merged :=
  ⟨merges.sameHandle.1, merges.sameHandle.2.1, merges.writes⟩

theorem Quiet.epoch (quiet : Quiet env env') : env'.group.epoch = env.group.epoch := by
  obtain ⟨group, tx, rfl, kept, -⟩ := quiet
  exact kept.epoch

theorem regrouped_written (env : Env b) (group : b.Group) : Regrouped env (env.written group) :=
  ⟨rfl, rfl, (env.written_writes group).mono fun _ same => .inl same⟩

/-- Receiving messages writes the rows of the group and empties buffers, and does nothing else
to the rows of the conversation. -/
theorem stable_of_regrouped {inv : Env b → Prop}
    (regrouped : ∀ env env', inv env → Regrouped env env' → inv env')
    (uncommitted : ∀ env, inv env → inv env.uncommitted) (emptied : ∀ env, inv env → inv { env with
      transaction := env.transaction.removePendingMessagesByConversationId env.id }) :
    Stable b inv where
  changed := fun env group holds _ => regrouped env _ holds ⟨rfl, rfl, .refl⟩
  written := fun env group holds _ => regrouped env _ holds (regrouped_written env group)
  merged := fun env group holds _ => regrouped env _ holds (regrouped_written env group)
  keyPairs := fun env keys holds => regrouped env _ holds
    ⟨rfl, rfl, (withoutKeyPairs_writes env.transaction keys).mono fun _ typ => .inr typ⟩
  uncommitted := uncommitted
  emptied := emptied
  queued := by
    intro env epoch holds
    cases epoch with
    | none => exact holds
    | some epoch => exact regrouped env _ holds ⟨rfl, rfl, .refl⟩

/-! ### Buffers that stay empty -/

/-- Receiving messages does not fill the buffers: that is left to the outermost call. -/
theorem stable_uncommitted : Stable b fun env : Env b =>
    env.transaction.WellKeyed b.rt ∧ env.commitRow = none := by
  apply stable_of_regrouped
  · rintro env env' ⟨keyed, empty⟩ regrouped
    exact ⟨regrouped.keyed keyed, regrouped.commitRow.trans empty⟩
  · rintro env ⟨keyed, -⟩
    exact ⟨KeystoreTransaction.wellKeyed_removeByEntityId b.rt _ _ keyed,
      KeystoreTransaction.read_remove_self b.rt _ _ _⟩
  · rintro env ⟨keyed, empty⟩
    refine ⟨KeystoreTransaction.wellKeyed_removePendingMessages b.rt _ _ keyed, ?_⟩
    rw [← empty]
    exact KeystoreTransaction.read_removePendingMessages _ _ keyed
      (by simp [bufferedCommitEntityId])

theorem pendingRow_of_uncommitted {message : Entity b.State}
    (row : env.uncommitted.PendingRow message) : env.PendingRow message :=
  KeystoreTransaction.pendingRow_of_removeByEntityId row

theorem commitRow_uncommitted (env : Env b) : env.uncommitted.commitRow = none :=
  KeystoreTransaction.read_remove_self b.rt _ _ _

theorem stable_drained : Stable b fun env : Env b =>
    env.transaction.WellKeyed b.rt ∧ ∀ message, ¬ env.PendingRow message := by
  apply stable_of_regrouped
  · rintro env env' ⟨keyed, empty⟩ regrouped
    exact ⟨regrouped.keyed keyed,
      fun message row => empty message ((regrouped.pendingRow keyed message).mp row)⟩
  · rintro env ⟨keyed, empty⟩
    exact ⟨KeystoreTransaction.wellKeyed_removeByEntityId b.rt _ _ keyed,
      fun message row => empty message (pendingRow_of_uncommitted row)⟩
  · rintro env ⟨keyed, empty⟩
    exact ⟨KeystoreTransaction.wellKeyed_removePendingMessages b.rt _ _ keyed,
      fun message row => empty message (KeystoreTransaction.pendingRow_of_removed row)⟩

theorem stable_unstored : Stable b (Env.Unstored (b := b)) := by
  apply stable_of_regrouped
  · intro env env' unstored regrouped
    rw [Env.Unstored, regrouped.rows, regrouped.sameId]
    exact unstored
  · exact fun env unstored => unstored
  · exact fun env unstored => unstored

theorem Env.Unstored.emptied (unstored : env.Unstored) (tx : KeystoreTransaction b.State)
    (message : Entity b.State) :
    ¬ (tx.removePendingMessagesByConversationId env.id).PendingRow env.rows env.id message :=
  fun row => unstored message (KeystoreTransaction.mem_of_pendingRow_removed row) row.1

/-! ### The replay after a commit -/

theorem listed_of_restored_none (serialises : Serialises b)
    (restores : restorePendingMessages (decryptMessageInner b · .none) .decryptAndClear env =
      .ok none env') : env.listed = [] := by
  obtain ⟨decoded, decodes, results, seat, taken⟩ := replayable_of_ok serialises
    restores
  obtain ⟨_, -, -, restores'⟩ :=
    restorePendingMessages_ok serialises decodes taken
  rw [restores] at restores'
  have nothing : results = [] := by
    injection restores' with same
    cases results with
    | nil => rfl
    | cons result rest => cases same
  -- as many results as listed messages
  have lengths := length_absorbAll _ _ _ _ _ taken
  rw [length_replayOrder, (decodable_of_mapM _ _ decodes).2, nothing] at lengths
  exact List.eq_nil_of_length_eq_zero lengths.symm

theorem drained_of_restoring (serialises : Serialises b) (laws : EpochLaws b)
    {answer : Option (List (BufferedDecryptedMessage b))}
    (keyed : env.transaction.WellKeyed b.rt) (drains : env.Drains)
    (restores : restoring b env = .ok answer env') (message : Entity b.State) :
    ¬ env'.PendingRow message := by
  simp only [restoring, restoreAndClearPendingMessages, bind, EStateM.bind] at restores
  cases called : restorePendingMessages (decryptMessageInner b · .none) .decryptAndClear env with
  | error e last =>
    rw [called] at restores
    cases restores
  | ok results last =>
    rw [called] at restores
    have keeps : ∀ {inv : Env b → Prop}, Stable b inv → inv env → inv last := by
      intro inv stable holds
      have kept := keeps_restorePendingMessages stable.emptied
        (keeps_decryptWithoutRestore stable serialises laws recursionDepth) .decryptAndClear env holds
      have sameOp : restorePendingMessages (decryptWithoutRestore b recursionDepth)
          .decryptAndClear env = .ok results last := called
      rw [sameOp] at kept
      exact kept
    cases results with
    | some decryptedMessages =>
      cases restores
      exact (keeps stable_unstored drains.unstored).emptied last.transaction message
    | none =>
      cases restores
      have empty := drains.listed (listed_of_restored_none serialises called)
      exact (keeps stable_drained ⟨keyed, empty⟩).2 message

theorem restoring_of_drains (serialises : Serialises b) (drains : env.Drains)
    {e : Error} : restoring b env ≠ .error e env' := by
  intro fails
  obtain ⟨decoded, decodes, results, seat, taken⟩ := drains.replayable
  obtain ⟨_, -, restores⟩ := restoring_ok serialises decodes taken
  rw [fails] at restores
  cases restores

/-! ### Receiving a message -/

/-- The message is processed at `env'` as `message'`: itself, or the buffered commit that is tried
again once its proposal is stored. -/
inductive Reached (b : Backend) : Env b → MlsMessageIn → Env b → MlsMessageIn → Prop
  | self (env : Env b) (message : MlsMessageIn) : Reached b env message env message
  | buffered {env stored env' : Env b} {message waiting message' : MlsMessageIn} {commit : Bytes}
      (quiet : Quiet env stored) (buffered : stored.seat.buffered = some commit)
      (decodes : b.tlsDeserialize commit = some waiting)
      (inner : Reached b stored waiting env' message') : Reached b env message env' message'

/-- Every own commit that comes back can be answered. -/
def AnswersOwn (b : Backend) (env : Env b) (message : MlsMessageIn) : Prop :=
  ∀ env' message', Reached b env message env' message' → ∀ echo : OwnEcho b env' message',
    ∃ answer, ownCommitAnswer b env'.configuration.cipherSuite echo.mergedEnv.group = .ok answer

theorem AnswersOwn.buffered {stored : Env b} {waiting : MlsMessageIn} {commit : Bytes}
    (answers : AnswersOwn b env message) (quiet : Quiet env stored)
    (isWaiting : stored.seat.buffered = some commit)
    (decodes : b.tlsDeserialize commit = some waiting) : AnswersOwn b stored waiting :=
  fun env' message' reached => answers env' message' (.buffered quiet isWaiting decodes reached)

/-- The group stays in its epoch, and nothing appears in the buffers. -/
structure Unmoved (env env' : Env b) : Prop where
  sameId : env'.id = env.id
  epoch : env'.group.epoch = env.group.epoch
  commit : env'.commitRow = env.commitRow ∨ env'.commitRow = none
  messages : ∀ message, env'.PendingRow message → env.PendingRow message

theorem Quiet.unmoved (quiet : Quiet env env')
    (keyed : env.transaction.WellKeyed b.rt) : Unmoved env env' :=
  ⟨quiet.regrouped.sameId, quiet.epoch, .inl quiet.regrouped.commitRow,
    fun message => (quiet.regrouped.pendingRow keyed message).mp⟩

theorem Unmoved.trans {middle : Env b} (first : Unmoved env middle)
    (second : Unmoved middle env') : Unmoved env env' where
  sameId := second.sameId.trans first.sameId
  epoch := second.epoch.trans first.epoch
  commit := by
    rcases second.commit with same | gone
    · rw [same]
      exact first.commit
    · exact .inr gone
  messages := fun message row => first.messages message (second.messages message row)

theorem Unmoved.tended (unmoved : Unmoved env env') (tended : env.Tended) : env'.Tended where
  commit := by
    intro entity row
    rw [unmoved.sameId, unmoved.epoch]
    rcases unmoved.commit with same | gone
    · exact tended.commit entity (same.symm.trans row)
    · rw [gone] at row
      cases row
  messages := by
    intro message row
    rw [unmoved.sameId, unmoved.epoch]
    exact tended.messages message (unmoved.messages message row)

/-- What receiving a message does to the buffers: it leaves the epoch or drains them.  Whether the
buffered commit survives a drained buffer is settled by the outermost call. -/
def Moves (env : Env b) : EStateM.Result Error (Env b) (DecryptedMessage b) → Prop
  | .ok decrypted env' => (decrypted.isActive = true ∧ Unmoved env env') ∨
      ((∀ message, ¬ env'.PendingRow message) ∧
        (env.commitRow = none → env'.commitRow = none))
  | .error _ env' => Quiet env env'

theorem moves_advanced (serialises : Serialises b) (laws : EpochLaws b) {merged : Env b}
    {answer decrypted : DecryptedMessage b} {queued : Option Nat}
    {results : Option (List (BufferedDecryptedMessage b))} (keyed : env.transaction.WellKeyed b.rt)
    (merges : Merges b env message merged answer queued) (drains : merged.Drains)
    (restores : restoring b merged = .ok results env') :
    Moves env (.ok decrypted (env'.queued queued)) := by
  have keyedMerged := merges.regrouped.keyed keyed
  have drained := drained_of_restoring serialises laws keyedMerged drains restores
  refine .inr ⟨fun message row => drained message ?_, fun empty => ?_⟩
  · cases queued with
    | none => exact row
    | some epoch => exact row
  · have kept := stable_restoring stable_uncommitted serialises laws merged
      ⟨keyedMerged, merges.regrouped.commitRow.trans empty⟩
    rw [restores] at kept
    cases queued with
    | none => exact kept.2
    | some epoch => exact kept.2

theorem moves_of_receives (serialises : Serialises b) (laws : EpochLaws b)
    (went : Receives b depth env message result) (keyed : env.transaction.WellKeyed b.rt)
    (drains : ∀ merged, Applied b env message merged → merged.Drains)
    (answers : AnswersOwn b env message) : Moves env result := by
  induction went with
  | limit env message => exact .refl env
  | answered quiet answer => exact .inl ⟨answer.active _ rfl, quiet.unmoved keyed⟩
  | refused quiet answer => exact quiet
  | unanswered echo fails =>
    obtain ⟨answer, answered⟩ := answers _ _ (.self _ _) echo
    rw [fails] at answered
    cases answered
  | blocked merges fails =>
    exact absurd fails (restoring_of_drains serialises (drains _ (.delivered merges)))
  | advanced merges restores =>
    exact moves_advanced serialises laws keyed merges (drains _ (.delivered merges)) restores
  | retried quiet waiting decodes inner ih =>
    have keyedStored := quiet.regrouped.keyed keyed
    have moves := ih keyedStored
      (fun merged applied => drains merged (.buffered quiet waiting decodes applied))
      (answers.buffered quiet waiting decodes)
    rcases moves with ⟨active, unmoved⟩ | ⟨drained, -⟩
    · refine .inl ⟨active, (quiet.unmoved keyed).trans (unmoved.trans ?_)⟩
      exact ⟨rfl, rfl, .inr (commitRow_uncommitted _), fun _ => pendingRow_of_uncommitted⟩
    · exact .inr ⟨fun message row => drained message (pendingRow_of_uncommitted row),
        fun _ => commitRow_uncommitted _⟩
  | waited quiet identity waiting decodes inner ih =>
    have moves := ih (quiet.regrouped.keyed keyed)
      (fun merged applied => drains merged (.buffered quiet waiting decodes applied))
      (answers.buffered quiet waiting decodes)
    exact .inl ⟨rfl, (quiet.trans moves).unmoved keyed⟩
  | failed quiet waiting decodes other inner ih =>
    have moves := ih (quiet.regrouped.keyed keyed)
      (fun merged applied => drains merged (.buffered quiet waiting decodes applied))
      (answers.buffered quiet waiting decodes)
    exact quiet.trans moves

/-! ### `decrypt_message` -/

/-- A message leaves the buffers in order: every commit it has merged finds messages that can be
replayed without touching the membership, an own commit can be answered, and a commit that was
not waiting itself finds no commit waiting. -/
structure Orderly (b : Backend) (env : Env b) (message : MlsMessageIn) : Prop where
  calm : ∀ merged, Applied b env message merged → merged.Calm
  drains : ∀ merged, Applied b env message merged → merged.Drains
  answers : AnswersOwn b env message
  alone : ∀ merged answer queued, Merges b env message merged answer queued →
    env.commitRow = none

/-- What `decrypt_message_inner` leaves for the outermost call. -/
def Settled (env : Env b) (message : MlsMessageIn) :
    EStateM.Result Error (Env b) (DecryptedMessage b) → Prop
  | .ok decrypted env' => (decrypted.isActive = true ∧ Unmoved env env') ∨ env'.Unbuffered
  | .error e env' => Quiet env env' ∧
      (e = .bufferedCommit → Asserts message env.group.epoch) ∧
      (∀ epoch, e = .bufferedFutureMessage epoch → Asserts message (env.group.epoch + 1))

theorem settled_of_receives (serialises : Serialises b) (laws : EpochLaws b)
    (went : Receives b depth env message result) (keyed : env.transaction.WellKeyed b.rt)
    (orderly : Orderly b env message) : Settled env message result := by
  have moves := moves_of_receives serialises laws went keyed orderly.drains orderly.answers
  cases went with
  | limit => exact ⟨moves, by simp, by simp⟩
  | answered quiet answer => exact .inl ⟨answer.active _ rfl, quiet.unmoved keyed⟩
  | refused quiet answer =>
    exact ⟨quiet, fun same => answer.buffered (congrArg _ same),
      fun epoch same => answer.future epoch (congrArg _ same)⟩
  | unanswered echo fails =>
    have plain := error_of_ownAnswer fails
    exact ⟨moves, fun same => absurd same plain.commit,
      fun epoch same => absurd same (plain.future epoch)⟩
  | blocked merges fails =>
    exact absurd fails (restoring_of_drains serialises (orderly.drains _ (.delivered merges)))
  | advanced merges restores =>
    rcases moves with unmoved | ⟨drained, uncommitted⟩
    · exact .inl unmoved
    · exact .inr ⟨uncommitted (orderly.alone _ _ _ merges), drained⟩
  | retried quiet waiting decodes inner =>
    rcases moves with unmoved | ⟨drained, -⟩
    · exact .inl unmoved
    · exact .inr ⟨commitRow_uncommitted _, drained⟩
  | waited quiet identity waiting decodes inner =>
    have moves := moves_of_receives serialises laws inner (quiet.regrouped.keyed keyed)
      (fun merged applied => orderly.drains merged (.buffered quiet waiting decodes applied))
      (orderly.answers.buffered quiet waiting decodes)
    exact .inl ⟨rfl, (quiet.trans moves).unmoved keyed⟩
  | failed quiet waiting decodes other inner => exact ⟨moves, by simp, by simp⟩

/-- No pending message has appeared since `origin`, in this or any other conversation. -/
def Shrinks (origin env : Env b) : Prop :=
  ∀ id message, env.transaction.PendingRow env.rows id message →
    origin.transaction.PendingRow origin.rows id message

theorem stable_shrinks (origin : Env b) : Stable b fun env : Env b =>
    env.transaction.WellKeyed b.rt ∧ Shrinks origin env := by
  apply stable_of_regrouped
  · rintro env env' ⟨keyed, shrinks⟩ regrouped
    refine ⟨regrouped.keyed keyed, fun id message row => shrinks id message ?_⟩
    rw [regrouped.rows] at row
    exact (regrouped.writes.pendingRow_iff keyed (fun _ row => groupRows_typ row) env.rows id
      message).mp row
  · rintro env ⟨keyed, shrinks⟩
    exact ⟨KeystoreTransaction.wellKeyed_removeByEntityId b.rt _ _ keyed, fun id message row =>
      shrinks id message (KeystoreTransaction.pendingRow_of_removeByEntityId row)⟩
  · rintro env ⟨keyed, shrinks⟩
    exact ⟨KeystoreTransaction.wellKeyed_removePendingMessages b.rt _ _ keyed,
      fun id message row => shrinks id message
        (KeystoreTransaction.pendingRow_of_removed row)⟩

/-- What `decrypt_message` leaves in the buffers. -/
def LeavesTended (origin : Env b) (bytes : Bytes) :
    EStateM.Result Error (Env b) (DecryptedMessage b) → Prop
  | .ok decrypted env' => Shrinks origin env' ∧
      (decrypted.isActive = true → env'.Tended) ∧ (decrypted.isActive = false → env'.Unbuffered)
  | .error _ env' => env'.Tended ∧ ∀ id message, env'.transaction.PendingRow env'.rows id message →
      origin.transaction.PendingRow origin.rows id message ∨
        message = .mlsPendingMessage origin.id bytes

theorem tended_bufferFuture (tended : env.Tended) (claims : Claims b bytes (env.group.epoch + 1)) :
    ({ env with transaction := env.transaction.save b.rt (.mlsPendingMessage env.id bytes) } :
      Env b).Tended where
  commit := by
    intro entity row
    refine tended.commit entity (Eq.trans (Eq.symm ?_) row)
    exact KeystoreTransaction.read_save_other _ _
      (fun same => by cases congrArg EntityId.typ same)
  messages := by
    intro message row
    rcases KeystoreTransaction.pendingRow_save row with older | rfl
    · exact tended.messages message older
    · exact ⟨bytes, rfl, claims⟩

theorem tended_bufferCommit (keyed : env.transaction.WellKeyed b.rt)
    (tended : env.Tended) (claims : Claims b bytes env.group.epoch) :
    ({ env with transaction := env.transaction.save b.rt (.storedBufferedCommit env.id bytes) } :
      Env b).Tended where
  commit := by
    intro entity row
    have saved := KeystoreTransaction.read_save_self b.rt env.transaction env.rows
      (.storedBufferedCommit env.id bytes)
    cases saved.symm.trans row
    exact ⟨bytes, rfl, claims⟩
  messages := by
    intro message row
    have writes : Writes b.rt (· = bufferedCommitEntityId env.id) env.transaction
        (env.transaction.save b.rt (.storedBufferedCommit env.id bytes)) := .save _ rfl .refl
    exact tended.messages message
      ((writes.pendingRow_iff keyed (by simp [bufferedCommitEntityId]) env.rows env.id message).mp
        row)

theorem regrouped_wiped (env : Env b) : Regrouped env env.wiped :=
  ⟨rfl, rfl, .remove _ (.inl rfl) .refl⟩

theorem leavesTended_settle (serialises : Serialises b) (removes : RemovesProposals b)
    {origin : Env b} (decodes : b.tlsDeserialize bytes = some message) (tended : origin.Tended)
    (keyed : origin.transaction.WellKeyed b.rt)
    (kept : env.transaction.WellKeyed b.rt ∧ Shrinks origin env)
    {result : Except Error (DecryptedMessage b)}
    (settled : Settled origin message (match result with
      | .ok decrypted => .ok decrypted env
      | .error e => .error e env)) : LeavesTended origin bytes (settle b bytes result env) := by
  cases result with
  | error e =>
    obtain ⟨quiet, commits, futures⟩ := settled
    have stays := (quiet.unmoved keyed).tended tended
    have sameId : env.id = origin.id := quiet.regrouped.sameId
    cases e with
    | bufferedFutureMessage epoch =>
      have claims : Claims b bytes (env.group.epoch + 1) := by
        rw [quiet.epoch]
        exact ⟨message, decodes, futures epoch rfl⟩
      refine ⟨tended_bufferFuture stays claims, ?_⟩
      intro id row saved
      rcases KeystoreTransaction.pendingRow_save saved with older | rfl
      · exact .inl (kept.2 id row older)
      · exact .inr (by rw [sameId])
    | bufferedCommit =>
      have claims : Claims b bytes env.group.epoch := by
        rw [quiet.epoch]
        exact ⟨message, decodes, commits rfl⟩
      refine ⟨tended_bufferCommit kept.1 stays claims, ?_⟩
      intro id row saved
      have writes : Writes b.rt (· = bufferedCommitEntityId env.id) env.transaction
          (env.transaction.save b.rt (.storedBufferedCommit env.id bytes)) := .save _ rfl .refl
      exact .inl (kept.2 id row
        ((writes.pendingRow_iff kept.1 (by simp [bufferedCommitEntityId]) env.rows id row).mp saved))
    | _ => exact ⟨stays, fun id row found => .inl (kept.2 id row found)⟩
  | ok decrypted =>
    cases active : decrypted.isActive with
    | true =>
      simp only [settle, active]
      refine ⟨kept.2, fun _ => ?_, fun inactive => ?_⟩
      · rcases settled with ⟨-, unmoved⟩ | unbuffered
        · exact unmoved.tended tended
        · exact unbuffered.tended
      · rw [active] at inactive
        cases inactive
    | false =>
      -- only a merged commit removes the client, and it has drained the buffers
      have unbuffered : env.Unbuffered := by
        rcases settled with ⟨isActive, -⟩ | unbuffered
        · rw [active] at isActive
          cases isActive
        · exact unbuffered
      obtain ⟨group, wiped⟩ := wipe_ok serialises removes env
      have regrouped := (regrouped_written env group).trans (regrouped_wiped (env.written group))
      simp only [settle, active, bind, EStateM.bind, Bool.not_false, if_true, wiped]
      refine ⟨?_, fun isActive => ?_, fun _ => regrouped.unbuffered kept.1 unbuffered⟩
      · intro id row found
        exact kept.2 id row ((regrouped.writes.pendingRow_iff kept.1 (fun _ row => groupRows_typ row)
          env.rows id row).mp found)
      · rw [active] at isActive
        cases isActive

/-- **What `decrypt_message` leaves in the buffers**: messages that claim the epoch they wait for,
and nothing at all if the client was removed. -/
theorem leavesTended_decryptMessage (serialises : Serialises b) (removes : RemovesProposals b)
    (laws : EpochLaws b) (keyed : env.transaction.WellKeyed b.rt)
    (tended : env.Tended)
    (orderly : ∀ message, b.tlsDeserialize bytes = some message → Orderly b env message) :
    LeavesTended env bytes (decryptMessage b bytes env) := by
  cases decodes : b.tlsDeserialize bytes with
  | none =>
    simp only [decryptMessage, decodes]
    exact ⟨tended, fun id row found => .inl found⟩
  | some message =>
    have settled := settled_of_receives serialises laws
      (receives serialises laws recursionDepth env message) keyed (orderly message decodes)
    have kept := keeps_decryptMessageInner (stable_shrinks env) serialises laws message .asNecessary
      env ⟨keyed, fun _ _ row => row⟩
    have inner : decryptAsNecessary b recursionDepth message env =
        decryptMessageInner b message .asNecessary env := rfl
    rw [inner] at settled
    simp only [decryptMessage, decodes, bind, EStateM.bind, attempt]
    cases called : decryptMessageInner b message .asNecessary env with
    | ok decrypted env' =>
      rw [called] at settled kept
      exact leavesTended_settle serialises removes decodes tended keyed kept settled
    | error e env' =>
      rw [called] at settled kept
      exact leavesTended_settle serialises removes decodes tended keyed kept settled

end CoreCrypto.Conversation
