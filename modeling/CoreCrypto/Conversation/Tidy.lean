import CoreCrypto.Conversation.Buffers
import CoreCrypto.Conversation.Removal

/-!
# Buffered rows of a client

The two buffers over all conversations of a client.  A client is `Tidy` when every buffered
commit belongs to the epoch of a joined group, and every buffered message to the next one, or to
a group that is still pending; in the open transaction and in what is stored.
-/

namespace CoreCrypto.Conversation

open Keystore Library

variable {b : Backend}

/-- Every buffered row that can be read belongs to a group that can be read. -/
structure Belongs (b : Backend) (read : EntityId → Option (Entity b.State))
    (pending : ConversationId → Entity b.State → Prop) : Prop where
  commit : ∀ id entity, read (bufferedCommitEntityId id) = some entity →
    ∃ commit standing, entity = .storedBufferedCommit id commit ∧ StoredAs b read id standing ∧
      Claims b commit standing.epoch
  messages : ∀ id message, pending id message →
    ∃ bytes, message = .mlsPendingMessage id bytes ∧
      ((∃ standing, StoredAs b read id standing ∧ Claims b bytes (standing.epoch + 1)) ∨
        (read (groupEntityId id) = none ∧ (read (pendingGroupEntityId id)).isSome))

/-- What is buffered for the conversation belongs to a group that can be read. -/
structure BelongsTo (b : Backend) (read : EntityId → Option (Entity b.State))
    (pending : ConversationId → Entity b.State → Prop) (id : ConversationId) : Prop where
  commit : ∀ entity, read (bufferedCommitEntityId id) = some entity →
    ∃ commit standing, entity = .storedBufferedCommit id commit ∧ StoredAs b read id standing ∧
      Claims b commit standing.epoch
  messages : ∀ message, pending id message →
    ∃ bytes, message = .mlsPendingMessage id bytes ∧
      ((∃ standing, StoredAs b read id standing ∧ Claims b bytes (standing.epoch + 1)) ∨
        (read (groupEntityId id) = none ∧ (read (pendingGroupEntityId id)).isSome))

section Belonging

variable {read read' : EntityId → Option (Entity b.State)}
  {pending pending' : ConversationId → Entity b.State → Prop} {id : ConversationId}

theorem belongs_of_each (each : ∀ id, BelongsTo b read pending id) : Belongs b read pending :=
  ⟨fun id => (each id).commit, fun id => (each id).messages⟩

/-- What was buffered before belongs to the group that is still read. -/
theorem Belongs.belongsTo (belongs : Belongs b read pending)
    (group : read' (groupEntityId id) = read (groupEntityId id))
    (commit : read' (bufferedCommitEntityId id) = read (bufferedCommitEntityId id))
    (stillPending : (read (pendingGroupEntityId id)).isSome → (read' (pendingGroupEntityId id)).isSome)
    (older : ∀ message, pending' id message → pending id message) :
    BelongsTo b read' pending' id := by
  have storedAs (standing : Standing) (stored : StoredAs b read id standing) :
      StoredAs b read' id standing := by
    obtain ⟨entity, row, holds⟩ := stored
    exact ⟨entity, group.trans row, holds⟩
  constructor
  · intro entity row
    obtain ⟨commit, standing, isCommit, stored, claims⟩ :=
      belongs.commit id entity (commit.symm.trans row)
    exact ⟨commit, standing, isCommit, storedAs standing stored, claims⟩
  · intro message row
    obtain ⟨bytes, isMessage, belongsTo⟩ := belongs.messages id message (older message row)
    refine ⟨bytes, isMessage, ?_⟩
    rcases belongsTo with ⟨standing, stored, claims⟩ | ⟨unstored, isSome⟩
    · exact .inl ⟨standing, storedAs standing stored, claims⟩
    · exact .inr ⟨group.trans unstored, stillPending isSome⟩

end Belonging

namespace Scope

/-- The message is buffered for the conversation. -/
def PendingRow (scope : Scope b) (id : ConversationId) (message : Entity b.State) : Prop :=
  scope.transaction.PendingRow scope.rows id message

/-- The scope after a row was saved. -/
def saved (scope : Scope b) (entity : Entity b.State) : Scope b :=
  { scope with transaction := scope.transaction.save b.rt entity }

/-- Nothing is buffered for the conversation. -/
structure NoBuffers (scope : Scope b) (id : ConversationId) : Prop where
  commit : scope.row (bufferedCommitEntityId id) = none
  messages : ∀ message, ¬ scope.PendingRow id message

end Scope

structure Tidy (scope : Scope b) : Prop where
  live : Live scope
  stored : Belongs b (storedRow b.rt scope.rows)
    (fun id message => message.foreignId? = some id ∧ message ∈ scope.rows)
  current : Belongs b scope.row scope.PendingRow

theorem standing_unique {id : ConversationId} {standing other : Standing} {entity : Entity b.State}
    (holds : Holds b id standing entity) (holds' : Holds b id other entity) : standing = other := by
  obtain ⟨state, parentId, group, rfl, deserialises, -, rfl⟩ := holds
  obtain ⟨state', parentId', group', same, deserialises', -, rfl⟩ := holds'
  cases same
  rw [deserialises] at deserialises'
  cases deserialises'
  rfl

/-- The group that the rows belong to may be left out where nothing is buffered. -/
theorem Belongs.of_row {read : EntityId → Option (Entity b.State)}
    {pending : ConversationId → Entity b.State → Prop} (belongs : Belongs b read pending)
    {id : ConversationId} (noGroup : read (groupEntityId id) = none)
    (noPending : read (pendingGroupEntityId id) = none) :
    read (bufferedCommitEntityId id) = none ∧ ∀ message, ¬ pending id message := by
  have unstored : ∀ standing, ¬ StoredAs b read id standing := by
    rintro standing ⟨entity, row, -⟩
    rw [noGroup] at row
    cases row
  constructor
  · cases row : read (bufferedCommitEntityId id) with
    | none => rfl
    | some entity =>
      obtain ⟨commit, standing, -, stored, -⟩ := belongs.commit id entity row
      exact absurd stored (unstored standing)
  · intro message isPending
    obtain ⟨bytes, -, ⟨standing, stored, -⟩ | ⟨-, isSome⟩⟩ := belongs.messages id message isPending
    · exact unstored standing stored
    · simp [noPending] at isSome

/-! ### Handles -/

section Handle

variable {scope : Scope b} {id : ConversationId} {address : Nat} {env env' : Env b}

theorem tended_of_focused (belongs : Belongs b scope.row scope.PendingRow)
    (focused : Focused scope id address env) : env.Tended := by
  obtain ⟨entity, row, holds⟩ := focused.attached.agrees.row
  have sameRow : scope.row (groupEntityId id) = some entity := by
    rw [← row, Env.groupRow, focused.sameId, focused.rows, focused.transaction]
    rfl
  have agrees : ∀ standing, StoredAs b scope.row id standing → standing = env.group.standing := by
    rintro standing ⟨stored, found, held⟩
    rw [sameRow] at found
    cases found
    rw [focused.sameId] at holds
    exact standing_unique held holds
  constructor
  · intro buffered found
    rw [Env.commitRow, focused.sameId, focused.rows, focused.transaction] at found
    obtain ⟨commit, standing, rfl, stored, claims⟩ := belongs.commit id buffered found
    refine ⟨commit, by rw [focused.sameId], ?_⟩
    rw [agrees standing stored] at claims
    exact claims
  · intro message found
    rw [Env.PendingRow, focused.sameId, focused.rows, focused.transaction] at found
    obtain ⟨bytes, rfl, ⟨standing, stored, claims⟩ | ⟨unstored, -⟩⟩ :=
      belongs.messages id message found
    · refine ⟨bytes, by rw [focused.sameId], ?_⟩
      rw [agrees standing stored] at claims
      exact claims
    · rw [sameRow] at unstored
      cases unstored

theorem not_touched_commit {other : ConversationId} (different : other ≠ id) :
    ¬ Touched id (bufferedCommitEntityId other) := by
  simp [Touched, groupEntityId, bufferedCommitEntityId, different]

theorem noBuffers_unfocus (scope : Scope b) (address : Nat) (sameId : env'.id = id)
    (unbuffered : env'.Unbuffered) : (scope.unfocus address env').NoBuffers id := by
  subst sameId
  exact ⟨unbuffered.commit, unbuffered.messages⟩

end Handle

/-! ### Operations on one conversation -/

theorem Scope.NoBuffers.belongsTo {scope : Scope b} {id : ConversationId}
    (noBuffers : scope.NoBuffers id) : BelongsTo b scope.row scope.PendingRow id where
  commit := fun _ row => absurd row (by simp [noBuffers.commit])
  messages := fun message row => absurd row (noBuffers.messages message)

/-- Between the two scopes, only rows of the conversation were written. -/
structure Apart (id : ConversationId) (scope scope' : Scope b) : Prop where
  reads : ∀ entityId, ¬ Touched id entityId → entityId ≠ pendingGroupEntityId id →
    scope'.row entityId = scope.row entityId
  pending : ∀ other message, other ≠ id → scope'.PendingRow other message →
    scope.PendingRow other message

namespace Apart

variable {id : ConversationId} {scope middle scope' : Scope b}

theorem trans (first : Apart id scope middle) (second : Apart id middle scope') :
    Apart id scope scope' where
  reads := fun entityId other notPending =>
    (second.reads entityId other notPending).trans (first.reads entityId other notPending)
  pending := fun other message different row =>
    first.pending other message different (second.pending other message different row)

theorem of_writes {p : EntityId → Prop} (sameRows : scope'.rows = scope.rows)
    (writes : Writes b.rt p scope.transaction scope'.transaction)
    (keyed : scope.transaction.WellKeyed b.rt)
    (others : ∀ entityId, p entityId → entityId.typ ≠ .mlsPendingMessage)
    (within : ∀ entityId, p entityId → Touched id entityId ∨ entityId = pendingGroupEntityId id) :
    Apart id scope scope' where
  reads := by
    intro entityId untouched notPending
    rw [Scope.row, sameRows]
    exact writes.read_eq scope.rows entityId
      fun written => (within entityId written).elim untouched notPending
  pending := by
    intro other message _ row
    rw [Scope.PendingRow, sameRows] at row
    exact (writes.pendingRow_iff keyed others scope.rows other message).mp row

theorem emptied (keyed : scope.transaction.WellKeyed b.rt) :
    Apart id scope { scope with
      transaction := scope.transaction.removePendingMessagesByConversationId id } where
  reads := fun _ untouched _ =>
    KeystoreTransaction.read_removePendingMessages _ _ keyed
      fun typ => untouched (.inr (.inr (.inl typ)))
  pending := fun _ _ _ row => KeystoreTransaction.pendingRow_of_removed row

theorem unfocus {address : Nat} {env env' : Env b} (focused : Focused scope id address env)
    (reads : SameOutside env env') (pending : ∀ other message, other ≠ id →
      env'.transaction.PendingRow env'.rows other message →
        env.transaction.PendingRow env.rows other message) :
    Apart id scope (scope.unfocus address env') where
  reads := fun entityId untouched _ => row_unfocus focused reads untouched
  pending := by
    intro other message different row
    have older := pending other message different row
    rwa [focused.transaction, focused.rows] at older

/-- What is buffered for one conversation says nothing about the others. -/
theorem belongs (apart : Apart id scope scope') (before : Belongs b scope.row scope.PendingRow)
    (own : BelongsTo b scope'.row scope'.PendingRow id) :
    Belongs b scope'.row scope'.PendingRow := by
  refine belongs_of_each fun other => ?_
  by_cases different : other = id
  · exact different ▸ own
  · refine before.belongsTo ?_ ?_ ?_ fun message => apart.pending other message different
    · exact apart.reads _ (not_touched_group different) (by simp [groupEntityId, pendingGroupEntityId])
    · exact apart.reads _ (not_touched_commit different)
        (by simp [bufferedCommitEntityId, pendingGroupEntityId])
    · rw [apart.reads _ (not_touched_pendingGroup other) (by simp [pendingGroupEntityId, different])]
      exact fun isSome => isSome

end Apart

theorem belongsTo_unfocus (scope : Scope b) (address : Nat) {id : ConversationId} {env' : Env b}
    (sameId : env'.id = id) (tended : env'.Tended) (agrees : RowAgrees env') :
    BelongsTo b (scope.unfocus address env').row (scope.unfocus address env').PendingRow id := by
  subst sameId
  obtain ⟨entity, row, holds⟩ := agrees.row
  have stored : StoredAs b (scope.unfocus address env').row env'.id env'.group.standing :=
    ⟨entity, row, holds⟩
  constructor
  · intro buffered found
    obtain ⟨commit, rfl, claims⟩ := tended.commit buffered found
    exact ⟨commit, env'.group.standing, rfl, stored, claims⟩
  · intro message found
    obtain ⟨bytes, rfl, claims⟩ := tended.messages message found
    exact ⟨bytes, rfl, .inl ⟨env'.group.standing, stored, claims⟩⟩

variable {scope scope' : Scope b}

/-- Rows that are stored are not looked at until the transaction ends. -/
theorem Tidy.of_current (tidy : Tidy scope) (live : Live scope')
    (sameRows : scope'.rows = scope.rows)
    (current : Belongs b scope'.row scope'.PendingRow) : Tidy scope' where
  live := live
  stored := by
    rw [sameRows]
    exact tidy.stored
  current := current

theorem Tidy.of_same (tidy : Tidy scope) (live : Live scope') (sameRows : scope'.rows = scope.rows)
    (sameTransaction : scope'.transaction = scope.transaction) : Tidy scope' := by
  have sameRow : scope'.row = scope.row := by
    funext entityId
    rw [Scope.row, sameRows, sameTransaction, Scope.row]
  have samePending : scope'.PendingRow = scope.PendingRow := by
    funext id message
    rw [Scope.PendingRow, sameRows, sameTransaction, Scope.PendingRow]
  refine tidy.of_current live sameRows ?_
  rw [sameRow, samePending]
  exact tidy.current

/-- At the start of a transaction, what is stored is what is read. -/
theorem belongs_new (fresh : scope.transaction = .new)
    (stored : Belongs b (storedRow b.rt scope.rows)
      (fun id message => message.foreignId? = some id ∧ message ∈ scope.rows)) :
    Belongs b scope.row scope.PendingRow := by
  have row : scope.row = storedRow b.rt scope.rows := by
    funext entityId
    rw [Scope.row, fresh, KeystoreTransaction.read_new]
  have pending : scope.PendingRow =
      fun id message => message.foreignId? = some id ∧ message ∈ scope.rows := by
    funext id message
    rw [Scope.PendingRow, fresh, KeystoreTransaction.pendingRow_new]
  rw [row, pending]
  exact stored

theorem tidy_abort (tidy : Tidy scope) : Tidy scope.abort :=
  ⟨live_abort tidy.live, tidy.stored, belongs_new rfl tidy.stored⟩

theorem tidy_finish (tidy : Tidy scope) : Tidy scope.finish := by
  have live := live_finish tidy.live
  unfold Scope.finish at live ⊢
  cases executed : scope.transaction.execute b.rt scope.rows with
  | error e =>
    rw [executed] at live
    exact ⟨live, tidy.stored, tidy.current⟩
  | ok written =>
    rw [executed] at live
    have readsSame := storedRow_finished tidy.live.keyed executed
    have stored : Belongs b (storedRow b.rt written)
        (fun id message => message.foreignId? = some id ∧ message ∈ written) := by
      refine belongs_of_each fun id => tidy.current.belongsTo (readsSame _ (.inl rfl))
        (readsSame _ (.inr rfl)) (fun isSome => ?_) fun message row => ?_
      · rcases pendingRow_finished tidy.live.keyed executed id with same | ⟨isStored, -⟩
        · rwa [same]
        · exact isStored
      · exact KeystoreTransaction.pendingRow_of_execute executed row.1 row.2
    exact ⟨live, stored, belongs_new rfl stored⟩

/-! ### `conversation` -/

theorem conversation_reads (live : Live scope) (id : ConversationId) :
    (finalState (conversation b id) scope).rows = scope.rows ∧
      (finalState (conversation b id) scope).transaction = scope.transaction := by
  cases cached : scope.conversationCache.peek id with
  | some address =>
    simp only [finalState, conversation, bind, EStateM.bind,
      getOrFetch_cached cached]
    exact ⟨rfl, rfl⟩
  | none =>
    cases row : scope.row (groupEntityId id) with
    | some entity =>
      obtain ⟨epoch, state, parentId, group, rfl, deserialises, groupId, standing⟩ :=
        live.rows.groups id entity row
      have active : group.isActive = true := congrArg Standing.isActive standing
      simp only [finalState, conversation, bind, EStateM.bind,
        getOrFetch_loaded cached row deserialises active]
      exact ⟨rfl, rfl⟩
    | none =>
      simp only [finalState, conversation_missing cached row, and_self]

/-- What `conversation` leaves of a tidy client. -/
def FindsTidy (id : ConversationId) (scope : Scope b) :
    EStateM.Result (ScopeError b) (Scope b) Nat → Prop
  | .ok address scope' => Tidy scope' ∧ scope'.rows = scope.rows ∧
      scope'.transaction = scope.transaction ∧ ∃ env, Focused scope' id address env
  | .error _ scope' => scope' = scope ∧ scope.conversationCache.peek id = none ∧
      scope.row (groupEntityId id) = none

theorem findsTidy_conversation (tidy : Tidy scope) (id : ConversationId) :
    FindsTidy id scope (conversation b id scope) := by
  have finds := finds_conversation tidy.live id
  obtain ⟨sameRows, sameTransaction⟩ := conversation_reads tidy.live id
  rw [finalState] at sameRows sameTransaction
  cases called : conversation b id scope with
  | error e scope' =>
    rw [called] at finds
    exact finds
  | ok address scope' =>
    rw [called] at finds sameRows sameTransaction
    obtain ⟨live, seated, cached⟩ := finds
    exact ⟨tidy.of_same live sameRows sameTransaction, sameRows, sameTransaction,
      seated.focused live cached⟩

/-! ### Messages to a joined conversation -/

section Message

variable {scope : Scope b} {id : ConversationId} {address : Nat} {env : Env b}

/-- A message to a joined conversation leaves the client tidy, and nothing buffered if it removes the
client. -/
theorem tidy_decryptMessage (laws : RemovalLaws b) (tidy : Tidy scope)
    (focused : Focused scope id address env) {payload : Bytes}
    (orderly : ∀ message, b.tlsDeserialize payload = some message → Orderly b env message) :
    Tidy (finalState (withHandle "decrypting message" address (decryptMessage b payload)) scope) ∧
      ∀ decrypted after, withHandle "decrypting message" address (decryptMessage b payload) scope =
        .ok decrypted after → decrypted.isActive = false → after.NoBuffers id := by
  have calm : ∀ message, b.tlsDeserialize payload = some message →
      ∀ merged, Applied b env message merged → merged.Calm :=
    fun message decodes => (orderly message decodes).calm
  have ends := ends_decryptMessage laws tidy.live focused calm
  have leaves := leaves_decryptMessage laws.serialises laws.roundTrips laws.removes laws.epochs
    laws.activity focused.attached focused.isActive calm
  have tended := leavesTended_decryptMessage laws.serialises laws.removes laws.epochs
    focused.attached.within.keyed (tended_of_focused tidy.current focused) orderly
  simp only [finalState, withHandle, focused.focus] at ends ⊢
  cases called : decryptMessage b payload env with
  | error e env' =>
    rw [called] at ends leaves tended
    obtain ⟨-, attached⟩ := leaves
    have sameId := attached.within.id.trans focused.sameId
    refine ⟨?_, fun _ _ impossible => by cases impossible⟩
    refine tidy.of_current ends (attached.within.rows.trans focused.rows) ?_
    refine (Apart.unfocus focused attached.within.reads ?_).belongs tidy.current
      (belongsTo_unfocus scope address sameId tended.1 attached.agrees)
    intro other message different row
    rcases tended.2 other message row with older | rfl
    · exact older
    · -- the buffered message is one of this conversation
      have foreign := row.1
      rw [focused.sameId] at foreign
      exact absurd (Option.some.inj foreign).symm different
  | ok decrypted env' =>
    rw [called] at ends leaves tended
    obtain ⟨-, attached, dropped⟩ := leaves
    obtain ⟨shrinks, isTended, unbuffered⟩ := tended
    cases active : decrypted.isActive with
    | true =>
      have attached := attached active
      refine ⟨tidy.of_current ends.1 (attached.within.rows.trans focused.rows) ?_, ?_⟩
      · exact (Apart.unfocus focused attached.within.reads fun other message _ =>
          shrinks other message).belongs tidy.current (belongsTo_unfocus scope address
            (attached.within.id.trans focused.sameId) (isTended active) attached.agrees)
      · intro _ _ same inactive
        cases same
        rw [active] at inactive
        cases inactive
    | false =>
      have within := (dropped active).within
      have empty : (scope.unfocus address env').NoBuffers id :=
        noBuffers_unfocus scope address (within.id.trans focused.sameId) (unbuffered active)
      refine ⟨tidy.of_current ends.1 (within.rows.trans focused.rows) ?_, ?_⟩
      · exact (Apart.unfocus focused within.reads fun other message _ =>
          shrinks other message).belongs tidy.current empty.belongsTo
      · intro _ _ same _
        cases same
        exact empty

end Message

/-! ### Own commits and wiping -/

section Commit

variable {scope : Scope b} {id : ConversationId} {address : Nat} {env env' : Env b}

/-- What a committing operation leaves of a handle. -/
structure Retained (origin env : Env b) : Prop where
  attached : Attached origin env
  isActive : env.group.isActive = true
  regrouped : Regrouped origin env

theorem working_retained (laws : RemovalLaws b) (origin : Env b) :
    Working b Kept Kept (Retained origin) := by
  have stable := stable_attached laws.roundTrips laws.serialises origin
  refine ⟨?_, ?_, ?_, ?_⟩
  · intro env group retained kept
    exact ⟨stable.changed env group retained.attached kept, kept.isActive.trans retained.isActive,
      retained.regrouped.trans ⟨rfl, rfl, .refl⟩⟩
  · intro env group retained kept
    exact ⟨stable.written env group retained.attached kept, kept.isActive.trans retained.isActive,
      retained.regrouped.trans (regrouped_written env group)⟩
  · rintro env accepted historyClients clock ⟨⟨within, agrees⟩, isActive, regrouped⟩
    exact ⟨⟨⟨within.id, within.configuration, within.rows, within.conversationCache, within.keyed,
      within.reads⟩, ⟨agrees.sameId, agrees.row⟩⟩, isActive, regrouped.trans ⟨rfl, rfl, .refl⟩⟩
  · apply keeps_mergeCommit laws.serialises
    · intro env merged retained merges
      have attached := stable.merged _ merged
        (stable.keyPairs env env.group.ownLeafNodes retained.attached)
        (laws.epochs.pendingMerged _ _ merges)
      exact ⟨stable.queued _ (some merged.epoch) attached,
        (laws.activity.ownCommit _ _ merges).trans retained.isActive,
        retained.regrouped.trans ⟨rfl, rfl, env.commitMerged_writes merged⟩⟩
    · intro env code group retained fails
      have kept := laws.epochs.pendingFailed _ _ _ fails
      exact ⟨stable.changed env group retained.attached kept,
        kept.isActive.trans retained.isActive, retained.regrouped.trans ⟨rfl, rfl, .refl⟩⟩

theorem Scope.NoBuffers.unbuffered (noBuffers : scope.NoBuffers id)
    (focused : Focused scope id address env) : env.Unbuffered := by
  constructor
  · rw [Env.commitRow, focused.sameId, focused.rows, focused.transaction]
    exact noBuffers.commit
  · intro message row
    rw [Env.PendingRow, focused.sameId, focused.rows, focused.transaction] at row
    exact noBuffers.messages message row

theorem Regrouped.shrinks (regrouped : Regrouped env env')
    (keyed : env.transaction.WellKeyed b.rt) : Shrinks env env' := by
  intro id message row
  rw [regrouped.rows] at row
  exact (regrouped.writes.pendingRow_iff keyed (fun _ row => groupRows_typ row) env.rows id
    message).mp row

/-- An operation that writes rows of the group only leaves nothing buffered where nothing was. -/
theorem tidy_unfocus_regrouped (tidy : Tidy scope) (focused : Focused scope id address env)
    (noBuffers : scope.NoBuffers id) (regrouped : Regrouped env env')
    (reads : SameOutside env env') (live : Live (scope.unfocus address env')) :
    Tidy (scope.unfocus address env') ∧ (scope.unfocus address env').NoBuffers id := by
  have keyed := focused.attached.within.keyed
  have unbuffered := regrouped.unbuffered keyed (noBuffers.unbuffered focused)
  have empty := noBuffers_unfocus scope address (regrouped.sameId.trans focused.sameId) unbuffered
  refine ⟨tidy.of_current live (regrouped.rows.trans focused.rows) ?_, empty⟩
  exact (Apart.unfocus focused reads fun other message _ => regrouped.shrinks keyed other
    message).belongs tidy.current empty.belongsTo

theorem tidy_commit (laws : RemovalLaws b) (committing : CommittingLaws b) (tidy : Tidy scope)
    (focused : Focused scope id address env) (noBuffers : scope.NoBuffers id)
    (call : CommittingCall) (context : String) :
    Tidy (finalState (withHandle context address (call.perform b)) scope) := by
  have retained := working_perform (working_retained laws env) laws.serialises
    committing.calls call env ⟨focused.attached, focused.isActive, .refl env⟩
  have unfocused : ∀ env', Retained env env' → Tidy (scope.unfocus address env') := by
    intro env' retained
    have live := (live_unfocus_attached tidy.live focused retained.attached retained.isActive).1
    exact (tidy_unfocus_regrouped tidy focused noBuffers retained.regrouped
      retained.attached.within.reads live).1
  simp only [finalState, withHandle, focused.focus]
  cases called : call.perform b env with
  | ok _ env' =>
    rw [called] at retained
    exact unfocused env' retained
  | error e env' =>
    rw [called] at retained
    exact unfocused env' retained

theorem tidy_wipe (laws : RemovalLaws b) (tidy : Tidy scope)
    (focused : Focused scope id address env) (noBuffers : scope.NoBuffers id) (context : String) :
    Tidy (finalState (withHandle context address (wipe b)) scope) ∧
      (finalState (withHandle context address (wipe b)) scope).NoBuffers id := by
  obtain ⟨group, -, wiped⟩ := wipe_kept laws.serialises laws.removes laws.activity env
  simp only [finalState, withHandle, focused.focus, wiped]
  have dropped := dropped_wiped focused.attached.within group
  have live := (live_unfocus_dropped tidy.live focused dropped).1
  exact tidy_unfocus_regrouped tidy focused noBuffers
    ((regrouped_written env group).trans (regrouped_wiped _)) dropped.within.reads live

end Commit

end CoreCrypto.Conversation
