import CoreCrypto.Conversation.Activity

/-!
# Conversations the client is a member of

A client is `Live` when it is a member of every stored group and every cached conversation is
the stored one.  The operations of the transaction context and of its handles keep it so, as
long as no replayed message touches the membership.
-/

namespace CoreCrypto.Conversation

open Keystore Library

variable {b : Backend} {address : Nat}

/-! ### Conversations the client is a member of -/

structure SharedConversation.Live (id : ConversationId) (conversation : SharedConversation b) :
    Prop where
  sameId : conversation.id = id
  groupId : conversation.group.groupId = id
  isActive : conversation.group.isActive = true

/-- The entity holds a group that the client is about to join. -/
def HoldsPending (b : Backend) (id : ConversationId) (entity : Entity b.State) : Prop :=
  ∃ state parentId customConfiguration group,
    entity = .persistedMlsPendingGroup id state parentId customConfiguration ∧
    b.deser state = .ok group ∧ group.groupId = id ∧ group.isActive = true

/-- Every group that can be read is one the client is, or will be, a member of. -/
structure LiveRows (b : Backend) (read : EntityId → Option (Entity b.State)) : Prop where
  groups : ∀ id entity, read (groupEntityId id) = some entity →
    ∃ epoch, Holds b id ⟨true, epoch⟩ entity
  pending : ∀ id entity, read (pendingGroupEntityId id) = some entity → HoldsPending b id entity

/-- The group is stored in the given standing. -/
def StoredAs (b : Backend) (read : EntityId → Option (Entity b.State)) (id : ConversationId)
    (standing : Standing) : Prop :=
  ∃ entity, read (groupEntityId id) = some entity ∧ Holds b id standing entity

/-- The conversation at `address` is the stored one, and the client is a member. -/
structure Seated (scope : Scope b) (id : ConversationId) (address : Nat) : Prop where
  live : ∃ conversation, scope.heap[address]? = some conversation ∧ conversation.Live id ∧
    StoredAs b scope.row id conversation.group.standing

variable {scope : Scope b}

theorem Seated.stored {id : ConversationId}
    (seated : Seated scope id address) : (scope.row (groupEntityId id)).isSome := by
  obtain ⟨conversation, -, -, entity, row, -⟩ := seated.live
  simp [row]

theorem Seated.congr {scope' : Scope b} {id : ConversationId}
    (seated : Seated scope id address) (inHeap : scope'.heap[address]? = scope.heap[address]?)
    (row : scope'.row (groupEntityId id) = scope.row (groupEntityId id)) :
    Seated scope' id address := by
  obtain ⟨conversation, found, member, entity, stored, holds⟩ := seated.live
  exact ⟨conversation, inHeap.trans found, member, entity, row.trans stored, holds⟩

theorem SharedConversation.Live.standing {id : ConversationId}
    {conversation : SharedConversation b} (member : conversation.Live id) :
    conversation.group.standing = ⟨true, conversation.group.epoch⟩ := by
  simp only [MlsGroup.standing, member.isActive]

structure Live (scope : Scope b) : Prop where
  keyed : scope.transaction.WellKeyed b.rt
  stored : LiveRows b (storedRow b.rt scope.rows)
  rows : LiveRows b scope.row
  cached : ∀ id address, scope.conversationCache.peek id = some address → Seated scope id address

theorem room_in_cache : 0 < TransactionContext.conversationCacheCapacity := by decide

theorem live_cacheInsert (live : Live scope) (id : ConversationId)
    (conversation : SharedConversation b) (member : conversation.Live id)
    (stored : StoredAs b scope.row id conversation.group.standing) :
    Live { scope with
      heap := scope.heap ++ [conversation]
      conversationCache := scope.conversationCache.insert conversation.id scope.heap.length } ∧
    Seated { scope with
      heap := scope.heap ++ [conversation]
      conversationCache := scope.conversationCache.insert conversation.id scope.heap.length }
      id scope.heap.length := by
  have seated : Seated { scope with
      heap := scope.heap ++ [conversation]
      conversationCache := scope.conversationCache.insert conversation.id scope.heap.length }
      id scope.heap.length :=
    ⟨⟨conversation, by simp, member, stored⟩⟩
  refine ⟨⟨live.keyed, live.stored, live.rows, ?_⟩, seated⟩
  intro other address found
  by_cases same : other = id
  · subst same
    rw [member.sameId, LruMap.peek_insert_self _ _ _ room_in_cache] at found
    cases found
    exact seated
  · rw [member.sameId] at found
    have older := LruMap.peek_of_peek_insert same found
    obtain ⟨cached, inHeap, isLive, row⟩ := (live.cached other address older).live
    refine ⟨⟨cached, ?_, isLive, row⟩⟩
    rw [List.getElem?_append_left (List.getElem?_eq_some_iff.mp inHeap).1]
    exact inHeap

theorem live_touch (live : Live scope) (id : ConversationId) :
    Live { scope with conversationCache := scope.conversationCache.touch id } := by
  refine ⟨live.keyed, live.stored, live.rows, ?_⟩
  intro other address found
  exact ⟨(live.cached other address (LruMap.peek_of_peek_touch found)).live⟩

/-! ### `conversation` and `conversation_exists` -/

/-- What `conversation` leaves: a handle to a group the client is a member of, or nothing is
stored under the id. -/
def Finds (id : ConversationId) (scope : Scope b) :
    EStateM.Result (ScopeError b) (Scope b) Nat → Prop
  | .ok address scope' => Live scope' ∧ Seated scope' id address ∧
      scope'.conversationCache.peek id = some address
  | .error _ scope' => scope' = scope ∧ scope.conversationCache.peek id = none ∧
      scope.row (groupEntityId id) = none

theorem getOrFetch_cached {id : ConversationId}
    (cached : scope.conversationCache.peek id = some address) :
    getOrFetch b id scope = .ok (some address)
      { scope with conversationCache := scope.conversationCache.touch id } := by
  simp only [getOrFetch, get, getThe, MonadStateOf.get, bind, EStateM.bind, EStateM.get, cached]
  rfl

theorem getOrFetch_loaded {id : ConversationId} {state : b.State} {parentId : Option Bytes}
    {group : b.Group} (uncached : scope.conversationCache.peek id = none)
    (row : scope.row (groupEntityId id) = some (.persistedMlsGroup id state parentId))
    (deserialises : b.deser state = .ok group) (active : group.isActive = true) :
    getOrFetch b id scope = .ok (some scope.heap.length)
      { scope with
        heap := scope.heap ++ [⟨group.groupId, group, .ofCipherSuite group.ciphersuite⟩]
        conversationCache :=
          scope.conversationCache.insert group.groupId scope.heap.length } := by
  simp only [getOrFetch, load, get, getThe, MonadStateOf.get, bind, EStateM.bind, EStateM.get,
    uncached, row, Option.bind_some, groupState?, deserialises, liftScope, pure, EStateM.pure,
    active, if_true]
  rfl

theorem getOrFetch_missing {id : ConversationId} (uncached : scope.conversationCache.peek id = none)
    (row : scope.row (groupEntityId id) = none) : getOrFetch b id scope = .ok none scope := by
  simp only [getOrFetch, load, get, getThe, MonadStateOf.get, bind, EStateM.bind, EStateM.get,
    uncached, row, Option.bind_none]
  rfl

/-- Without a cached or stored group there is at most a pending one. -/
theorem conversation_missing {id : ConversationId}
    (uncached : scope.conversationCache.peek id = none)
    (row : scope.row (groupEntityId id) = none) :
    conversation b id scope = .error
      (match (scope.row (pendingGroupEntityId id)).bind (pendingGroup? b) with
        | some pending => .pendingConversation pending
        | none => .conversationNotFound id) scope := by
  simp only [conversation, bind, EStateM.bind, getOrFetch_missing uncached row,
    pendingConversation, get, getThe, MonadStateOf.get, EStateM.get]
  cases (scope.row (pendingGroupEntityId id)).bind (pendingGroup? b) with
  | none => rfl
  | some pending => rfl

theorem missing_cases (live : Live scope) {id : ConversationId}
    (uncached : scope.conversationCache.peek id = none)
    (row : scope.row (groupEntityId id) = none) {e : ScopeError b} {scope' : Scope b}
    (called : conversation b id scope = .error e scope') :
    e = .conversationNotFound id ∨ ∃ state customConfiguration group,
      e = .pendingConversation ⟨id, state, customConfiguration⟩ ∧
      (scope.row (pendingGroupEntityId id)).isSome ∧ b.deser state = .ok group ∧
      group.groupId = id ∧ group.isActive = true := by
  rw [conversation_missing uncached row] at called
  cases stored : scope.row (pendingGroupEntityId id) with
  | none =>
    rw [stored] at called
    cases called
    exact .inl rfl
  | some entity =>
    obtain ⟨state, parentId, customConfiguration, group, rfl, holds⟩ :=
      live.rows.pending id entity stored
    rw [stored] at called
    cases called
    exact .inr ⟨state, customConfiguration, group, rfl, rfl, holds⟩

theorem finds_conversation (live : Live scope) (id : ConversationId) :
    Finds id scope (conversation b id scope) := by
  cases cached : scope.conversationCache.peek id with
  | some address =>
    simp only [conversation, bind, EStateM.bind, getOrFetch_cached cached]
    refine ⟨live_touch live id, ⟨(live.cached id address cached).live⟩, ?_⟩
    simp only [LruMap.touch, cached]
    exact LruMap.peek_insert_self _ _ _ room_in_cache
  | none =>
    cases row : scope.row (groupEntityId id) with
    | some entity =>
      obtain ⟨epoch, holds⟩ := live.rows.groups id entity row
      obtain ⟨state, parentId, group, rfl, deserialises, groupId, standing⟩ := holds
      have active : group.isActive = true := congrArg Standing.isActive standing
      simp only [conversation, bind, EStateM.bind,
        getOrFetch_loaded cached row deserialises active]
      have stored : StoredAs b scope.row id group.standing :=
        ⟨_, row, state, parentId, group, rfl, deserialises, groupId, rfl⟩
      obtain ⟨fetched, seated⟩ := live_cacheInsert live id
        ⟨group.groupId, group, .ofCipherSuite group.ciphersuite⟩ ⟨groupId, groupId, active⟩ stored
      refine ⟨fetched, seated, ?_⟩
      simp only [groupId]
      exact LruMap.peek_insert_self _ _ _ room_in_cache
    | none =>
      rw [conversation_missing cached row]
      exact ⟨rfl, cached, row⟩

/-! ### Operations of a handle -/

theorem focus_eq {conversation : SharedConversation b}
    (inHeap : scope.heap[address]? = some conversation) :
    scope.focus address = some
      { id := conversation.id
        configuration := conversation.configuration
        group := conversation.group
        rows := scope.rows
        transaction := scope.transaction
        conversationCache := scope.conversationCache
        pendingEpochChanges := scope.pendingEpochChanges
        accepted := scope.accepted
        historyClients := scope.historyClients
        clock := scope.clock } := by
  simp only [Scope.focus, inHeap, Option.map_some]

/-- What the handle to a conversation at `address` works on. -/
structure Focused (scope : Scope b) (id : ConversationId) (address : Nat) (env : Env b) : Prop where
  focus : scope.focus address = some env
  sameId : env.id = id
  rows : env.rows = scope.rows
  transaction : env.transaction = scope.transaction
  conversationCache : env.conversationCache = scope.conversationCache
  cached : scope.conversationCache.peek id = some address
  isActive : env.group.isActive = true
  attached : Attached env env

theorem lt_of_focus {env : Env b} (found : scope.focus address = some env) :
    address < scope.heap.length := by
  simp only [Scope.focus, Option.map_eq_some_iff] at found
  obtain ⟨conversation, inHeap, -⟩ := found
  exact (List.getElem?_eq_some_iff.mp inHeap).1

theorem Seated.focused {id : ConversationId} (seated : Seated scope id address) (live : Live scope)
    (cached : scope.conversationCache.peek id = some address) :
    ∃ env, Focused scope id address env := by
  obtain ⟨conversation, inHeap, member, entity, row, holds⟩ := seated.live
  refine ⟨_, focus_eq inHeap, member.sameId, rfl, rfl, rfl, cached, member.isActive,
    .refl live.keyed, ?_, entity, ?_, ?_⟩
  · exact member.groupId.trans member.sameId.symm
  · simp only [Env.groupRow, member.sameId]
    exact row
  · simp only [member.sameId]
    exact holds

section Unfocus

variable {scope : Scope b} {id : ConversationId} {address : Nat} {env env' : Env b}
  {other : ConversationId}

theorem row_unfocus (focused : Focused scope id address env) (reads : SameOutside env env')
    {entityId : EntityId} (other : ¬ Touched id entityId) :
    (scope.unfocus address env').row entityId = scope.row entityId := by
  have kept := reads entityId (by rwa [focused.sameId])
  rw [focused.transaction, focused.rows] at kept
  exact kept

theorem not_touched_group (different : other ≠ id) : ¬ Touched id (groupEntityId other) := by
  simp [Touched, groupEntityId, bufferedCommitEntityId, different]

theorem not_touched_pendingGroup (other : ConversationId) :
    ¬ Touched id (pendingGroupEntityId other) := by
  simp [Touched, groupEntityId, bufferedCommitEntityId, pendingGroupEntityId]

/-- Cached conversations other than the one of the handle are elsewhere in the heap. -/
theorem seated_unfocus (focused : Focused scope id address env) (reads : SameOutside env env')
    {cachedAt : Nat} (different : other ≠ id) (seated : Seated scope other cachedAt) :
    Seated (scope.unfocus address env') other cachedAt := by
  obtain ⟨conversation, inHeap, member, entity, row, holds⟩ := seated.live
  have elsewhere : address ≠ cachedAt := by
    rintro rfl
    have same := focused.focus
    rw [focus_eq inHeap, Option.some.injEq] at same
    have sameId := focused.sameId
    rw [← same] at sameId
    exact different (member.sameId.symm.trans sameId)
  refine ⟨⟨conversation, ?_, member, entity, ?_, holds⟩⟩
  · simp only [Scope.unfocus, List.getElem?_set_ne elsewhere]
    exact inHeap
  · rw [row_unfocus focused reads (not_touched_group different)]
    exact row

theorem liveRows_unfocus (live : Live scope) (focused : Focused scope id address env)
    (reads : SameOutside env env')
    (own : ∀ entity, (scope.unfocus address env').row (groupEntityId id) = some entity →
      ∃ epoch, Holds b id ⟨true, epoch⟩ entity) : LiveRows b (scope.unfocus address env').row where
  groups := by
    intro other entity row
    by_cases same : other = id
    · subst same
      exact own entity row
    · rw [row_unfocus focused reads (not_touched_group same)] at row
      exact live.rows.groups other entity row
  pending := by
    intro other entity row
    rw [row_unfocus focused reads (not_touched_pendingGroup other)] at row
    exact live.rows.pending other entity row

/-- A handle whose client is still a member keeps its conversation. -/
theorem live_unfocus_attached (live : Live scope) (focused : Focused scope id address env)
    (attached : Attached env env') (active : env'.group.isActive = true) :
    Live (scope.unfocus address env') ∧ Seated (scope.unfocus address env') id address := by
  have sameId : env'.id = id := attached.within.id.trans focused.sameId
  obtain ⟨entity, row, holds⟩ := attached.agrees.row
  rw [sameId] at holds
  have own : (scope.unfocus address env').row (groupEntityId id) = some entity := by
    rw [← row, Env.groupRow, sameId]
    rfl
  have bound := lt_of_focus focused.focus
  have seated : Seated (scope.unfocus address env') id address := by
    refine ⟨⟨⟨env'.id, env'.group, env'.configuration⟩, ?_, ⟨sameId, ?_, active⟩, entity, own,
      holds⟩⟩
    · simp only [Scope.unfocus, List.getElem?_set_self bound]
    · exact attached.agrees.sameId.trans sameId
  refine ⟨⟨attached.within.keyed, ?_, ?_, ?_⟩, seated⟩
  · have sameRows : env'.rows = scope.rows := attached.within.rows.trans focused.rows
    simp only [Scope.unfocus, sameRows]
    exact live.stored
  · apply liveRows_unfocus live focused attached.within.reads
    intro stored found
    rw [own] at found
    cases found
    have standing : env'.group.standing = ⟨true, env'.group.epoch⟩ := by
      simp only [MlsGroup.standing, active]
    exact ⟨env'.group.epoch, standing ▸ holds⟩
  · intro other cachedAt found
    have sameCache : env'.conversationCache = scope.conversationCache :=
      attached.within.conversationCache.trans focused.conversationCache
    simp only [Scope.unfocus, sameCache] at found
    by_cases same : other = id
    · subst same
      rw [focused.cached] at found
      cases found
      exact seated
    · exact seated_unfocus focused attached.within.reads same (live.cached other cachedAt found)

theorem live_unfocus_dropped (live : Live scope) (focused : Focused scope id address env)
    (dropped : Dropped env env') :
    Live (scope.unfocus address env') ∧
      (scope.unfocus address env').conversationCache.peek id = none ∧
      (scope.unfocus address env').row (groupEntityId id) = none := by
  have sameId : env'.id = id := dropped.within.id.trans focused.sameId
  have row : (scope.unfocus address env').row (groupEntityId id) = none := by
    have none := dropped.row
    rw [Env.groupRow, sameId] at none
    exact none
  have reads : SameOutside env env' := dropped.within.reads
  have removed : (scope.unfocus address env').conversationCache =
      scope.conversationCache.remove id := by
    rw [← focused.sameId, ← focused.conversationCache]
    exact dropped.conversationCache
  refine ⟨⟨dropped.within.keyed, ?_, ?_, ?_⟩, ?_, row⟩
  · have sameRows : env'.rows = scope.rows := dropped.within.rows.trans focused.rows
    simp only [Scope.unfocus, sameRows]
    exact live.stored
  · apply liveRows_unfocus live focused reads
    intro stored found
    rw [row] at found
    cases found
  · intro other cachedAt found
    rw [removed] at found
    have different : other ≠ id := by
      rintro rfl
      rw [LruMap.peek_remove_self] at found
      cases found
    rw [LruMap.peek_remove_ne _ different] at found
    exact seated_unfocus focused reads different (live.cached other cachedAt found)
  · rw [removed, LruMap.peek_remove_self]

end Unfocus

/-! ### Messages that come in -/

/-- The answer says whether the client is a member of the group at `address`, and the conversation
is cached and stored if and only if it is. -/
def SettledAs (scope : Scope b) (id : ConversationId) (address : Nat)
    (decrypted : DecryptedMessage b) : Prop :=
  ∃ conversation, scope.heap[address]? = some conversation ∧
    decrypted.isActive = conversation.group.isActive ∧
    ((scope.conversationCache.peek id).isSome ↔ conversation.group.isActive = true) ∧
    ((scope.row (groupEntityId id)).isSome ↔ conversation.group.isActive = true)

/-- What a message that came in leaves. -/
def Ends (id : ConversationId) (address : Nat) :
    EStateM.Result (ScopeError b) (Scope b) (DecryptedMessage b) → Prop
  | .ok decrypted scope' => Live scope' ∧ SettledAs scope' id address decrypted
  | .error _ scope' => Live scope'

structure RemovalLaws (b : Backend) : Prop where
  serialises : Serialises b
  roundTrips : RoundTrips b
  removes : RemovesProposals b
  epochs : EpochLaws b
  activity : ActivityLaws b

section Message

variable {scope : Scope b} {id : ConversationId} {address : Nat} {env : Env b}

theorem settledAs_seated (seated : Seated scope id address)
    (cached : scope.conversationCache.peek id = some address) {decrypted : DecryptedMessage b}
    (active : decrypted.isActive = true) : SettledAs scope id address decrypted := by
  obtain ⟨conversation, inHeap, member, -⟩ := seated.live
  refine ⟨conversation, inHeap, active.trans member.isActive.symm, ?_, ?_⟩
  · simp [cached, member.isActive]
  · simp [seated.stored, member.isActive]

theorem ends_decryptMessage (laws : RemovalLaws b) (live : Live scope)
    (focused : Focused scope id address env) {payload : Bytes}
    (calm : ∀ message, b.tlsDeserialize payload = some message →
      ∀ merged, Applied b env message merged → merged.Calm) :
    Ends id address
      (withHandle "decrypting message" address (decryptMessage b payload) scope) := by
  have leaves := leaves_decryptMessage laws.serialises laws.roundTrips laws.removes laws.epochs
    laws.activity focused.attached focused.isActive calm
  simp only [withHandle, focused.focus]
  cases called : decryptMessage b payload env with
  | error e env' =>
    rw [called] at leaves
    exact (live_unfocus_attached live focused leaves.2 leaves.1).1
  | ok decrypted env' =>
    rw [called] at leaves
    obtain ⟨agrees, attached, dropped⟩ := leaves
    cases active : decrypted.isActive with
    | true =>
      have sameCache : env'.conversationCache = scope.conversationCache :=
        (attached active).within.conversationCache.trans focused.conversationCache
      have cached : (scope.unfocus address env').conversationCache.peek id = some address := by
        rw [← focused.cached]
        exact congrArg (LruMap.peek · id) sameCache
      obtain ⟨still, seated⟩ :=
        live_unfocus_attached live focused (attached active) (agrees.trans active)
      exact ⟨still, settledAs_seated seated cached active⟩
    | false =>
      obtain ⟨still, uncached, row⟩ := live_unfocus_dropped live focused (dropped active)
      have inactive : env'.group.isActive = false := agrees.trans active
      have bound := lt_of_focus focused.focus
      refine ⟨still, ⟨env'.id, env'.group, env'.configuration⟩, ?_, agrees.symm, ?_, ?_⟩
      · simp only [Scope.unfocus, List.getElem?_set_self bound]
      · simp [uncached, inactive]
      · simp [row, inactive]

end Message

/-! ### Joining -/

section Join

variable {scope : Scope b} {pending : PendingConversation b} {pendingGroup : b.Group}
  {state : b.State}

theorem live_writes (live : Live scope) {p : EntityId → Prop} {tx : KeystoreTransaction b.State}
    (writes : Writes b.rt p scope.transaction tx) (noGroup : ∀ id, ¬ p (groupEntityId id))
    (pending : ∀ id entity, tx.read b.rt scope.rows (pendingGroupEntityId id) = some entity →
      HoldsPending b id entity) : Live { scope with transaction := tx } where
  keyed := writes.wellKeyed live.keyed
  stored := live.stored
  rows :=
    { groups := by
        intro id entity row
        have same := writes.read_eq scope.rows _ (noGroup id)
        exact live.rows.groups id entity (same.symm.trans row)
      pending }
  cached := by
    intro id address found
    exact (live.cached id address found).congr rfl (writes.read_eq scope.rows _ (noGroup id))

/-- The scope after `persist_conversation_from_mls_group`. -/
def Scope.persisted (scope : Scope b) (conversation : SharedConversation b) (state : b.State) :
    Scope b :=
  { scope with
    transaction := scope.transaction.save b.rt (.persistedMlsGroup conversation.id state none)
    heap := scope.heap ++ [conversation]
    conversationCache := scope.conversationCache.insert conversation.id scope.heap.length }

theorem persist_ok {group : b.Group} (serialised : b.ser group = .ok state)
    (configuration : ConversationConfiguration) (scope : Scope b) :
    persistConversationFromMlsGroup b group configuration scope =
      .ok scope.heap.length
        (scope.persisted ⟨group.groupId, group.setPersisted, configuration⟩ state) := by
  simp only [persistConversationFromMlsGroup, serialised, liftScope, bind, EStateM.bind, pure,
    EStateM.pure]
  rfl

theorem live_persisted (live : Live scope) {id : ConversationId}
    {conversation : SharedConversation b} (member : conversation.Live id)
    (holds : Holds b id conversation.group.standing (.persistedMlsGroup id state none)) :
    Live (scope.persisted conversation state) ∧
      Seated (scope.persisted conversation state) id scope.heap.length ∧
      (scope.persisted conversation state).conversationCache.peek id = some scope.heap.length := by
  obtain rfl := member.sameId
  have writes : Writes b.rt (· = groupEntityId conversation.id) scope.transaction
      (scope.persisted conversation state).transaction := .save _ rfl .refl
  have saved : (scope.persisted conversation state).row (groupEntityId conversation.id) =
      some (.persistedMlsGroup conversation.id state none) :=
    KeystoreTransaction.read_save_self b.rt scope.transaction scope.rows
      (.persistedMlsGroup conversation.id state none)
  have others : ∀ entityId, entityId ≠ groupEntityId conversation.id →
      (scope.persisted conversation state).row entityId = scope.row entityId :=
    fun entityId different => writes.read_eq scope.rows entityId different
  have cached : (scope.persisted conversation state).conversationCache.peek conversation.id =
      some scope.heap.length := LruMap.peek_insert_self _ _ _ room_in_cache
  have seated : Seated (scope.persisted conversation state) conversation.id scope.heap.length :=
    ⟨conversation, by simp [Scope.persisted], member, _, saved, holds⟩
  refine ⟨⟨writes.wellKeyed live.keyed, live.stored, ⟨?_, ?_⟩, ?_⟩, seated, cached⟩
  · intro other entity row
    by_cases same : other = conversation.id
    · subst same
      have found := saved.symm.trans row
      cases found
      exact ⟨conversation.group.epoch, member.standing ▸ holds⟩
    · rw [others (groupEntityId other) (by simp [groupEntityId, same])] at row
      exact live.rows.groups other entity row
  · intro other entity row
    rw [others (pendingGroupEntityId other) (by simp [groupEntityId, pendingGroupEntityId])] at row
    exact live.rows.pending other entity row
  · intro other address found
    by_cases same : other = conversation.id
    · subst same
      rw [cached] at found
      cases found
      exact seated
    · have older := live.cached other address
        (LruMap.peek_of_peek_insert same found)
      obtain ⟨_, inHeap, -⟩ := older.live
      refine older.congr ?_ (others _ (by simp [groupEntityId, same]))
      exact List.getElem?_append_left (List.getElem?_eq_some_iff.mp inHeap).1

theorem joinable_focused (laws : RemovalLaws b) (live : Live scope)
    {joinable : Joinable b pending} (active : joinable.group.isActive = true) :
    Live (joinable.joined scope) ∧
      Focused (joinable.joined scope) pending.id scope.heap.length (joinable.handle scope) := by
  have sameId := joinable.sameId
  have holds : Holds b joinable.group.groupId joinable.group.setPersisted.standing
      (.persistedMlsGroup joinable.group.groupId joinable.state none) :=
    ⟨_, _, _, rfl, laws.roundTrips _ _ joinable.serialised, rfl, rfl⟩
  let conversation : SharedConversation b :=
    ⟨joinable.group.groupId, joinable.group.setPersisted, joinable.configuration⟩
  have member : conversation.Live joinable.group.groupId := ⟨rfl, rfl, active⟩
  obtain ⟨joined, seated, cached⟩ := live_persisted live member holds
  have sameScope : scope.persisted conversation joinable.state = joinable.joined scope := rfl
  rw [sameScope] at joined seated cached
  refine ⟨joined, ?_⟩
  obtain ⟨env, focused⟩ := seated.focused joined cached
  have same := focused.focus.symm.trans (joinable.focus_joined scope)
  cases same
  rw [← sameId]
  exact focused

/-- What `merge` leaves. -/
def JoinEnds (id : ConversationId) (address : Nat) {α : Type} :
    EStateM.Result (ScopeError b) (Scope b) α → Prop
  | .ok _ scope' => Live scope' ∧ Seated scope' id address ∧
      scope'.conversationCache.peek id = some address
  | .error _ scope' => Live scope'

/-- The end of `merge` removes the pending group and buffered messages, and no other row. -/
theorem finished_row (pending : PendingConversation b) (keyed : scope.transaction.WellKeyed b.rt)
    (answer : Option (List (BufferedDecryptedMessage b))) :
    (Joinable.finished pending answer scope).transaction.WellKeyed b.rt ∧
      (Joinable.finished pending answer scope).row (pendingGroupEntityId pending.id) = none ∧
      ∀ entityId, entityId.typ ≠ .mlsPendingMessage → entityId ≠ pendingGroupEntityId pending.id →
        (Joinable.finished pending answer scope).row entityId = scope.row entityId := by
  -- first the buffered messages, then the pending group
  have cleared : ∀ tx : KeystoreTransaction b.State, tx.WellKeyed b.rt →
      (∀ entityId, entityId.typ ≠ .mlsPendingMessage →
        tx.read b.rt scope.rows entityId = scope.row entityId) →
      (tx.removeByEntityId (pendingGroupEntityId pending.id)).WellKeyed b.rt ∧
      (tx.removeByEntityId (pendingGroupEntityId pending.id)).read b.rt scope.rows
        (pendingGroupEntityId pending.id) = none ∧
      ∀ entityId, entityId.typ ≠ .mlsPendingMessage → entityId ≠ pendingGroupEntityId pending.id →
        (tx.removeByEntityId (pendingGroupEntityId pending.id)).read b.rt scope.rows entityId =
          scope.row entityId := by
    intro tx keyed reads
    refine ⟨KeystoreTransaction.wellKeyed_removeByEntityId b.rt tx _ keyed, by simp, ?_⟩
    intro entityId other different
    rw [KeystoreTransaction.read_remove_other b.rt tx scope.rows different]
    exact reads entityId other
  cases answer with
  | none => exact cleared scope.transaction keyed (fun _ _ => rfl)
  | some results =>
    exact cleared _ (KeystoreTransaction.wellKeyed_removePendingMessages b.rt _ _ keyed)
      (fun entityId other =>
        KeystoreTransaction.read_removePendingMessages _ _ keyed other)

theorem live_finished (pending : PendingConversation b) (live : Live scope)
    (answer : Option (List (BufferedDecryptedMessage b))) :
    Live (Joinable.finished pending answer scope) ∧
      ∀ id, (Joinable.finished pending answer scope).row (groupEntityId id) =
        scope.row (groupEntityId id) := by
  obtain ⟨keyed, noPending, reads⟩ := finished_row pending live.keyed answer
  have groups : ∀ id, (Joinable.finished pending answer scope).row (groupEntityId id) =
      scope.row (groupEntityId id) :=
    fun id => reads _ (by simp [groupEntityId]) (by simp [groupEntityId, pendingGroupEntityId])
  refine ⟨⟨keyed, live.stored, ⟨?_, ?_⟩, ?_⟩, groups⟩
  · intro id entity row
    exact live.rows.groups id entity ((groups id).symm.trans row)
  · intro id entity row
    by_cases same : id = pending.id
    · subst same
      rw [noPending] at row
      cases row
    · rw [reads _ (by simp [pendingGroupEntityId]) (by simp [pendingGroupEntityId, same])] at row
      exact live.rows.pending id entity row
  · intro id address found
    exact (live.cached id address found).congr rfl (groups id)

/-- Restoring the buffered messages of a joined group, or dropping them, leaves the client a
member of it. -/
theorem attached_restored (laws : RemovalLaws b) {joinable : Joinable b pending}
    (attached : Attached (joinable.handle scope) (joinable.handle scope))
    (active : (joinable.handle scope).group.isActive = true)
    (calm : ¬ Joinable.Rejoins scope pending → (joinable.handle scope).Calm) :
    match restorePendingMessages (decryptMessageInner b · .none) (Joinable.policy scope pending)
      (joinable.handle scope) with
    | .ok _ env => Attached (joinable.handle scope) env ∧ env.group.isActive = true
    | .error _ env => Attached (joinable.handle scope) env ∧ env.group.isActive = true := by
  have stable := stable_attached laws.roundTrips laws.serialises (joinable.handle scope)
  by_cases rejoins : Joinable.Rejoins scope pending
  · have clearOnly : Joinable.policy scope pending = .clearOnly := if_pos rejoins
    rw [clearOnly]
    exact ⟨stable.emptied _ attached, active⟩
  · have decryptAndClear : Joinable.policy scope pending = .decryptAndClear := if_neg rejoins
    rw [decryptAndClear]
    have inner := keeps_decryptWithoutRestore stable laws.serialises laws.epochs recursionDepth
    have kept := keeps_restorePendingMessages stable.emptied inner .decryptAndClear _ attached
    have stays := restorePendingMessages_active laws.serialises (calm rejoins)
    have sameOp : restorePendingMessages (decryptWithoutRestore b recursionDepth)
        .decryptAndClear (joinable.handle scope) =
      restorePendingMessages (decryptMessageInner b · .none) .decryptAndClear
        (joinable.handle scope) := rfl
    rw [sameOp] at kept
    rw [finalState, active] at stays
    cases called : restorePendingMessages (decryptMessageInner b · .none) .decryptAndClear
        (joinable.handle scope) with
    | error e env =>
      rw [called] at kept stays
      exact ⟨kept, stays⟩
    | ok answer env =>
      rw [called] at kept stays
      exact ⟨kept, stays⟩

/-- A pending group that the client will be a member of can be joined, or merging it changes
nothing. -/
theorem merge_joinable (laws : RemovalLaws b) (scope : Scope b)
    (deserialises : b.deser pending.state = .ok pendingGroup)
    (groupId : pendingGroup.groupId = pending.id) (active : pendingGroup.isActive = true) :
    (∃ e, pending.merge scope = .error e scope) ∨
      ∃ joinable : Joinable b pending, joinable.group.isActive = true := by
  cases merges : PendingConversation.mergedGroup b "deserializing mls group" pending.state with
  | error e =>
    refine .inl ⟨e, ?_⟩
    simp only [PendingConversation.merge, bind, EStateM.bind, merges, liftScope]
    rfl
  | ok group =>
    cases configured : b.decodeCustom pending.customConfiguration with
    | error code =>
      refine .inl ⟨.openMls "deserializing mls custom configuration" code, ?_⟩
      simp only [PendingConversation.merge, bind, EStateM.bind, merges, configured, liftScope]
      rfl
    | ok custom =>
      obtain ⟨state, serialised⟩ := laws.serialises group
      -- the joined group is the pending one in its next epoch
      have joinedGroup : group.groupId = pending.id ∧ group.isActive = true := by
        simp only [PendingConversation.mergedGroup, deserialises] at merges
        rcases merging : b.mergePendingCommit pendingGroup with ⟨result, merged⟩
        rw [merging] at merges
        cases result with
        | error code => cases merges
        | ok _ =>
          cases merges
          exact ⟨(laws.epochs.pendingMerged _ _ merging).groupId.trans groupId,
            (laws.activity.ownCommit _ _ merging).trans active⟩
      exact .inr ⟨⟨group, state, custom, merges, serialised, configured, joinedGroup.1⟩,
        joinedGroup.2⟩

theorem joinEnds_merge (laws : RemovalLaws b) (live : Live scope)
    (deserialises : b.deser pending.state = .ok pendingGroup)
    (groupId : pendingGroup.groupId = pending.id) (active : pendingGroup.isActive = true)
    (calm : ¬ Joinable.Rejoins scope pending →
      ∀ joinable : Joinable b pending, (joinable.handle scope).Calm) :
    JoinEnds pending.id scope.heap.length (pending.merge scope) := by
  rcases merge_joinable laws scope deserialises groupId active with ⟨e, fails⟩ | ⟨joinable, member⟩
  · rw [fails]
    exact live
  · obtain ⟨joinedLive, focused⟩ := joinable_focused laws live member
    have restored := attached_restored laws focused.attached focused.isActive
      (fun fresh => calm fresh joinable)
    rw [Joinable.merge_eq joinable scope]
    cases called : restorePendingMessages (decryptMessageInner b · .none)
        (Joinable.policy scope pending) (joinable.handle scope) with
    | error e env =>
      rw [called] at restored
      exact (live_unfocus_attached joinedLive focused restored.1 restored.2).1
    | ok answer env =>
      rw [called] at restored
      obtain ⟨kept, stays⟩ := restored
      obtain ⟨still, seated⟩ := live_unfocus_attached joinedLive focused kept stays
      obtain ⟨finished, rows⟩ := live_finished pending still answer
      refine ⟨finished, seated.congr rfl (rows pending.id), ?_⟩
      have sameCache : env.conversationCache = (joinable.joined scope).conversationCache :=
        kept.within.conversationCache
      rw [← focused.cached]
      exact congrArg (LruMap.peek · pending.id) sameCache

theorem ends_mergeAndRestoreMessages {address : Nat}
    (merged : JoinEnds pending.id address (pending.merge scope)) :
    Ends pending.id address (pending.mergeAndRestoreMessages scope) := by
  simp only [PendingConversation.mergeAndRestoreMessages, bind, EStateM.bind]
  cases called : pending.merge scope with
  | error e scope' =>
    rw [called] at merged
    exact merged
  | ok bufferedMessages scope' =>
    rw [called] at merged
    obtain ⟨live, seated, cached⟩ := merged
    -- the conversation that was just cached is handed out
    have handed : conversation b pending.id scope' = .ok address
        { scope' with conversationCache := scope'.conversationCache.touch pending.id } := by
      simp only [conversation, bind, EStateM.bind, getOrFetch_cached cached]
      rfl
    obtain ⟨conversation, inHeap, member, -⟩ := seated.live
    have touched := live_touch live pending.id
    have stillCached : (scope'.conversationCache.touch pending.id).peek pending.id =
        some address := by
      simp only [LruMap.touch, cached]
      exact LruMap.peek_insert_self _ _ _ room_in_cache
    simp only [handed, get, getThe, MonadStateOf.get, EStateM.get, inHeap]
    cases conversation.group.ownLeaf with
    | none => exact touched
    | some ownLeaf =>
      simp only
      cases b.extractIdentity ownLeaf conversation.configuration.cipherSuite with
      | error code => exact touched
      | ok identity =>
        have stillSeated : Seated { scope' with
            conversationCache := scope'.conversationCache.touch pending.id } pending.id address :=
          seated.congr rfl rfl
        exact ⟨touched, settledAs_seated stillSeated stillCached member.isActive⟩

theorem isOwnJoinCommit_scope (pending : PendingConversation b) (message : Bytes)
    (scope : Scope b) : finalState (pending.isOwnJoinCommit message) scope = scope := by
  simp only [finalState, PendingConversation.isOwnJoinCommit, get, getThe, MonadStateOf.get, bind,
    EStateM.bind, EStateM.get]
  cases (scope.row (pendingGroupEntityId pending.id)).bind (pendingGroup? b) with
  | none => rfl
  | some stored =>
    simp only
    cases PendingConversation.mergedGroup b "deserializing mls pending groups" stored.state with
    | error e => rfl
    | ok group =>
      simp only [liftScope, pure]
      cases b.tlsDeserialize message with
      | none => rfl
      | some decoded =>
        cases decoded with
        | publicMessage publicMessage =>
          simp only
          cases publicMessage.confirmationTag with
          | none => rfl
          | some messageTag =>
            simp only [EStateM.bind, EStateM.pure]
            cases b.computeConfirmationTag group with
            | error code => rfl
            | ok groupTag => rfl
        | privateMessage content => rfl
        | other content => rfl

theorem ends_tryProcessOwnJoinCommit (live : Live scope) (message : Bytes)
    (merged : JoinEnds pending.id scope.heap.length (pending.merge scope)) :
    Ends pending.id scope.heap.length (pending.tryProcessOwnJoinCommit message scope) := by
  have unchanged := isOwnJoinCommit_scope pending message scope
  simp only [PendingConversation.tryProcessOwnJoinCommit, bind, EStateM.bind]
  rw [finalState] at unchanged
  cases called : pending.isOwnJoinCommit message scope with
  | error e scope' =>
    rw [called] at unchanged
    obtain rfl : scope = scope' := unchanged.symm
    exact live
  | ok isOwn scope' =>
    rw [called] at unchanged
    obtain rfl : scope = scope' := unchanged.symm
    cases isOwn with
    | true => exact ends_mergeAndRestoreMessages merged
    | false =>
      -- the message is buffered for the time after the join
      have writes : Writes b.rt (fun entityId => entityId.typ = .mlsPendingMessage)
          scope.transaction
          (scope.transaction.save b.rt (.mlsPendingMessage pending.id message)) :=
        .save _ rfl .refl
      refine live_writes live writes (fun id => by simp [groupEntityId]) ?_
      intro id entity row
      rw [writes.read_eq scope.rows _ (by simp [pendingGroupEntityId])] at row
      exact live.rows.pending id entity row

end Join

end CoreCrypto.Conversation
