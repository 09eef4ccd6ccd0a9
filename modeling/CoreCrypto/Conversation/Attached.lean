import CoreCrypto.Conversation.Stable

/-!
# The row of a group

While messages are received, the row of the group agrees with the group on the epoch and on whether
the client is a member, and rows of other conversations are left alone.
-/

namespace CoreCrypto.Conversation

open Keystore Library

variable {b : Backend} {tx : KeystoreTransaction b.State}

/-- A serialised group is read back as it was. -/
def RoundTrips (b : Backend) : Prop :=
  ∀ group state, b.ser group = .ok state → b.deser state = .ok group.setPersisted

/-! ### The rows of other conversations -/

/-- The rows that receiving a message of the conversation may write. -/
def Touched (id : ConversationId) (entityId : EntityId) : Prop :=
  entityId = groupEntityId id ∨ entityId = bufferedCommitEntityId id ∨
    entityId.typ = .mlsPendingMessage ∨ entityId.typ = .plain .encryptionKeyPair

/-- `env` is the handle `origin` some calls later. -/
structure Within (origin env : Env b) : Prop where
  id : env.id = origin.id
  configuration : env.configuration = origin.configuration
  rows : env.rows = origin.rows
  conversationCache : env.conversationCache = origin.conversationCache
  keyed : env.transaction.WellKeyed b.rt
  reads : ∀ entityId, ¬ Touched origin.id entityId →
    env.transaction.read b.rt env.rows entityId =
      origin.transaction.read b.rt origin.rows entityId

variable {env : Env b}

/-- The rows of other conversations are read as before. -/
def SameOutside (origin env : Env b) : Prop :=
  ∀ entityId, ¬ Touched origin.id entityId → env.transaction.read b.rt env.rows entityId =
    origin.transaction.read b.rt origin.rows entityId

theorem Within.refl (keyed : env.transaction.WellKeyed b.rt) : Within env env :=
  ⟨rfl, rfl, rfl, rfl, keyed, fun _ _ => rfl⟩

theorem Within.writes {origin : Env b} (within : Within origin env)
    (writes : Writes b.rt (Touched origin.id) env.transaction tx) (group : b.Group) :
    Within origin { env with group, transaction := tx } where
  id := within.id
  configuration := within.configuration
  rows := within.rows
  conversationCache := within.conversationCache
  keyed := writes.wellKeyed within.keyed
  reads := by
    intro entityId other
    rw [← within.reads entityId other]
    exact writes.read_eq env.rows entityId other

theorem touched_group {origin : Env b} (within : Within origin env) (group : b.Group) :
    Writes b.rt (Touched origin.id) env.transaction (env.written group).transaction := by
  refine (env.written_writes group).mono ?_
  intro entityId same
  exact .inl (by rw [same, within.id])

theorem stable_within (origin : Env b) : Stable b (Within origin) where
  changed := fun env group within _ => within.writes .refl group
  written := fun env group within _ => within.writes (touched_group within group) _
  merged := fun env group within _ => within.writes (touched_group within group) _
  keyPairs := by
    intro env keys within
    refine within.writes ((withoutKeyPairs_writes env.transaction keys).mono ?_) env.group
    intro entityId typ
    exact .inr (.inr (.inr typ))
  uncommitted := by
    intro env within
    refine within.writes (.remove _ ?_ .refl) env.group
    exact .inr (.inl (by rw [within.id]))
  emptied := by
    intro env within
    refine ⟨within.id, within.configuration, within.rows, within.conversationCache,
      KeystoreTransaction.wellKeyed_removePendingMessages b.rt _ _ within.keyed, ?_⟩
    intro entityId other
    have noMessage : entityId.typ ≠ .mlsPendingMessage := fun typ => other (.inr (.inr (.inl typ)))
    rw [← within.reads entityId other]
    exact KeystoreTransaction.read_removePendingMessages _ _ within.keyed noMessage
  queued := by
    intro env epoch within
    cases epoch with
    | none => exact within
    | some epoch => exact ⟨within.id, within.configuration, within.rows, within.conversationCache,
        within.keyed, within.reads⟩

/-! ### The row of the own conversation -/

theorem Kept.standing {K : Type} {before after : MlsGroup K} (kept : Kept before after) :
    after.standing = before.standing := by
  simp only [MlsGroup.standing, kept.isActive, kept.epoch]

/-- The entity holds the group `id` in the given standing. -/
def Holds (b : Backend) (id : ConversationId) (standing : Standing) (entity : Entity b.State) :
    Prop :=
  ∃ state parentId group, entity = .persistedMlsGroup id state parentId ∧
    b.deser state = .ok group ∧ group.groupId = id ∧ group.standing = standing

/-- The row of the group of a handle, as read through the transaction. -/
def Env.groupRow (env : Env b) : Option (Entity b.State) :=
  env.transaction.read b.rt env.rows (groupEntityId env.id)

/-- The stored group and the group of the handle agree on their standing. -/
structure RowAgrees (env : Env b) : Prop where
  sameId : env.group.groupId = env.id
  row : ∃ entity, env.groupRow = some entity ∧ Holds b env.id env.group.standing entity

/-- A handle that came from `origin` and whose row agrees with its group. -/
structure Attached (origin env : Env b) : Prop where
  within : Within origin env
  agrees : RowAgrees env

theorem rowAgrees_of_changed (roundTrips : RoundTrips b) (serialises : Serialises b)
    {group : b.Group} (changed : group.innerState = .changed) (sameId : group.groupId = env.id) :
    RowAgrees (env.written group) := by
  obtain ⟨state, serialised⟩ := serialises group
  refine ⟨sameId, .persistedMlsGroup env.id state none, ?_, state, none, group.setPersisted, rfl,
    roundTrips group state serialised, sameId, rfl⟩
  simp only [Env.groupRow, Env.written, changed, serialised]
  exact KeystoreTransaction.read_save_self b.rt env.transaction env.rows
    (.persistedMlsGroup env.id state none)

theorem rowAgrees_of_writes (agrees : RowAgrees env) {p : EntityId → Prop}
    (writes : Writes b.rt p env.transaction tx)
    (other : ¬ p (groupEntityId env.id)) : RowAgrees { env with transaction := tx } := by
  obtain ⟨entity, row, holds⟩ := agrees.row
  refine ⟨agrees.sameId, entity, ?_, holds⟩
  rw [← row]
  exact writes.read_eq env.rows _ other

theorem rowAgrees_changed (agrees : RowAgrees env) {group : b.Group}
    (kept : Kept env.group group) : RowAgrees { env with group } := by
  obtain ⟨entity, row, holds⟩ := agrees.row
  refine ⟨kept.groupId.trans agrees.sameId, entity, row, ?_⟩
  have standing : ({ env with group } : Env b).group.standing = env.group.standing := kept.standing
  rw [standing]
  exact holds

theorem rowAgrees_written (roundTrips : RoundTrips b) (serialises : Serialises b)
    (agrees : RowAgrees env) {group : b.Group} (kept : Kept env.group group) :
    RowAgrees (env.written group) := by
  cases state : group.innerState with
  | changed =>
    exact rowAgrees_of_changed roundTrips serialises state
      (kept.groupId.trans agrees.sameId)
  | persisted =>
    -- nothing is written, and the group stands as before
    have unwritten : env.written group = { env with group := group.setPersisted } := by
      simp only [Env.written, state]
    rw [unwritten]
    exact rowAgrees_changed agrees kept.setPersisted

theorem stable_attached (roundTrips : RoundTrips b) (serialises : Serialises b) (origin : Env b) :
    Stable b (Attached origin) where
  changed := fun env group attached kept =>
    ⟨(stable_within origin).changed env group attached.within kept,
      rowAgrees_changed attached.agrees kept⟩
  written := fun env group attached kept =>
    ⟨(stable_within origin).written env group attached.within kept,
      rowAgrees_written roundTrips serialises attached.agrees kept⟩
  merged := fun env group attached next =>
    ⟨(stable_within origin).merged env group attached.within next,
      rowAgrees_of_changed roundTrips serialises next.changed
        (next.groupId.trans attached.agrees.sameId)⟩
  keyPairs := fun env keys attached =>
    ⟨(stable_within origin).keyPairs env keys attached.within,
      rowAgrees_of_writes attached.agrees (withoutKeyPairs_writes env.transaction keys)
        (by simp [groupEntityId])⟩
  uncommitted := fun env attached =>
    ⟨(stable_within origin).uncommitted env attached.within,
      rowAgrees_of_writes attached.agrees
        (.remove (p := (· = bufferedCommitEntityId env.id)) _ rfl .refl)
        (by simp [groupEntityId, bufferedCommitEntityId])⟩
  emptied := by
    intro env attached
    refine ⟨(stable_within origin).emptied env attached.within, ?_⟩
    obtain ⟨entity, row, holds⟩ := attached.agrees.row
    refine ⟨attached.agrees.sameId, entity, ?_, holds⟩
    rw [← row]
    exact KeystoreTransaction.read_removePendingMessages _ _ attached.within.keyed
      (by simp [groupEntityId])
  queued := by
    intro env epoch attached
    refine ⟨(stable_within origin).queued env epoch attached.within, ?_⟩
    cases epoch with
    | none => exact attached.agrees
    | some epoch => exact ⟨attached.agrees.sameId, attached.agrees.row⟩

end CoreCrypto.Conversation
