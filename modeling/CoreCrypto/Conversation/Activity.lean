import CoreCrypto.Conversation.Attached
import CoreCrypto.Library.Run

/-!
# Clients that are removed

`decrypt_message` wipes the conversation of a client that a commit removes.  It looks at the
membership right after the merge: what replayed messages do to it goes unnoticed.
-/

namespace CoreCrypto.Conversation

open Keystore Library

variable {b : Backend} {message : MlsMessageIn}

/-- What is used of OpenMLS here: a client cannot remove itself by its own commit, and deleting old
keys and pending proposals leaves the membership. -/
structure ActivityLaws (b : Backend) : Prop where
  ownCommit : ∀ group after,
    b.mergePendingCommit group = (.ok (), after) → after.isActive = group.isActive
  keysDeleted : ∀ group, Kept group (b.deletePreviousEpochKeypairs group)
  proposalRemoved : ∀ group reference, Kept group (b.removePendingProposal group reference).2

/-! ### The replay after a commit -/

/-- Replaying the listed messages leaves the membership as it is, and does not fail if the client
is no member. -/
structure Calm (b : Backend) (cipherSuite : Nat) (seat : Seat b) (listed : List Bytes) : Prop where
  kept : ∀ decoded, listed.mapM (decodePending b) = .ok decoded →
    (finalState (Seat.absorbAll b cipherSuite (replayOrder decoded)) seat).group.isActive =
      seat.group.isActive
  complete : seat.group.isActive = false → Replayable b cipherSuite seat listed

/-- The handle is about to replay messages that leave the membership as it is. -/
def Env.Calm (env : Env b) : Prop :=
  Conversation.Calm b env.configuration.cipherSuite env.seat env.listed

variable {env : Env b}

theorem restorePendingMessages_group (serialises : Serialises b)
    {decoded : List (ContentType × MlsMessageIn)}
    (decodes : env.listed.mapM (decodePending b) = .ok decoded) :
    (finalState (restorePendingMessages (decryptMessageInner b · .none) .decryptAndClear)
      env).group = (finalState (Seat.absorbAll b env.configuration.cipherSuite
        (replayOrder decoded)) env.seat).group := by
  have follows := follows_replay serialises (replayOrder decoded) env (.refl env)
  rw [← follows.view_finalState]
  simp only [finalState, restorePendingMessages_eq, decodes]
  cases replay (decryptMessageInner b · .none) (replayOrder decoded) env with
  | error e env' => rfl
  | ok results env' => rfl

theorem restorePendingMessages_active (serialises : Serialises b) (calm : env.Calm) :
    (finalState (restorePendingMessages (decryptMessageInner b · .none) .decryptAndClear)
      env).group.isActive = env.group.isActive := by
  cases decodes : env.listed.mapM (decodePending b) with
  | error e => simp only [finalState, restorePendingMessages_eq, decodes]
  | ok decoded =>
    rw [restorePendingMessages_group serialises decodes]
    exact calm.kept decoded decodes

theorem restoring_group (env : Env b) :
    (finalState (restoring b) env).group = (finalState (restorePendingMessages
      (decryptMessageInner b · .none) .decryptAndClear) env).group := by
  simp only [finalState, restoring, restoreAndClearPendingMessages, bind, EStateM.bind]
  cases restorePendingMessages (decryptMessageInner b · .none) .decryptAndClear env with
  | error e env' => rfl
  | ok answer env' => cases answer <;> rfl

theorem restoring_active (serialises : Serialises b) (calm : env.Calm) :
    (finalState (restoring b) env).group.isActive = env.group.isActive := by
  rw [restoring_group]
  exact restorePendingMessages_active serialises calm

/-- A replay that fails finds the client still a member. -/
theorem active_of_restoring_error (serialises : Serialises b) {env' : Env b} {e : Error}
    (calm : env.Calm) (fails : restoring b env = .error e env') : env'.group.isActive = true := by
  have kept := restoring_active serialises calm
  rw [finalState, fails] at kept
  cases active : env.group.isActive with
  | true => exact kept.trans active
  | false =>
    obtain ⟨decoded, decodes, results, seat, taken⟩ := calm.complete active
    obtain ⟨restoredEnv, -, restores⟩ :=
      restoring_ok serialises decodes taken
    rw [fails] at restores
    cases restores

/-! ### The answer to a message -/

/-- A commit is merged while the message is received; `merged` is the handle right after that. -/
inductive Applied (b : Backend) : Env b → MlsMessageIn → Env b → Prop
  | delivered {env merged : Env b} {message : MlsMessageIn} {answer : DecryptedMessage b}
      {queued : Option Nat} (merges : Merges b env message merged answer queued) :
      Applied b env message merged
  | buffered {env stored merged : Env b} {message waiting : MlsMessageIn} {commit : Bytes}
      (quiet : Quiet env stored) (buffered : stored.seat.buffered = some commit)
      (decodes : b.tlsDeserialize commit = some waiting)
      (inner : Applied b stored waiting merged) : Applied b env message merged

/-- Up to the merge, the buffered messages stay as they are. -/
theorem Applied.listed_perm {merged : Env b} (applied : Applied b env message merged)
    (keyed : env.transaction.WellKeyed b.rt) : merged.listed.Perm env.listed := by
  induction applied with
  | delivered merges =>
    obtain ⟨sameId, sameRows, -⟩ := merges.sameHandle
    refine Conversation.listed_perm sameId sameRows merges.writes keyed ?_
    rintro entityId (rfl | typ)
    · simp [groupEntityId]
    · simp [typ]
  | buffered quiet buffered decodes inner ih =>
    obtain ⟨group, tx, rfl, -, writes⟩ := quiet
    refine (ih (writes.wellKeyed keyed)).trans (Conversation.listed_perm rfl rfl writes keyed ?_)
    rintro entityId rfl
    simp [groupEntityId]

theorem calm_nil (cipherSuite : Nat) (seat : Seat b) : Calm b cipherSuite seat [] where
  kept := by
    intro decoded decodes
    cases decodes
    rfl
  complete := fun _ => ⟨[], rfl, [], seat, rfl⟩

theorem Merges.isActive {merged : Env b} {answer : DecryptedMessage b} {queued : Option Nat}
    (merges : Merges b env message merged answer queued) :
    answer.isActive = merged.group.isActive := by
  cases merges with
  | foreign valid => rfl
  | own echo _ answers =>
    unfold ownCommitAnswer at answers
    split at answers
    next => cases answers
    next =>
      split at answers
      next => cases answers
      next => cases answers; rfl

theorem Quiet.isActive {env' : Env b} (quiet : Quiet env env') :
    env'.group.isActive = env.group.isActive := by
  obtain ⟨group, tx, rfl, kept, -⟩ := quiet
  exact kept.isActive

/-- The answer says whether the client is still a member, and an error leaves it one. -/
def AnswersActivity : EStateM.Result Error (Env b) (DecryptedMessage b) → Prop
  | .ok decrypted env' => env'.group.isActive = decrypted.isActive
  | .error _ env' => env'.group.isActive = true

theorem answersActivity_of_receives (serialises : Serialises b) (epochs : EpochLaws b)
    (laws : ActivityLaws b) {depth : Nat}
    {result : EStateM.Result Error (Env b) (DecryptedMessage b)}
    (went : Receives b depth env message result) (active : env.group.isActive = true)
    (calm : ∀ merged, Applied b env message merged → merged.Calm) : AnswersActivity result := by
  induction went with
  | limit env message => exact active
  | answered quiet answer =>
    exact quiet.isActive.trans (active.trans (answer.active _ rfl).symm)
  | refused quiet answer => exact quiet.isActive.trans active
  | @unanswered depth env message e echo fails =>
    -- an own commit leaves its sender in the group
    have kept := processOnGroup_kept epochs echo.parsed env.group
    rw [echo.processes] at kept
    exact (laws.ownCommit _ _ echo.merges).trans (kept.isActive.trans active)
  | blocked merges fails =>
    exact active_of_restoring_error serialises (calm _ (.delivered merges)) fails
  | @advanced depth env merged env' message answer queued bufferedMessages merges restores =>
    have kept := restoring_active serialises (calm _ (.delivered merges))
    rw [finalState, restores] at kept
    have sameGroup : (env'.queued queued).group = env'.group := by cases queued <;> rfl
    rw [AnswersActivity, sameGroup]
    exact kept.trans merges.isActive.symm
  | retried quiet waiting decodes inner ih =>
    exact ih (quiet.isActive.trans active)
      (fun merged applied => calm merged (.buffered quiet waiting decodes applied))
  | waited quiet identity waiting decodes inner ih =>
    exact ih (quiet.isActive.trans active)
      (fun merged applied => calm merged (.buffered quiet waiting decodes applied))
  | failed quiet waiting decodes other inner ih =>
    exact ih (quiet.isActive.trans active)
      (fun merged applied => calm merged (.buffered quiet waiting decodes applied))

/-! ### The wipe -/

theorem removePendingProposals_kept (laws : ActivityLaws b) (references : List Bytes)
    (group : b.Group) : Kept group (removePendingProposals b references group).2 := by
  induction references generalizing group with
  | nil => exact .refl group
  | cons reference rest ih =>
    have kept := laws.proposalRemoved group reference
    rcases called : b.removePendingProposal group reference with ⟨result, after⟩
    rw [called] at kept
    cases result with
    | ok _ =>
      simp only [removePendingProposals, called]
      exact kept.trans (ih after)
    | error code =>
      simp only [removePendingProposals, called]
      exact kept

/-- `wipe` deletes the row of the group and its cache entry. -/
theorem wipe_kept (serialises : Serialises b) (removes : RemovesProposals b)
    (laws : ActivityLaws b) (env : Env b) :
    ∃ group, Kept env.group group ∧ wipe b env = .ok () (env.written group).wiped := by
  obtain ⟨group, removed⟩ :=
    removePendingProposals_ok removes (b.deletePreviousEpochKeypairs env.group)
  have kept := (laws.keysDeleted env.group).trans (removePendingProposals_kept laws
    ((b.deletePreviousEpochKeypairs env.group).pendingProposals.map (·.reference)) _)
  rw [removed] at kept
  exact ⟨group, kept, wipe_removed serialises removed⟩

/-- The conversation of `origin` is deleted. -/
structure Dropped (origin env : Env b) : Prop where
  within : Within origin { env with conversationCache := origin.conversationCache }
  conversationCache : env.conversationCache = origin.conversationCache.remove origin.id
  row : env.groupRow = none

variable {origin : Env b}

theorem dropped_wiped (within : Within origin env) (group : b.Group) :
    Dropped origin (env.written group).wiped := by
  have written := within.writes (touched_group within group) group.setPersisted
  have erased := written.writes
    (.remove (groupEntityId env.id) (.inl (by rw [within.id])) .refl) group.setPersisted
  refine ⟨⟨within.id, within.configuration, within.rows, rfl, erased.keyed, erased.reads⟩, ?_, ?_⟩
  · simp only [Env.wiped, Env.written, within.conversationCache, within.id]
  · simp [Env.groupRow, Env.wiped, Env.written]

/-! ### `decrypt_message` -/

theorem attached_save (attached : Attached origin env) {entity : Entity b.State}
    (allowed : b.rt.fromEntity entity = bufferedCommitEntityId env.id ∨
      entity.typ = .mlsPendingMessage) :
    Attached origin { env with transaction := env.transaction.save b.rt entity } := by
  have writes : Writes b.rt (fun entityId => entityId = bufferedCommitEntityId env.id ∨
      entityId.typ = .mlsPendingMessage) env.transaction (env.transaction.save b.rt entity) :=
    .save entity allowed .refl
  refine ⟨attached.within.writes (writes.mono ?_) env.group,
    rowAgrees_of_writes attached.agrees writes ?_⟩
  · rintro entityId (same | typ)
    · exact .inr (.inl (by rw [same, attached.within.id]))
    · exact .inr (.inr (.inl typ))
  · simp [groupEntityId, bufferedCommitEntityId]

/-- What a call of `decrypt_message` leaves: its answer says whether the client is a member, and
the conversation is deleted if it is not. -/
def Leaves (origin : Env b) : EStateM.Result Error (Env b) (DecryptedMessage b) → Prop
  | .ok decrypted env' => env'.group.isActive = decrypted.isActive ∧
      (decrypted.isActive = true → Attached origin env') ∧
      (decrypted.isActive = false → Dropped origin env')
  | .error _ env' => env'.group.isActive = true ∧ Attached origin env'

theorem leaves_settle (serialises : Serialises b) (removes : RemovesProposals b)
    (laws : ActivityLaws b) (bytes : Bytes) (attached : Attached origin env)
    {result : Except Error (DecryptedMessage b)}
    (answers : ∀ decrypted, result = .ok decrypted → env.group.isActive = decrypted.isActive)
    (refuses : ∀ e, result = .error e → env.group.isActive = true) :
    Leaves origin (settle b bytes result env) := by
  cases result with
  | error e =>
    have active := refuses e rfl
    cases e with
    | bufferedFutureMessage epoch =>
      exact ⟨active, attached_save attached (.inr rfl)⟩
    | bufferedCommit =>
      exact ⟨active, attached_save attached (.inl rfl)⟩
    | _ => exact ⟨active, attached⟩
  | ok decrypted =>
    have agrees := answers decrypted rfl
    cases active : decrypted.isActive with
    | true =>
      simp only [settle, active]
      refine ⟨agrees, fun _ => attached, fun inactive => ?_⟩
      rw [active] at inactive
      cases inactive
    | false =>
      obtain ⟨group, kept, wiped⟩ := wipe_kept serialises removes laws env
      simp only [settle, active, bind, EStateM.bind, Bool.not_false, if_true, wiped]
      refine ⟨kept.isActive.trans agrees, fun isActive => ?_,
        fun _ => dropped_wiped attached.within group⟩
      rw [active] at isActive
      cases isActive

theorem leaves_decryptMessage (serialises : Serialises b) (roundTrips : RoundTrips b)
    (removes : RemovesProposals b) (epochs : EpochLaws b) (laws : ActivityLaws b) {bytes : Bytes}
    (attached : Attached env env) (active : env.group.isActive = true)
    (calm : ∀ message, b.tlsDeserialize bytes = some message →
      ∀ merged, Applied b env message merged → merged.Calm) :
    Leaves env (decryptMessage b bytes env) := by
  cases decodes : b.tlsDeserialize bytes with
  | none =>
    simp only [decryptMessage, decodes]
    exact ⟨active, attached⟩
  | some message =>
    have went := receives serialises epochs recursionDepth env message
    have answers := answersActivity_of_receives serialises epochs laws went active
      (calm message decodes)
    have kept := keeps_decryptMessageInner (stable_attached roundTrips serialises env) serialises
      epochs message .asNecessary env attached
    have inner : decryptAsNecessary b recursionDepth message env =
        decryptMessageInner b message .asNecessary env := rfl
    rw [inner] at answers
    simp only [decryptMessage, decodes, bind, EStateM.bind, attempt]
    cases called : decryptMessageInner b message .asNecessary env with
    | ok decrypted env' =>
      rw [called] at answers kept
      refine leaves_settle serialises removes laws bytes kept ?_ ?_
      · intro _ same
        cases same
        exact answers
      · intro e impossible
        cases impossible
    | error e env' =>
      rw [called] at answers kept
      refine leaves_settle serialises removes laws bytes kept ?_ ?_
      · intro _ impossible
        cases impossible
      · intro _ _
        exact answers

end CoreCrypto.Conversation
