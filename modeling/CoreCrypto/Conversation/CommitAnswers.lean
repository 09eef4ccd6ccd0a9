import CoreCrypto.Conversation.Committing

/-!
# What OpenMLS is asked for by the committing operations

The requests of an operation follow from the group before it and from the answers to the requests
before.  Each lemma says what OpenMLS has to answer for a part of an operation to succeed.
-/

namespace CoreCrypto.Conversation

open Keystore Library

variable {b : Backend} {α : Type}

/-- The group without a pending commit. -/
def unpended (b : Backend) (group : b.Group) : b.Group :=
  if group.pendingCommit.isNone then group else (b.clearPendingCommit group).setPersisted

/-- OpenMLS creates the commit of the bundle and leaves the group `after`. -/
def Creates (b : Backend) (clock : Nat) (group : b.Group) (signer : CredentialWithKey)
    (request : CommitRequest) (commit : CommitBundle) (after : b.Group) : Prop :=
  ∃ output, b.createCommit clock group signer request = (.ok output, after) ∧
    commitBundle b output = .ok commit

/-- What an operation that adds no history client asks for: the credential that signs the commit and
what goes into it; `start` is the group without a pending commit. -/
def CommittingCall.request (b : Backend) (group start : b.Group) :
    CommittingCall → Option (CredentialWithKey × CommitRequest)
  | .addMembers keyPackages => signed (.addMembers keyPackages)
  | .removeMembers clients => signed (removal clients)
  | .updateKeyMaterial => (credential b group).toOption.bind update
  | .setCredentialByRef credentialRef => (b.loadCredential credentialRef).toOption.bind update
  | .commitPendingProposals =>
    if start.pendingProposals.isEmpty then none else signed .commitToPendingProposals
  | .enableHistorySharing => none
  | .disableHistorySharing =>
    if (getHistoryClientIds group).isEmpty then none
    else signed (removal (getHistoryClientIds group))
where
  signed (request : CommitRequest) : Option (CredentialWithKey × CommitRequest) :=
    (credential b start).toOption.map (·, request)
  removal (clients : List Bytes) : CommitRequest :=
    .removeMembers ((start.members.filter
      (fun member => member.credential.identity ∈ clients)).map (·.index))
  update (signer : CredentialWithKey) : Option (CredentialWithKey × CommitRequest) :=
    start.ownLeaf.map fun leafNode => (signer, .explicitSelfUpdate
      (if leafNode.identity = signer.identity ∧ leafNode.content = signer.content then none
        else some signer))

/-- OpenMLS takes the proposals to remove the members, one after the other, and then the one to add
the client; `clock` counts its calls. -/
inductive TakesProposals (b : Backend) (keyPackage : KeyPackageIn) :
    List Nat → Nat → b.Group → Nat → b.Group → Prop
  | add {clock : Nat} {group after : b.Group} {signer : CredentialWithKey} {message : Bytes}
      (signs : credential b group = .ok signer)
      (added : b.proposeAddMember clock group signer keyPackage = (.ok message, after)) :
      TakesProposals b keyPackage [] clock group (clock + 1) after.setPersisted
  | remove {member clock clock' : Nat} {rest : List Nat} {group after last : b.Group}
      {signer : CredentialWithKey} {message : Bytes} (signs : credential b group = .ok signer)
      (removed : b.proposeRemoveMember clock group signer member = (.ok message, after))
      (further : TakesProposals b keyPackage rest (clock + 1) after.setPersisted clock' last) :
      TakesProposals b keyPackage (member :: rest) clock group clock' last

/-- OpenMLS creates the commit that takes the place of `pendingCommit` and also replaces the history
clients at the leaves `existing`. -/
def Replacement (b : Backend) (cipherSuite clock : Nat) (group : b.Group)
    (pendingCommit : StagedCommit b.K) (existing : List Nat) (commit : CommitBundle)
    (historySecret : HistorySecret) (clock' : Nat) (group' : b.Group) : Prop :=
  b.generateHistorySecret clock cipherSuite = .ok historySecret ∧
    ∃ asked proposed signer after,
      TakesProposals b historySecret.keyPackage existing (clock + 1)
        (b.clearPendingCommit group).setPersisted asked proposed ∧
      credential b proposed = .ok signer ∧
      Creates b asked proposed signer (.commitToInlineProposals
        (pendingCommit.queuedProposals.map (·.proposal) ++ ownPendingProposals proposed)) commit
        after ∧
      clock' = asked + 1 ∧ group' = after.setPersisted

variable {env env' : Env b} {commit : CommitBundle}

namespace Env

/-- The handle after OpenMLS or the delivery service was called. -/
def called (env : Env b) : Env b := { env with clock := env.clock + 1 }

/-- The handle without a pending commit. -/
def unpended (env : Env b) : Env b :=
  if env.group.pendingCommit.isNone then env else env.written (b.clearPendingCommit env.group)

theorem unpended_group (env : Env b) : env.unpended.group = Conversation.unpended b env.group := by
  unfold unpended Conversation.unpended
  split <;> rfl

theorem unpended_clock (env : Env b) : env.unpended.clock = env.clock := by
  unfold unpended
  split <;> rfl

theorem unpended_configuration (env : Env b) : env.unpended.configuration = env.configuration := by
  unfold unpended
  split <;> rfl

end Env

/-- The handle obtains the commit from OpenMLS and is written back. -/
def Env.Obtains (env : Env b) (signer : CredentialWithKey) (request : CommitRequest)
    (commit : CommitBundle) (env' : Env b) : Prop :=
  ∃ after, Creates b env.clock env.group signer request commit after ∧
    env' = env.called.written after

/-- It does so with its own credential. -/
def Env.Signs (env : Env b) (request : CommitRequest) (commit : CommitBundle) (env' : Env b) :
    Prop :=
  ∃ signer, credential b env.group = .ok signer ∧ env.Obtains signer request commit env'

theorem get_bind {f : Env b → Op b α} : (get >>= f) env = f env env := rfl

theorem liftExcept_eq_ok {ε : Type} {wrap : ε → Error} {result : Except ε α}
    {a : α} : liftExcept b wrap result env = .ok a env' ↔ result = .ok a ∧ env' = env := by
  cases result with
  | error e => simp [liftExcept, throw, throwThe, MonadExceptOf.throw, EStateM.throw]
  | ok value =>
    simp only [liftExcept, pure, EStateM.pure, EStateM.Result.ok.injEq, Except.ok.injEq]
    exact and_congr_right fun _ => eq_comm

theorem currentCredential_eq_ok {signer : CredentialWithKey} :
    currentCredential b env = .ok signer env' ↔ credential b env.group = .ok signer ∧ env' = env :=
  liftExcept_eq_ok

theorem onGroup_eq_ok {f : b.Group → Except Error α × b.Group} {a : α} :
    onGroup b f env = .ok a env' ↔ ∃ after, f env.group = (.ok a, after) ∧
      env' = { env with group := after } := by
  rcases called : f env.group with ⟨result, group⟩
  cases result with
  | error e => simp [onGroup, called]
  | ok value =>
    simp only [onGroup, called, EStateM.Result.ok.injEq, Prod.mk.injEq, Except.ok.injEq]
    constructor
    · rintro ⟨rfl, rfl⟩
      exact ⟨group, ⟨rfl, rfl⟩, rfl⟩
    · rintro ⟨_, ⟨rfl, rfl⟩, rfl⟩
      exact ⟨rfl, rfl⟩

theorem wrapped_eq_ok {ε : Type} {wrap : ε → Error} {result : Except ε α} {after : b.Group}
    {group : b.Group} {a : α} :
    (result.mapError wrap, group) = (.ok a, after) ↔ (result, group) = (.ok a, after) := by
  cases result <;> simp [Except.mapError]

theorem generateHistorySecret_eq_ok {historySecret : HistorySecret} :
    generateHistorySecret b env = .ok historySecret env' ↔
      b.generateHistorySecret env.clock env.configuration.cipherSuite = .ok historySecret ∧
        env' = env.called := by
  change liftExcept b _ (b.generateHistorySecret env.clock _) env.called = _ ↔ _
  exact liftExcept_eq_ok

theorem createCommit_eq_ok {wrap : CreateCommitError → Error} {signer : CredentialWithKey}
    {request : CommitRequest} {output : CommitOutput} :
    createCommit b wrap signer request env = .ok output env' ↔
      ∃ after, b.createCommit env.clock env.group signer request = (.ok output, after) ∧
        env' = { env.called with group := after } := by
  have asks : createCommit b wrap signer request env = onGroup b (fun group =>
      ((b.createCommit env.clock group signer request).1.mapError wrap,
        (b.createCommit env.clock group signer request).2)) env.called := rfl
  rw [asks, onGroup_eq_ok]
  simp only [wrapped_eq_ok]
  rfl

section Written

variable (serialises : Serialises b)

include serialises

theorem mutateGroup_eq_ok {op : Op b α} {a : α} :
    mutateGroup b op env = .ok a env' ↔
      ∃ env₁, op env = .ok a env₁ ∧ env' = env₁.written env₁.group := by
  simp only [mutateGroup, bind_eq_ok, persist_eq serialises]
  constructor
  · rintro ⟨_, env₁, done, _, _, ⟨⟩, ⟨⟩⟩
    exact ⟨env₁, done, rfl⟩
  · rintro ⟨env₁, done, rfl⟩
    exact ⟨a, env₁, done, (), _, rfl, rfl⟩

theorem ensureNoPendingCommit_eq (env : Env b) :
    ensureNoPendingCommit b env = .ok () env.unpended := by
  unfold Env.unpended
  cases pending : env.group.pendingCommit with
  | none =>
    have called : clearPendingCommit b env = .error .pendingCommitNotFound env :=
      mutateGroup_error _ env _ env.group (if_pos (by simp [pending]))
    simp only [ensureNoPendingCommit, attempt, bind, EStateM.bind, called]
    rfl
  | some staged =>
    have called : clearPendingCommit b env = .ok () (env.written (b.clearPendingCommit env.group)) :=
      mutateGroup_ok serialises _ env () _ (if_neg (by simp [pending]))
    simp only [ensureNoPendingCommit, attempt, bind, EStateM.bind, called]
    rfl

theorem ensured_bind {f : Unit → Op b α} :
    (ensureNoPendingCommit b >>= f) env = f () env.unpended := by
  simp only [bind, EStateM.bind, ensureNoPendingCommit_eq serialises]

variable {signer : CredentialWithKey} {request : CommitRequest}

theorem bundleWithin_eq_ok (wrap : CreateCommitError → Error) :
    mutateGroup b (createCommit b wrap signer request >>= fun output =>
        liftExcept b id (commitBundle b output)) env = .ok commit env' ↔
      env.Obtains signer request commit env' := by
  simp only [mutateGroup_eq_ok serialises, bind_eq_ok, createCommit_eq_ok, liftExcept_eq_ok]
  constructor
  · rintro ⟨_, ⟨output, _, ⟨after, created, rfl⟩, made, rfl⟩, rfl⟩
    exact ⟨after, ⟨output, created, made⟩, rfl⟩
  · rintro ⟨after, ⟨output, created, made⟩, rfl⟩
    exact ⟨_, ⟨output, _, ⟨after, created, rfl⟩, made, rfl⟩, rfl⟩

theorem bundleAfter_eq_ok (wrap : CreateCommitError → Error) :
    (mutateGroup b (createCommit b wrap signer request) >>= fun output =>
        liftExcept b id (commitBundle b output)) env = .ok commit env' ↔
      env.Obtains signer request commit env' := by
  simp only [mutateGroup_eq_ok serialises, bind_eq_ok, createCommit_eq_ok, liftExcept_eq_ok]
  constructor
  · rintro ⟨output, _, ⟨_, ⟨after, created, rfl⟩, rfl⟩, made, rfl⟩
    exact ⟨after, ⟨output, created, made⟩, rfl⟩
  · rintro ⟨after, ⟨output, created, made⟩, rfl⟩
    exact ⟨output, _, ⟨_, ⟨after, created, rfl⟩, rfl⟩, made, rfl⟩

theorem signedCommit_eq_ok (wrap : CreateCommitError → Error) :
    (do
      let signer ← currentCredential b
      let output ← mutateGroup b (createCommit b wrap signer request)
      return some (← liftExcept b id (commitBundle b output)) : Op b _) env =
        .ok (some commit) env' ↔ env.Signs request commit env' := by
  simp only [bind_eq_ok, currentCredential_eq_ok]
  constructor
  · rintro ⟨signer, _, ⟨signs, rfl⟩, output, written, created, made, _, lifted, ⟨⟩⟩
    exact ⟨signer, signs, (bundleAfter_eq_ok serialises _).mp
      (bind_eq_ok.mpr ⟨output, written, created, lifted⟩)⟩
  · rintro ⟨signer, signs, created⟩
    obtain ⟨output, written, created, lifted⟩ :=
      bind_eq_ok.mp ((bundleAfter_eq_ok serialises wrap).mpr created)
    exact ⟨signer, _, ⟨signs, rfl⟩, output, written, created, commit, _, lifted, rfl⟩

/-! ### The first commit of an operation -/

theorem addMembersInner_eq_ok {keyPackages : List KeyPackageIn} :
    addMembersInner b keyPackages env = .ok commit env' ↔
      env.unpended.Signs (.addMembers keyPackages) commit env' := by
  rw [addMembersInner, ensured_bind serialises, bind_eq_ok]
  simp only [currentCredential_eq_ok, bundleWithin_eq_ok serialises, and_assoc, exists_and_left,
    exists_eq_left, Env.Signs]

theorem removeMembersInner_eq_ok {clients : List Bytes} :
    removeMembersInner b clients env = .ok commit env' ↔
      env.unpended.Signs (CommittingCall.request.removal b env.unpended.group clients) commit
        env' := by
  rw [removeMembersInner, ensured_bind serialises, bind_eq_ok]
  simp only [currentCredential_eq_ok, and_assoc, exists_and_left, exists_eq_left]
  exact exists_congr fun signer => and_congr_right fun _ => bundleAfter_eq_ok serialises _

theorem setCredentialInner_eq_ok :
    setCredentialInner b signer env = .ok commit env' ↔
      ∃ request, CommittingCall.request.update b env.unpended.group signer =
        some (signer, request) ∧ env.unpended.Obtains signer request commit env' := by
  rw [setCredentialInner, ensured_bind serialises, mutateGroup_eq_ok serialises]
  simp only [CommittingCall.request.update, get_bind]
  cases env.unpended.group.ownLeaf with
  | none => simp [throw, throwThe, MonadExceptOf.throw, EStateM.throw]
  | some leafNode =>
    simp only [← mutateGroup_eq_ok serialises, bundleWithin_eq_ok serialises, Option.map_some,
      Option.some.injEq, Prod.mk.injEq, true_and, exists_eq_left']

theorem update_iff {ε : Type} {loaded : Except ε CredentialWithKey} :
    (∃ signer, loaded = .ok signer ∧ setCredentialInner b signer env = .ok commit env') ↔
      ∃ signer request, loaded.toOption.bind (CommittingCall.request.update b env.unpended.group) =
        some (signer, request) ∧ env.unpended.Obtains signer request commit env' := by
  cases loaded with
  | error e => simp [Except.toOption]
  | ok loaded =>
    simp only [Except.ok.injEq, exists_eq_left', setCredentialInner_eq_ok serialises, Except.toOption,
      Option.bind_some]
    constructor
    · rintro ⟨request, asked, obtains⟩
      exact ⟨loaded, request, asked, obtains⟩
    · rintro ⟨signer, request, asked, obtains⟩
      obtain ⟨leafNode, -, same⟩ := Option.map_eq_some_iff.mp asked
      obtain rfl : loaded = signer := congrArg Prod.fst same
      exact ⟨request, asked, obtains⟩

theorem commitPendingProposals_eq_ok :
    CommittingCall.commitPendingProposals.create b env = .ok (some (commit, none)) env' ↔
      env.unpended.group.pendingProposals.isEmpty = false ∧
        env.unpended.Signs .commitToPendingProposals commit env' := by
  rw [CommittingCall.create, ensured_bind serialises, ← signedCommit_eq_ok serialises
    (createCommitError "group commit to pending proposals"), bind_eq_ok]
  constructor
  · rintro ⟨made, _, done, answer⟩
    rw [commitPendingProposalsInner, get_bind] at done
    cases empty : env.unpended.group.pendingProposals.isEmpty with
    | true =>
      rw [if_pos empty] at done
      cases done
      cases answer
    | false =>
      rw [if_neg (by simp [empty])] at done
      cases made <;> cases answer
      exact ⟨rfl, done⟩
  · rintro ⟨nonempty, done⟩
    refine ⟨some commit, _, ?_, rfl⟩
    rw [commitPendingProposalsInner, get_bind, if_neg (by simp [nonempty]), done]

theorem commitInlineProposals_eq_ok {proposals : List Proposal} (nonempty : proposals ≠ []) :
    commitInlineProposals b proposals env = .ok (some commit) env' ↔
      env.Signs (.commitToInlineProposals proposals) commit env' := by
  rw [commitInlineProposals, if_neg (by simp [nonempty]), signedCommit_eq_ok serialises]

omit serialises in
theorem returned_iff {op : Op b CommitBundle} {secret secret' : Option HistorySecret} :
    (op >>= fun made => pure (some (made, secret))) env = .ok (some (commit, secret')) env' ↔
      op env = .ok commit env' ∧ secret' = secret := by
  rw [bind_eq_ok]
  constructor
  · rintro ⟨_, _, done, ⟨⟩⟩
    exact ⟨done, rfl⟩
  · rintro ⟨done, rfl⟩
    exact ⟨commit, env', done, rfl⟩

omit serialises in
theorem signs_iff {asked : CommitRequest} :
    env.Signs asked commit env' ↔
      ∃ signer request, CommittingCall.request.signed b env.group asked = some (signer, request) ∧
        env.Obtains signer request commit env' := by
  rw [CommittingCall.request.signed, Env.Signs]
  cases credential b env.group <;> simp [Except.toOption]

/-- **What the operations ask for that add no history client.** -/
theorem create_plain_iff {call : CommittingCall} :
    call.create b env = .ok (some (commit, none)) env' ↔
      ∃ signer request, call.request b env.group env.unpended.group = some (signer, request) ∧
        env.unpended.Obtains signer request commit env' := by
  cases call with
  | addMembers keyPackages =>
    simp only [CommittingCall.create, CommittingCall.request, returned_iff, and_true,
      addMembersInner_eq_ok serialises, signs_iff]
  | removeMembers clients =>
    simp only [CommittingCall.create, CommittingCall.request, returned_iff, and_true,
      removeMembersInner_eq_ok serialises, signs_iff]
  | updateKeyMaterial =>
    rw [CommittingCall.create, CommittingCall.request, ← update_iff serialises, bind_eq_ok]
    simp only [currentCredential_eq_ok, returned_iff, and_true, and_assoc, exists_and_left,
      exists_eq_left]
  | setCredentialByRef credentialRef =>
    rw [CommittingCall.create, CommittingCall.request, ← update_iff serialises, bind_eq_ok]
    simp only [liftExcept_eq_ok, returned_iff, and_true, and_assoc, exists_and_left, exists_eq_left]
  | commitPendingProposals =>
    rw [commitPendingProposals_eq_ok serialises, CommittingCall.request, signs_iff]
    cases env.unpended.group.pendingProposals.isEmpty <;> simp
  | enableHistorySharing =>
    simp only [CommittingCall.create, get_bind, CommittingCall.request]
    split
    next => simp [pure, EStateM.pure]
    next =>
      rw [bind_eq_ok]
      simp only [returned_iff, reduceCtorEq, and_false, false_and, exists_false]
  | disableHistorySharing =>
    simp only [CommittingCall.create, get_bind, CommittingCall.request]
    cases (getHistoryClientIds env.group).isEmpty with
    | true => simp [pure, EStateM.pure]
    | false =>
      simp only [Bool.false_eq_true, if_false, returned_iff, and_true,
        removeMembersInner_eq_ok serialises, signs_iff]

/-- What is asked for to enable history sharing. -/
theorem create_history_iff {call : CommittingCall} {historySecret : HistorySecret} :
    call.create b env = .ok (some (commit, some historySecret)) env' ↔
      call = .enableHistorySharing ∧ isHistorySharingEnabled env.group = false ∧
        b.generateHistorySecret env.clock env.configuration.cipherSuite = .ok historySecret ∧
        env.called.unpended.Signs (.addMembers [historySecret.keyPackage]) commit env' := by
  cases call with
  | enableHistorySharing =>
    simp only [CommittingCall.create, get_bind, true_and]
    cases isHistorySharingEnabled env.group with
    | true => simp [pure, EStateM.pure]
    | false =>
      rw [if_neg (by simp), bind_eq_ok]
      simp only [returned_iff, generateHistorySecret_eq_ok, addMembersInner_eq_ok serialises, true_and]
      constructor
      · rintro ⟨secret, _, ⟨generated, rfl⟩, signs, ⟨⟩⟩
        exact ⟨generated, signs⟩
      · rintro ⟨generated, signs⟩
        exact ⟨historySecret, _, ⟨generated, rfl⟩, signs, rfl⟩
  | commitPendingProposals =>
    simp only [CommittingCall.create, ensured_bind serialises, reduceCtorEq, false_and, iff_false]
    intro created
    obtain ⟨made, _, -, answer⟩ := bind_eq_ok.mp created
    cases made <;> cases answer
  | disableHistorySharing =>
    simp only [CommittingCall.create, get_bind, reduceCtorEq, false_and, iff_false]
    split
    next => simp [pure, EStateM.pure]
    next => simp only [returned_iff, reduceCtorEq, and_false, not_false_eq_true]
  | addMembers | removeMembers =>
    simp only [CommittingCall.create, returned_iff, reduceCtorEq, and_false, false_and]
  | updateKeyMaterial | setCredentialByRef =>
    rw [CommittingCall.create, bind_eq_ok]
    simp only [returned_iff, reduceCtorEq, and_false, false_and, exists_false]

/-! ### The commit that replaces a history client -/

/-- A call of OpenMLS that is signed with the credential of the handle. -/
theorem signedCall_eq_ok {f : Nat → CredentialWithKey → b.Group → Except Nat α × b.Group}
    {context : String} {a : α} :
    (do
      let signer ← currentCredential b
      let call ← tick b
      mutateGroup b (onGroup b fun group =>
        ((f call signer group).1.mapError (.openMls context), (f call signer group).2)) : Op b α)
        env = .ok a env' ↔
      ∃ signer after, credential b env.group = .ok signer ∧
        f env.clock signer env.group = (.ok a, after) ∧ env' = env.called.written after := by
  simp only [bind_eq_ok, currentCredential_eq_ok, mutateGroup_eq_ok serialises, onGroup_eq_ok,
    wrapped_eq_ok]
  constructor
  · rintro ⟨signer, _, ⟨signs, rfl⟩, _, _, ⟨⟩, _, ⟨after, called, rfl⟩, rfl⟩
    exact ⟨signer, after, signs, called, rfl⟩
  · rintro ⟨signer, after, signs, called, rfl⟩
    exact ⟨signer, _, ⟨signs, rfl⟩, _, _, rfl, _, ⟨after, called, rfl⟩, rfl⟩

theorem takesProposals_of_ok {keyPackage : KeyPackageIn} {members : List Nat} {env₁ : Env b}
    {message : Bytes}
    (removed : (members.forM fun member => discard (proposeRemoveMember b member)) env = .ok () env₁)
    (added : proposeAddMember b keyPackage env₁ = .ok message env') :
    TakesProposals b keyPackage members env.clock env.group env'.clock env'.group := by
  induction members generalizing env with
  | nil =>
    cases removed
    obtain ⟨signer, after, signs, taken, rfl⟩ := (signedCall_eq_ok serialises).mp added
    exact .add signs taken
  | cons member rest ih =>
    obtain ⟨_, last, first, further⟩ := bind_eq_ok.mp removed
    obtain ⟨_, _, proposed, ⟨⟩⟩ := bind_eq_ok.mp first
    obtain ⟨signer, after, signs, taken, rfl⟩ := (signedCall_eq_ok serialises).mp proposed
    exact .remove signs taken (ih further)

theorem ok_of_takesProposals {keyPackage : KeyPackageIn} {members : List Nat} {clock clock' : Nat}
    {group last : b.Group} (proposes : TakesProposals b keyPackage members clock group clock' last)
    (env : Env b) (sameClock : env.clock = clock) (sameGroup : env.group = group) :
    ∃ env₁ message env',
      (members.forM fun member => discard (proposeRemoveMember b member)) env = .ok () env₁ ∧
      proposeAddMember b keyPackage env₁ = .ok message env' ∧ env'.clock = clock' ∧
      env'.group = last := by
  induction proposes generalizing env with
  | @add clock group after signer message signs added =>
    subst sameClock sameGroup
    exact ⟨env, message, _, rfl, (signedCall_eq_ok serialises).mpr ⟨signer, after, signs, added, rfl⟩,
      rfl, rfl⟩
  | @remove member clock clock' rest group after last signer message signs removed further ih =>
    subst sameClock sameGroup
    have proposed : proposeRemoveMember b member env = .ok message (env.called.written after) :=
      (signedCall_eq_ok serialises).mpr ⟨signer, after, signs, removed, rfl⟩
    obtain ⟨env₁, added, env', forM, adds, same⟩ := ih (env.called.written after) rfl rfl
    refine ⟨env₁, added, env', bind_eq_ok.mpr ⟨(), _, ?_, forM⟩, adds, same⟩
    exact bind_eq_ok.mpr ⟨message, _, proposed, rfl⟩

theorem replacement_of_ok {pendingCommit : StagedCommit b.K} {existing : List Nat}
    {historySecret : HistorySecret} (pending : env.group.pendingCommit ≠ none)
    (nonempty : pendingCommit.queuedProposals ≠ [])
    (replaced : replacementCommit b pendingCommit existing env = .ok (commit, historySecret) env') :
    Replacement b env.configuration.cipherSuite env.clock env.group pendingCommit existing commit
      historySecret env'.clock env'.group := by
  obtain ⟨_, _, cleared, replaced⟩ := bind_eq_ok.mp replaced
  have clears : clearPendingCommit b env = .ok () (env.written (b.clearPendingCommit env.group)) :=
    mutateGroup_ok serialises _ env () _ (if_neg (by simpa using pending))
  cases clears.symm.trans cleared
  obtain ⟨secret, _, generated, replaced⟩ := bind_eq_ok.mp replaced
  obtain ⟨answered, rfl⟩ := generateHistorySecret_eq_ok.mp generated
  obtain ⟨_, _, removed, replaced⟩ := bind_eq_ok.mp replaced
  obtain ⟨_, proposed, added, replaced⟩ := bind_eq_ok.mp replaced
  obtain ⟨message, _, added, ⟨⟩⟩ := bind_eq_ok.mp added
  rw [get_bind] at replaced
  obtain ⟨made, _, created, returned⟩ := bind_eq_ok.mp replaced
  cases made with
  | none => cases returned
  | some made =>
    cases returned
    obtain ⟨signer, signs, after, creates, rfl⟩ :=
      (commitInlineProposals_eq_ok serialises (by simp [nonempty])).mp created
    exact ⟨answered, _, _, signer, after, takesProposals_of_ok serialises removed added, signs, creates,
      rfl, rfl⟩

theorem ok_of_replacement {pendingCommit : StagedCommit b.K} {existing : List Nat}
    {historySecret : HistorySecret} {clock : Nat} {group : b.Group}
    (pending : env.group.pendingCommit ≠ none) (nonempty : pendingCommit.queuedProposals ≠ [])
    (replacement : Replacement b env.configuration.cipherSuite env.clock env.group pendingCommit
      existing commit historySecret clock group) :
    ∃ env', replacementCommit b pendingCommit existing env = .ok (commit, historySecret) env' ∧
      env'.clock = clock ∧ env'.group = group := by
  obtain ⟨generated, _, _, signer, after, proposes, signs, creates, rfl, rfl⟩ := replacement
  have clears : clearPendingCommit b env = .ok () (env.written (b.clearPendingCommit env.group)) :=
    mutateGroup_ok serialises _ env () _ (if_neg (by simpa using pending))
  obtain ⟨env₁, message, proposed, removed, added, rfl, rfl⟩ := ok_of_takesProposals serialises proposes
    (env.written (b.clearPendingCommit env.group)).called rfl rfl
  refine ⟨proposed.called.written after, bind_eq_ok.mpr ⟨_, _, clears, ?_⟩, rfl, rfl⟩
  refine bind_eq_ok.mpr ⟨_, _, generateHistorySecret_eq_ok.mpr ⟨generated, rfl⟩, ?_⟩
  refine bind_eq_ok.mpr ⟨_, _, removed, ?_⟩
  refine bind_eq_ok.mpr ⟨_, _, bind_eq_ok.mpr ⟨_, _, added, rfl⟩, ?_⟩
  rw [get_bind]
  refine bind_eq_ok.mpr ⟨some commit, _, ?_, rfl⟩
  exact (commitInlineProposals_eq_ok serialises (by simp [nonempty])).mpr
    ⟨signer, signs, after, creates, rfl⟩

end Written

end CoreCrypto.Conversation
