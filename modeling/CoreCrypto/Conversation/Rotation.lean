import CoreCrypto.Conversation.Atomicity

/-!
# Rotating the history client

A commit that removes a member, but not all history clients, is taken back and made again from
its proposals, together with proposals that put a new history client in the place of the old
ones.  The first commit has a credential of its own in its path; the second one has only what the
proposals say.
-/

namespace CoreCrypto.Conversation

open Keystore Library

variable {b : Backend} {α : Type}

/-! ### The members that proposals leave -/

def clientIds {K : Type} (group : MlsGroup K) : List Bytes :=
  group.members.map (·.credential.identity)

def addedClients (proposals : List Proposal) : List Bytes :=
  proposals.filterMap fun
    | .add keyPackage => some keyPackage.identity
    | _ => none

def leavesRemoved (proposals : List Proposal) : List Nat := proposals.filterMap Proposal.removed?

/-- The clients of the members that stay when the proposals are committed. -/
def keptClients {K : Type} (group : MlsGroup K) (proposals : List Proposal) : List Bytes :=
  (group.members.filter (·.index ∉ leavesRemoved proposals)).map (·.credential.identity)

/-- The clients in the group after the proposals are committed. -/
def clientsAfter {K : Type} (group : MlsGroup K) (proposals : List Proposal) : List Bytes :=
  keptClients group proposals ++ addedClients proposals

/-- The proposals of a commit. -/
def stagedProposals {K : Type} (commit : StagedCommit K) : List Proposal :=
  commit.queuedProposals.map (·.proposal)

theorem removedIndices_eq (commit : StagedCommit b.K) :
    removedIndices commit = leavesRemoved (stagedProposals commit) := by
  rw [leavesRemoved, stagedProposals, List.filterMap_map]
  rfl

theorem addedClients_append (first second : List Proposal) :
    addedClients (first ++ second) = addedClients first ++ addedClients second :=
  List.filterMap_append

/-! ### When the history client is rotated -/

/-- The commit removes a member that is no history client and leaves a history client. -/
def Rotates (group : b.Group) (commit : StagedCommit b.K) : Prop :=
  (∃ index ∈ otherIndices group, index ∈ removedIndices commit) ∧
    ∃ index ∈ historyIndices group, index ∉ removedIndices commit

theorem needsHistoryUpdate_iff (group : b.Group) (commit : StagedCommit b.K) :
    needsHistoryUpdate group commit = true ↔ Rotates group commit := by
  simp only [needsHistoryUpdate, Rotates, Bool.and_eq_true, Bool.not_eq_true', List.any_eq_true,
    List.all_eq_false, decide_eq_true_eq, List.isEmpty_eq_false_iff]
  constructor
  · rintro ⟨⟨_, history⟩, other⟩
    exact ⟨other, history⟩
  · rintro ⟨⟨index, member, removed⟩, history⟩
    exact ⟨⟨List.ne_nil_of_mem removed, history⟩, index, member, removed⟩

theorem mem_historyIndices {group : b.Group} {index : Nat} :
    index ∈ historyIndices group ↔
      ∃ member ∈ group.members, isHistoryClient member.credential.identity = true ∧
        member.index = index := by
  simp [historyIndices, and_assoc]

/-- A group with a history client shares its history. -/
theorem Rotates.enabled {group : b.Group} {commit : StagedCommit b.K}
    (rotates : Rotates group commit) : isHistorySharingEnabled group = true := by
  obtain ⟨_, index, history, _⟩ := rotates
  obtain ⟨member, present, isHistory, _⟩ := mem_historyIndices.mp history
  have listed : member.credential.identity ∈ getHistoryClientIds group :=
    List.mem_filter.mpr ⟨List.mem_map_of_mem present, isHistory⟩
  simpa [isHistorySharingEnabled] using List.ne_nil_of_mem listed

theorem replaces_iff {env : Env b} {commit : StagedCommit b.K}
    (pending : env.group.pendingCommit = some commit) :
    Replaces env commit ↔ Rotates env.group commit := by
  rw [Replaces, needsHistoryUpdate_iff]
  exact ⟨fun replaces => replaces.2.2, fun rotates => ⟨rotates.enabled, pending, rotates⟩⟩

/-! ### The members after a rotation -/

section Members

variable {group : b.Group} {proposals own : List Proposal} {keyPackage : KeyPackageIn}

variable (group proposals own keyPackage) in
/-- What the second commit lists: the proposals of the first one, the own pending ones and those
that replace the history clients. -/
def relisted : List Proposal :=
  proposals ++ (own ++ rotationProposals (historyIndices group) keyPackage)

theorem leavesRemoved_relisted :
    leavesRemoved (relisted group proposals own keyPackage) =
      leavesRemoved proposals ++ (leavesRemoved own ++ historyIndices group) := by
  simp [relisted, leavesRemoved, rotationProposals, List.filterMap_map, Proposal.removed?,
    Function.comp_def]

theorem addedClients_relisted :
    addedClients (relisted group proposals own keyPackage) =
      addedClients proposals ++ (addedClients own ++ [keyPackage.identity]) := by
  simp [relisted, addedClients, rotationProposals, List.filterMap_map]

theorem kept_history_relisted :
    (keptClients group (relisted group proposals own keyPackage)).filter isHistoryClient = [] := by
  rw [List.filter_eq_nil_iff]
  intro clientId kept isHistory
  obtain ⟨member, stays, rfl⟩ := List.mem_map.mp kept
  obtain ⟨present, unremoved⟩ := List.mem_filter.mp stays
  have removed : member.index ∈ historyIndices group :=
    mem_historyIndices.mpr ⟨member, present, isHistory, rfl⟩
  simp [leavesRemoved_relisted, removed] at unremoved

/-- The other members stay as the first commit has it: each of them has a leaf of its own, and
the own pending proposals are among those of the first commit. -/
theorem kept_others_relisted (distinct : (group.members.map (·.index)).Nodup)
    (collected : leavesRemoved own ⊆ leavesRemoved proposals) :
    (keptClients group (relisted group proposals own keyPackage)).filter (!isHistoryClient ·) =
      (keptClients group proposals).filter (!isHistoryClient ·) := by
  simp only [keptClients, List.filter_map, List.filter_filter]
  congr 1
  apply List.filter_congr
  intro member present
  cases isHistory : isHistoryClient member.credential.identity with
  | true => simp [isHistory]
  | false =>
    have other : member.index ∉ historyIndices group := by
      rw [mem_historyIndices]
      rintro ⟨second, present', isHistory', same⟩
      rw [List.inj_on_of_nodup_map distinct present' present same, isHistory] at isHistory'
      cases isHistory'
    have same : member.index ∈ leavesRemoved (relisted group proposals own keyPackage) ↔
        member.index ∈ leavesRemoved proposals := by
      rw [leavesRemoved_relisted, List.mem_append, List.mem_append]
      exact ⟨fun removed => removed.elim id fun removed => removed.elim (@collected _)
        fun history => absurd history other, .inl⟩
    simp [isHistory, same]

theorem history_relisted (isHistory : isHistoryClient keyPackage.identity = true) :
    (clientsAfter group (relisted group proposals own keyPackage)).filter isHistoryClient =
      (addedClients (proposals ++ own)).filter isHistoryClient ++ [keyPackage.identity] := by
  rw [clientsAfter, List.filter_append, kept_history_relisted, addedClients_relisted,
    addedClients_append]
  simp [isHistory]

theorem others_relisted (isHistory : isHistoryClient keyPackage.identity = true)
    (distinct : (group.members.map (·.index)).Nodup)
    (collected : leavesRemoved own ⊆ leavesRemoved proposals) :
    (clientsAfter group (relisted group proposals own keyPackage)).filter (!isHistoryClient ·) =
      (clientsAfter group proposals).filter (!isHistoryClient ·) ++
        (addedClients own).filter (!isHistoryClient ·) := by
  rw [clientsAfter, List.filter_append, kept_others_relisted distinct collected,
    addedClients_relisted, clientsAfter]
  simp [isHistory]

variable {after : List Bytes}

/-- One history client is left if nobody else was to be added as one. -/
theorem one_history_iff (isHistory : isHistoryClient keyPackage.identity = true)
    (fresh : keyPackage.identity ∉ clientIds group)
    (left : after.Perm (clientsAfter group (relisted group proposals own keyPackage))) :
    (∃ clientId, after.filter isHistoryClient = [clientId] ∧ clientId ∉ clientIds group) ↔
      (addedClients (proposals ++ own)).filter isHistoryClient = [] := by
  have history := left.filter isHistoryClient
  rw [history_relisted isHistory] at history
  constructor
  · rintro ⟨clientId, only, -⟩
    have length := history.length_eq
    rw [only, List.length_append] at length
    exact List.length_eq_zero_iff.mp (by simpa using length)
  · intro nobody
    rw [nobody, List.nil_append, List.perm_singleton] at history
    exact ⟨keyPackage.identity, history, fresh⟩

/-- The other members are those of the first commit if the own pending proposals, which are
listed a second time, add none. -/
theorem same_others_iff (isHistory : isHistoryClient keyPackage.identity = true)
    (distinct : (group.members.map (·.index)).Nodup)
    (collected : leavesRemoved own ⊆ leavesRemoved proposals)
    (left : after.Perm (clientsAfter group (relisted group proposals own keyPackage))) :
    (after.filter (!isHistoryClient ·)).Perm
        ((clientsAfter group proposals).filter (!isHistoryClient ·)) ↔
      (addedClients own).filter (!isHistoryClient ·) = [] := by
  have others := left.filter (!isHistoryClient ·)
  rw [others_relisted isHistory distinct collected] at others
  constructor
  · intro same
    have length := (others.symm.trans same).length_eq
    rw [List.length_append] at length
    exact List.length_eq_zero_iff.mp (by omega)
  · intro none
    rwa [none, List.append_nil] at others

end Members

/-! ### What is used of OpenMLS -/

/-- The leaf nodes of the updates among the proposals. -/
def updatedLeaves (proposals : List Proposal) : List CredentialWithKey :=
  proposals.filterMap fun
    | .update leafNode => some leafNode
    | _ => none

/-- The own proposal was appended to the pending ones. -/
def Queues {K : Type} (group : MlsGroup K) (proposal : Proposal) (after : MlsGroup K) : Prop :=
  (∃ reference, after.pendingProposals =
    group.pendingProposals ++ [⟨reference, .member group.ownLeafIndex, proposal⟩]) ∧
  after.ownLeafIndex = group.ownLeafIndex

/-- What the commits of OpenMLS do to a group.  `brings` is the credential that a commit brings
to the own leaf, if it is not to stay as it is; `inlineLeaf` is what becomes of the updates in a
commit from inline proposals, which are all its sender's. -/
structure RotationLaws (b : Backend) (brings : StagedCommit b.K → Option CredentialWithKey)
    (inlineLeaf : List CredentialWithKey → Option CredentialWithKey) : Prop where
  /-- A commit from inline proposals has exactly these. -/
  inlined : ∀ call group signer proposals output after staged,
    b.createCommit call group signer (.commitToInlineProposals proposals) = (.ok output, after) →
    after.pendingCommit = some staged →
    stagedProposals staged = proposals ∧ brings staged = inlineLeaf (updatedLeaves proposals)
  noUpdate : inlineLeaf [] = none
  /-- Every other commit also has the pending proposals. -/
  collected : ∀ call group signer request output after staged,
    CommitRequest.Initial request →
    b.createCommit call group signer request = (.ok output, after) →
    after.pendingCommit = some staged →
    ∀ pending ∈ after.pendingProposals, ∀ removed, pending.proposal = .remove removed →
      removed ∈ removedIndices staged
  cleared : ∀ group, (b.clearPendingCommit group).pendingProposals = group.pendingProposals ∧
    (b.clearPendingCommit group).ownLeafIndex = group.ownLeafIndex
  proposedAdd : ∀ call group signer keyPackage reference after,
    b.proposeAddMember call group signer keyPackage = (.ok reference, after) →
    Queues group (.add keyPackage) after
  proposedRemove : ∀ call group signer member reference after,
    b.proposeRemoveMember call group signer member = (.ok reference, after) →
    Queues group (.remove member) after
  /-- A commit is applied to the members; a member that is updated keeps its client id. -/
  applied : ∀ group staged after, group.pendingCommit = some staged →
    b.mergePendingCommit group = (.ok (), after) →
    (clientIds after).Perm (clientsAfter group (stagedProposals staged)) ∧
      after.ownLeaf = (brings staged).or group.ownLeaf
  /-- A commit that removes a member has a path, with a new key for the own leaf. -/
  rekeyed : ∀ group staged after, group.pendingCommit = some staged →
    b.mergePendingCommit group = (.ok (), after) → removedIndices staged ≠ [] →
    ∀ member ∈ after.members, member.index = after.ownLeafIndex →
      member.encryptionKey ∉ group.members.map (·.encryptionKey)
  encrypted : ∀ call group signer message,
    (b.createMessage call group signer message).2.members = group.members ∧
    (b.createMessage call group signer message).2.ownLeaf = group.ownLeaf ∧
    (b.createMessage call group signer message).2.ownLeafIndex = group.ownLeafIndex
  generated : ∀ call cipherSuite secret, b.generateHistorySecret call cipherSuite = .ok secret →
    isHistoryClient secret.keyPackage.identity = true

/-! ### Making the commit again -/

/-- Since `origin` only own proposals were added, which are `own` now. -/
structure Proposing (origin : b.Group) (own : List Proposal) (env : Env b) : Prop where
  members : SameMembers origin env.group
  own : ownPendingProposals env.group = own

/-- A commit with the given proposals is pending. -/
structure Restaged (brings : StagedCommit b.K → Option CredentialWithKey)
    (inlineLeaf : List CredentialWithKey → Option CredentialWithKey) (origin : b.Group)
    (proposals : List Proposal) (env : Env b) : Prop where
  members : SameMembers origin env.group
  pending : ∃ staged, env.group.pendingCommit = some staged ∧
    stagedProposals staged = proposals ∧ brings staged = inlineLeaf (updatedLeaves proposals)

section Replacement

variable {Commits : Bytes → Framed → Prop} {brings : StagedCommit b.K → Option CredentialWithKey}
  {inlineLeaf : List CredentialWithKey → Option CredentialWithKey} {origin : b.Group}
  {own : List Proposal} {env env' : Env b} {proposals : List Proposal}

/-- Nothing is said about failures: the first one ends the operation. -/
abbrev anyFailure (_ : Error) (_ : Env b) : Prop := True

theorem Queues.ownPending {group after : b.Group} {proposal : Proposal}
    (queues : Queues group proposal after) :
    ownPendingProposals after = ownPendingProposals group ++ [proposal] := by
  obtain ⟨⟨reference, queued⟩, sameIndex⟩ := queues
  simp [ownPendingProposals, queued, sameIndex]

theorem proposing_tick :
    Triple (Proposing origin own) (tick b) (fun _ => Proposing origin own) anyFailure :=
  fun _ proposing => ⟨proposing.members, proposing.own⟩

section Laws

variable (serialises : Serialises b) (laws : CommitLaws b Commits)
  (rotation : RotationLaws b brings inlineLeaf)

include serialises

theorem proposing_propose (wrap : Nat → Error) (proposal : Proposal)
    (f : Nat → b.Group → CredentialWithKey → Except Nat Bytes × b.Group)
    (kept : ∀ call group signer, SameMembers group (f call group signer).2)
    (queues : ∀ call group signer reference after, f call group signer = (.ok reference, after) →
      Queues group proposal after) :
    Triple (Proposing origin own) (do
        let signer ← currentCredential b
        let call ← tick b
        mutateGroup b (onGroup b fun group =>
          ((f call group signer).1.mapError wrap, (f call group signer).2)))
      (fun _ => Proposing origin (own ++ [proposal])) anyFailure := by
  apply triple_bind _ (triple_currentCredential fun _ _ _ => trivial)
  intro signer
  apply triple_bind _ proposing_tick
  intro call
  refine triple_mutateGroup serialises (triple_onGroup ?_ fun _ _ _ _ _ => trivial)
    (fun _ _ proposing => ⟨proposing.members.trans ⟨rfl, rfl, rfl⟩, proposing.own⟩)
  intro env answer after proposing called
  rcases proposes : f call env.group signer with ⟨result, group⟩
  rw [proposes] at called
  cases result with
  | error code => cases called
  | ok reference =>
    cases called
    have same := kept call env.group signer
    rw [proposes] at same
    refine ⟨proposing.members.trans same, ?_⟩
    rw [← proposing.own]
    exact (queues _ _ _ _ _ proposes).ownPending

include laws rotation

theorem proposing_clear :
    Triple (Proposing origin own) (clearPendingCommit b) (fun _ => Proposing origin own)
      anyFailure := by
  refine triple_mutateGroup serialises (triple_onGroup ?_ fun _ _ _ _ _ => trivial)
    (fun _ _ proposing => ⟨proposing.members.trans ⟨rfl, rfl, rfl⟩, proposing.own⟩)
  intro env _ after proposing called
  split at called
  next => cases called
  next =>
    cases called
    obtain ⟨samePending, sameIndex⟩ := rotation.cleared env.group
    refine ⟨proposing.members.trans (laws.cleared env.group).1, ?_⟩
    rw [← proposing.own]
    simp only [ownPendingProposals, samePending, sameIndex]

omit serialises in
theorem triple_createInline (wrap : CreateCommitError → Error) (signer : CredentialWithKey)
    (proposals : List Proposal) :
    Triple (Proposing origin own)
      (createCommit b wrap signer (.commitToInlineProposals proposals))
      (fun _ => Restaged brings inlineLeaf origin proposals) anyFailure := by
  apply triple_bind _ proposing_tick
  intro call
  refine triple_onGroup ?_ fun _ _ _ _ _ => trivial
  intro env output after proposing called
  rcases creates : b.createCommit call env.group signer (.commitToInlineProposals proposals) with
    ⟨result, group⟩
  simp only [creates] at called
  cases result with
  | error e => cases called
  | ok created =>
    cases called
    obtain ⟨kept, ⟨staged, pending, _⟩, _⟩ := laws.created _ _ _ _ _ _ creates
    exact ⟨proposing.members.trans kept, staged, pending,
      rotation.inlined _ _ _ _ _ _ _ creates pending⟩

theorem triple_inlineProposals (proposals : List Proposal) :
    Triple (Proposing origin own) (commitInlineProposals b proposals)
      (CommitRules.Ends (fun env => ∀ e, anyFailure e env)
        (fun _ => Restaged brings inlineLeaf origin proposals)) anyFailure := by
  unfold commitInlineProposals
  split
  next => exact triple_pure fun _ _ _ => trivial
  next =>
    apply triple_bind _ (triple_currentCredential fun _ _ _ => trivial)
    intro signer
    apply triple_bind _ (triple_mutateGroup serialises
      (triple_createInline laws rotation _ signer proposals)
      (fun _ _ restaged => ⟨restaged.members.trans ⟨rfl, rfl, rfl⟩, restaged.pending⟩))
    intro output
    apply triple_bind _ (triple_liftExcept fun _ _ _ => trivial)
    intro bundle
    exact triple_pure fun _ restaged => restaged

theorem proposing_replacing (proposals : List Proposal) :
    Replacing (Proposing origin own) proposals own (Proposing origin)
      (fun own _ => Restaged brings inlineLeaf origin (proposals ++ own)) anyFailure where
  cleared := proposing_clear serialises laws rotation
  ticked := fun _ => proposing_tick
  failing := fun _ _ _ _ => trivial
  removes := fun _ member => proposing_propose serialises _ (.remove member)
    (fun call group signer => b.proposeRemoveMember call group signer member)
    (fun call group signer => (laws.proposedRemove call group signer member).1)
    (fun call group signer => rotation.proposedRemove call group signer member)
  adds := fun _ keyPackage => proposing_propose serialises _ (.add keyPackage)
    (fun call group signer => b.proposeAddMember call group signer keyPackage)
    (fun call group signer => (laws.proposedAdd call group signer keyPackage).1)
    (fun call group signer => rotation.proposedAdd call group signer keyPackage)
  commits := fun own => triple_get_bind fun env proposing => by
    rw [proposing.own]
    exact triple_weaken (triple_inlineProposals serialises laws rotation (proposals ++ own))
      (fun _ now => now.2) (fun _ _ restaged => restaged) (fun _ _ _ => trivial)

end Laws

/-! ### The first commit -/

/-- The pending commit removes whom the pending proposals remove. -/
def Collected (env : Env b) : Prop :=
  ∀ staged, env.group.pendingCommit = some staged → ∀ pending ∈ env.group.pendingProposals,
    ∀ removed, pending.proposal = .remove removed → removed ∈ removedIndices staged

theorem collected_create (rotation : RotationLaws b brings inlineLeaf)
    (wrap : CreateCommitError → Error) (signer : CredentialWithKey) {request : CommitRequest}
    (initial : CommitRequest.Initial request) :
    Triple (fun _ => True) (createCommit b wrap signer request) (fun _ => Collected)
      anyFailure := by
  apply triple_bind (fun _ _ => True) fun _ _ => trivial
  intro call
  refine triple_onGroup ?_ fun _ _ _ _ _ => trivial
  intro env output after _ called
  rcases creates : b.createCommit call env.group signer request with ⟨result, group⟩
  simp only [creates] at called
  cases result with
  | error e => cases called
  | ok created =>
    cases called
    exact fun staged pending => rotation.collected _ _ _ _ _ _ _ initial creates pending

theorem rules_collected (serialises : Serialises b) (rotation : RotationLaws b brings inlineLeaf) :
    CommitRules (b := b) (fun _ => True) (fun _ => True) (fun _ => True) (fun _ => Collected)
      anyFailure where
  ticked := fun _ _ => trivial
  started := fun _ _ => ⟨trivial, fun _ => trivial⟩
  ensured := by
    intro env _
    cases ensureNoPendingCommit b env <;> trivial
  readied := fun _ _ => ⟨trivial, fun _ => trivial⟩
  bundled := fun wrap signer request initial => triple_mutateGroup serialises
    (triple_bind _ (collected_create rotation wrap signer initial) fun _ =>
      triple_liftExcept fun _ _ _ => trivial)
    (fun _ _ collected => collected)
  created := fun wrap signer request initial => triple_bind _
    (triple_mutateGroup serialises (collected_create rotation wrap signer initial)
      (fun _ _ collected => collected))
    fun _ => triple_liftExcept fun _ _ _ => trivial

theorem Collected.leavesRemoved {staged : StagedCommit b.K}
    (collected : Collected env) (pending : env.group.pendingCommit = some staged) :
    Conversation.leavesRemoved (ownPendingProposals env.group) ⊆
      Conversation.leavesRemoved (stagedProposals staged) := by
  intro index removed
  obtain ⟨proposal, listed, removes⟩ := List.mem_filterMap.mp removed
  obtain ⟨queued, isOwn, rfl⟩ := List.mem_map.mp listed
  rw [← removedIndices_eq]
  refine collected staged pending queued (List.mem_filter.mp isOwn).1 index ?_
  cases proposed : queued.proposal with
  | remove other => simpa [proposed, Proposal.removed?] using removes
  | _ => simp [proposed, Proposal.removed?] at removes

/-! ### The group after the call -/

theorem clientsAfter_congr {before after : b.Group} (same : SameMembers before after)
    (proposals : List Proposal) : clientsAfter after proposals = clientsAfter before proposals := by
  simp only [clientsAfter, keptClients, same.members]

theorem updatedLeaves_relisted {group : b.Group} {keyPackage : KeyPackageIn} :
    updatedLeaves (relisted group proposals own keyPackage) = updatedLeaves (proposals ++ own) := by
  simp [updatedLeaves, relisted, rotationProposals, List.filterMap_map]

/-- What is left by a commit that was merged and delivered with a new history client. -/
structure Delivered (inlineLeaf : List CredentialWithKey → Option CredentialWithKey)
    (origin : b.Group) (proposals : List Proposal) (group : b.Group) : Prop where
  members : (clientIds group).Perm (clientsAfter origin proposals)
  ownLeaf : group.ownLeaf = (inlineLeaf (updatedLeaves proposals)).or origin.ownLeaf
  keyMaterial : leavesRemoved proposals ≠ [] → ∀ member ∈ group.members,
    member.index = group.ownLeafIndex → member.encryptionKey ∉ origin.members.map (·.encryptionKey)

theorem delivered_of_ok (serialises : Serialises b) (laws : CommitLaws b Commits)
    (rotation : RotationLaws b brings inlineLeaf) {commit : CommitBundle}
    {historySecret : HistorySecret} (restaged : Restaged brings inlineLeaf origin proposals env)
    (succeeded : sendNewHistoryClientCommit b commit historySecret env = .ok () env') :
    Delivered inlineLeaf origin proposals env'.group := by
  obtain ⟨staged, pending, rfl, brought⟩ := restaged.pending
  obtain ⟨merged, merges, _, _⟩ := laws.merged env.group staged pending
  obtain ⟨transportable, encrypted, group, _, ⟨signer, _, encrypts⟩, _, rfl⟩ :=
    (sendNewHistoryClientCommit_ok_iff serialises merges commit historySecret).mp succeeded
  -- encrypting the secret leaves the members and the own leaf of the merged commit
  obtain ⟨sameMembers, sameLeaf, sameIndex⟩ :
      group.members = merged.members ∧ group.ownLeaf = merged.ownLeaf ∧
        group.ownLeafIndex = merged.ownLeafIndex := by
    have kept := rotation.encrypted (env.clock + 1) merged.setPersisted signer transportable
    have encrypts : b.createMessage (env.clock + 1) merged.setPersisted signer transportable =
        (.ok encrypted, group) := encrypts
    rwa [encrypts] at kept
  obtain ⟨clients, leaf⟩ := rotation.applied _ _ _ pending merges
  refine ⟨?_, ?_, ?_⟩
  · rw [clientsAfter_congr restaged.members] at clients
    change (group.members.map _).Perm _
    rwa [sameMembers]
  · rw [brought, restaged.members.ownLeaf] at leaf
    exact sameLeaf.trans leaf
  · intro removes member present isOwn
    have fresh := rotation.rekeyed _ _ _ pending merges (by rwa [removedIndices_eq]) member
      (sameMembers ▸ present) (isOwn.trans sameIndex)
    rwa [restaged.members.members] at fresh

/-- The credential the own leaf is to have after the call: the one the call names, or what the
first commit makes of it. -/
def CommittingCall.askedLeaf (brings : StagedCommit b.K → Option CredentialWithKey) (env : Env b)
    (original : StagedCommit b.K) : CommittingCall → Option CredentialWithKey
  | .setCredentialByRef credentialRef => (b.loadCredential credentialRef).toOption
  | .updateKeyMaterial => (credential b env.group).toOption
  | _ => (brings original).or env.group.ownLeaf

/-- The history client was replaced, and everything else is as the first commit was to have it. -/
structure Rotated (env env' : Env b) (original : StagedCommit b.K)
    (asked : Option CredentialWithKey) : Prop where
  history : ∃ clientId, (clientIds env'.group).filter isHistoryClient = [clientId] ∧
    clientId ∉ clientIds env.group
  others : ((clientIds env'.group).filter (!isHistoryClient ·)).Perm
    ((clientsAfter env.group (stagedProposals original)).filter (!isHistoryClient ·))
  credential : env'.group.ownLeaf = asked
  keyMaterial : ∀ member ∈ env'.group.members, member.index = env'.group.ownLeafIndex →
    member.encryptionKey ∉ env.group.members.map (·.encryptionKey)

/-- The commit can be made again from its proposals and the own pending ones: nobody is added as
a history client, no addition is listed twice, and the updates among the proposals have the
effect on the own leaf that was asked for. -/
structure Repeatable (inlineLeaf : List CredentialWithKey → Option CredentialWithKey)
    (group : b.Group) (original : StagedCommit b.K) (asked : Option CredentialWithKey) : Prop where
  noHistory : ∀ clientId ∈ addedClients (stagedProposals original),
    isHistoryClient clientId = false
  noAddition : addedClients (ownPendingProposals group) = []
  ownLeaf : (inlineLeaf (updatedLeaves (stagedProposals original ++
    ownPendingProposals group))).or group.ownLeaf = asked

theorem repeatable_clients_iff (proposals : List Proposal) :
    (addedClients (proposals ++ own)).filter isHistoryClient = [] ∧
        (addedClients own).filter (!isHistoryClient ·) = [] ↔
      (∀ clientId ∈ addedClients proposals, isHistoryClient clientId = false) ∧
        addedClients own = [] := by
  simp only [addedClients_append, List.filter_append, List.append_eq_nil_iff,
    List.filter_eq_nil_iff, Bool.not_eq_true, Bool.not_eq_true']
  constructor
  · rintro ⟨⟨first, second⟩, others⟩
    refine ⟨first, List.eq_nil_iff_forall_not_mem.mpr fun clientId added => ?_⟩
    have isHistory := others clientId added
    simp [second clientId added] at isHistory
  · rintro ⟨first, none⟩
    simpa [none] using first

/-- The second commit leaves the group as asked for if the first one can be made again. -/
theorem rotated_iff (rotation : RotationLaws b brings inlineLeaf) {env₀ : Env b}
    {original : StagedCommit b.K} {secret : HistorySecret} {asked : Option CredentialWithKey}
    (same : SameMembers env.group env₀.group) (generated : Generated b secret)
    (fresh : secret.keyPackage.identity ∉ clientIds env.group)
    (distinct : (env.group.members.map (·.index)).Nodup)
    (collected : leavesRemoved (ownPendingProposals env₀.group) ⊆
      leavesRemoved (stagedProposals original)) (rotates : Rotates env₀.group original)
    (delivered : Delivered inlineLeaf env₀.group (relisted env₀.group (stagedProposals original)
      (ownPendingProposals env₀.group) secret.keyPackage) env'.group) :
    Rotated env env' original asked ↔ Repeatable inlineLeaf env₀.group original asked := by
  obtain ⟨call, cipherSuite, generates⟩ := generated
  have isHistory := rotation.generated _ _ _ generates
  have sameIds : clientIds env₀.group = clientIds env.group := by
    rw [clientIds, same.members, clientIds]
  have history := one_history_iff isHistory (sameIds ▸ fresh) delivered.members
  have others := same_others_iff isHistory (same.members ▸ distinct) collected delivered.members
  have leaf := delivered.ownLeaf
  rw [sameIds] at history
  rw [clientsAfter_congr same] at others
  rw [updatedLeaves_relisted] at leaf
  constructor
  · intro rotated
    obtain ⟨noHistory, noAddition⟩ := (repeatable_clients_iff _).mp
      ⟨history.mp rotated.history, others.mp rotated.others⟩
    exact ⟨noHistory, noAddition, leaf.symm.trans rotated.credential⟩
  · intro repeatable
    obtain ⟨none, noOther⟩ := (repeatable_clients_iff _).mpr
      ⟨repeatable.noHistory, repeatable.noAddition⟩
    refine ⟨history.mpr none, others.mpr noOther, leaf.trans repeatable.ownLeaf, ?_⟩
    -- the second commit removes a member, so that it has a path
    obtain ⟨⟨index, _, removed⟩, _⟩ := rotates
    rw [removedIndices_eq] at removed
    have removes : leavesRemoved (relisted env₀.group (stagedProposals original)
        (ownPendingProposals env₀.group) secret.keyPackage) ≠ [] := by
      rw [leavesRemoved_relisted]
      exact List.ne_nil_of_mem (List.mem_append_left _ removed)
    intro member present isOwn
    rw [← same.members]
    exact delivered.keyMaterial removes member present isOwn

theorem rotates_congr {before after : b.Group} (same : SameMembers before after)
    (commit : StagedCommit b.K) : Rotates after commit ↔ Rotates before commit := by
  simp only [Rotates, otherIndices, historyIndices, same.members]

theorem sendThenMerge_ok (serialises : Serialises b) (laws : CommitLaws b Commits)
    {commit : CommitBundle} {staged : StagedCommit b.K}
    (pending : env.group.pendingCommit = some staged)
    (succeeded : sendThenMerge b commit env = .ok () env') :
    env'.accepted = env.accepted ++ [commit] ∧ env'.group.epochCommit = some staged.framed := by
  obtain ⟨sent, env₁, attempted, succeeded⟩ := bind_eq_ok.mp succeeded
  simp only [attempt] at attempted
  cases answered : b.sendCommitBundle env.clock commit with
  | error code =>
    rw [sendCommit_error answered] at attempted
    cases attempted
    obtain ⟨_, _, _, thrown⟩ := bind_eq_ok.mp succeeded
    cases thrown
  | ok _ =>
    rw [sendCommit_ok answered] at attempted
    cases attempted
    obtain ⟨merged, merges, _, created⟩ := laws.merged env.group staged pending
    cases (mergeCommit_eq serialises { env.called with accepted := env.accepted ++ [commit] } merged
      merges).symm.trans succeeded
    exact ⟨rfl, created⟩

end Replacement

/-- The call has done what its first commit was to do: with the history client replaced if the
commit removes a member and leaves a history client, and with this very commit otherwise. -/
structure CommitKept (brings : StagedCommit b.K → Option CredentialWithKey) (env env' : Env b)
    (call : CommittingCall) (first : CommitBundle) (original : StagedCommit b.K) : Prop where
  rotated : Rotates env.group original →
    Rotated env env' original (call.askedLeaf brings env original)
  merged : ¬ Rotates env.group original →
    env'.accepted = env.accepted ++ [first] ∧ env'.group.epochCommit = some original.framed

/-- **Rotation of the history client.**  A call that returns keeps the effect of its commit
exactly when a commit that has to be replaced can be made again from its proposals.  A credential
that only the path of the first commit carries is lost, a member that an own pending proposal adds
is added twice, and a history client that a proposal adds stays beside the new one. -/
theorem rotation_keeps_commit_iff {b : Backend} {Commits : Bytes → Framed → Prop}
    {brings : StagedCommit b.K → Option CredentialWithKey}
    {inlineLeaf : List CredentialWithKey → Option CredentialWithKey}
    (serialises : Serialises b) (laws : CommitLaws b Commits)
    (rotation : RotationLaws b brings inlineLeaf) {env env₀ env' : Env b} {call : CommittingCall}
    {first : CommitBundle} {original : StagedCommit b.K}
    (fresh : ∀ secret, Generated b secret → secret.keyPackage.identity ∉ clientIds env.group)
    (distinct : (env.group.members.map (·.index)).Nodup)
    (created : call.create b env = .ok (some (first, none)) env₀)
    (pending : env₀.group.pendingCommit = some original)
    (succeeded : call.perform b env = .ok () env') :
    CommitKept brings env env' call first original ↔
      (Rotates env.group original →
        Repeatable inlineLeaf env₀.group original (call.askedLeaf brings env original)) := by
  have prepared := prepared_of_create serialises laws created
  have collects := (rules_collected serialises rotation).create call env trivial
  rw [created] at collects
  have collected := Collected.leavesRemoved collects pending
  have same := prepared.members
  have concluded : sendAndMergeCommit b first env₀ = .ok () env' := by
    rw [perform_eq, run_bind_ok created] at succeeded
    exact succeeded
  by_cases rotates : Rotates env.group original
  · have rotates₀ := (rotates_congr same original).mpr rotates
    rw [sendAndMergeCommit_replaces ((replaces_iff pending).mpr rotates₀)] at concluded
    obtain ⟨⟨commit, secret⟩, env₁, replaced, sent⟩ := bind_eq_ok.mp concluded
    have restages := (proposing_replacing serialises laws rotation
      (stagedProposals original)).replacementCommit (historyIndices env₀.group) env₀
        ⟨⟨rfl, rfl, rfl⟩, rfl⟩
    rw [replaced] at restages
    obtain ⟨generated, restaged⟩ := restages
    have delivered := delivered_of_ok serialises laws rotation restaged sent
    have iff : Rotated env env' original (call.askedLeaf brings env original) ↔ _ :=
      rotated_iff rotation same generated (fresh _ generated) distinct collected rotates₀ delivered
    exact ⟨fun kept _ => iff.mp (kept.rotated rotates),
      fun repeatable => ⟨fun _ => iff.mpr (repeatable rotates), fun not => absurd rotates not⟩⟩
  · have plain : ∀ commit, ¬ Replaces env₀ commit := by
      intro commit replaces
      obtain rfl : original = commit := Option.some.inj (pending.symm.trans replaces.2.1)
      exact rotates ((rotates_congr same original).mp ((replaces_iff pending).mp replaces))
    rw [sendAndMergeCommit_plain pending plain] at concluded
    have merged := sendThenMerge_ok serialises laws pending concluded
    rw [prepared.accepted] at merged
    exact ⟨fun _ now => absurd now rotates,
      fun _ => ⟨fun now => absurd now rotates, fun _ => merged⟩⟩

namespace Rotating

open Sample

/-! ### A backend whose commits have a path -/

/-- The credential in the path of a commit, which ends its content. -/
def pathOf (commit : StagedCommit Unit) : Option CredentialWithKey :=
  match commit.framed.content with
  | [_, _, key] => some ⟨[], [key], [key]⟩
  | _ => none

def stage (call : Nat) (group : Group) (request : CommitRequest) : StagedCommit Unit :=
  let commit := stagedCommit call group request
  match request with
  | .explicitSelfUpdate (some leafNode) =>
    { commit with framed := ⟨commit.framed.sender, commit.framed.content ++ leafNode.content⟩ }
  | .commitToInlineProposals proposals =>
    { commit with queuedProposals := proposals.map fun proposal =>
        ⟨[], .member group.ownLeafIndex, proposal⟩ }
  | _ => commit

/-- A key that is longer than those of all members. -/
def freshKey (members : List Member) : Bytes := 0 :: members.flatMap (·.encryptionKey)

def rekey (group : Group) (member : Member) : Member :=
  if member.index = group.ownLeafIndex then
    { member with encryptionKey := freshKey group.members }
  else member

def apply (group : Group) (commit : StagedCommit Unit) : Group :=
  { merge group commit with
    members := (merge group commit).members.map (rekey group)
    ownLeaf := (pathOf commit).or group.ownLeaf }

/-- The credential that can be set in the place of `someone`. -/
def x509 : CredentialWithKey := ⟨[], [9], [9]⟩

def backend : Backend :=
  { Sample.backend (.ok ()) with
    createCommit := fun call group _ request =>
      (.ok ⟨4 :: (stage call group request).framed.content, none, some []⟩,
        changed { group with pendingCommit := some (stage call group request) })
    mergePendingCommit := fun group =>
      match group.pendingCommit with
      | some commit => (.ok (), apply group commit)
      | none => (.error 0, group)
    loadCredential := fun _ => .ok x509 }

theorem serialises : Serialises backend := Sample.serialises (.ok ())

theorem commitLaws : CommitLaws backend commitsTo where
  created := by
    intro call group signer request output after created
    cases created
    exact ⟨⟨rfl, rfl, rfl⟩, ⟨_, rfl, rfl⟩, [], [], rfl, rfl⟩
  refused := by
    intro call group signer request e after refused
    cases refused
  proposedAdd := (Sample.commitLaws (.ok ())).proposedAdd
  proposedRemove := (Sample.commitLaws (.ok ())).proposedRemove
  cleared := (Sample.commitLaws (.ok ())).cleared
  merged := by
    intro group staged pending
    exact ⟨apply group staged, by simp only [backend, pending], rfl, rfl⟩
  encrypted := (Sample.commitLaws (.ok ())).encrypted

theorem rekey_client (group : Group) (member : Member) :
    (rekey group member).credential = member.credential := by
  unfold rekey
  split <;> rfl

theorem freshKey_fresh (members : List Member) :
    freshKey members ∉ members.map (·.encryptionKey) := by
  intro present
  obtain ⟨member, listed, same⟩ := List.mem_map.mp present
  have shorter : member.encryptionKey.length ≤ (members.flatMap (·.encryptionKey)).length := by
    rw [List.flatMap_def]
    exact (List.sublist_flatten_of_mem (List.mem_map_of_mem listed)).length_le
  rw [same, freshKey, List.length_cons] at shorter
  omega

theorem clientIds_apply (group : Group) (commit : StagedCommit Unit) :
    clientIds (apply group commit) = clientsAfter group (stagedProposals commit) := by
  have added : (addedBy commit group.members).map (·.credential.identity) =
      addedClients (stagedProposals commit) := by
    simp only [addedBy, addedClients, stagedProposals, List.filterMap_map, List.map_filterMap]
    congr 1
    funext queued
    simp only [Function.comp_apply]
    cases queued.proposal <;> rfl
  have removed : removedBy commit = leavesRemoved (stagedProposals commit) :=
    removedIndices_eq (b := backend) commit
  simp only [clientIds, apply, List.map_map, Function.comp_def, rekey_client, merge, changed,
    List.map_append, added, removed]
  rfl

theorem merge_eq {group : Group} {staged : StagedCommit Unit} {after : Group}
    (pending : group.pendingCommit = some staged)
    (merges : backend.mergePendingCommit group = (.ok (), after)) : after = apply group staged := by
  simp only [backend, pending] at merges
  cases merges
  rfl

theorem rotationLaws : RotationLaws backend pathOf (fun _ => none) where
  inlined := by
    intro call group signer proposals output after staged created pending
    cases created
    cases pending
    refine ⟨?_, rfl⟩
    simp [stagedProposals, stage, Function.comp_def]
  noUpdate := rfl
  collected := by
    intro call group signer request output after staged initial created pending' pending listed
      removed removes
    cases created
    cases pending'
    have collected : pending ∈ (stage call group request).queuedProposals := by
      cases request with
      | commitToInlineProposals proposals => exact absurd rfl (initial proposals)
      | explicitSelfUpdate leafNode =>
        cases leafNode <;> exact List.mem_append_right _ listed
      | _ => exact List.mem_append_right _ listed
    exact List.mem_filterMap.mpr ⟨pending, collected, by rw [removes]; rfl⟩
  cleared := fun group => ⟨rfl, rfl⟩
  proposedAdd := by
    intro call group signer keyPackage reference after proposed
    cases proposed
    exact ⟨⟨_, rfl⟩, rfl⟩
  proposedRemove := by
    intro call group signer member reference after proposed
    cases proposed
    exact ⟨⟨_, rfl⟩, rfl⟩
  applied := by
    intro group staged after pending merges
    obtain rfl := merge_eq pending merges
    exact ⟨.of_eq (clientIds_apply group staged), rfl⟩
  rekeyed := by
    intro group staged after pending merges _ member present isOwn
    obtain rfl := merge_eq pending merges
    obtain ⟨before, _, rfl⟩ := List.mem_map.mp present
    unfold rekey at isOwn ⊢
    split at isOwn
    next own =>
      rw [if_pos own]
      exact freshKey_fresh group.members
    next other => exact absurd isOwn other
  encrypted := fun call group signer message => ⟨rfl, rfl, rfl⟩
  generated := by
    rintro call cipherSuite secret ⟨⟩
    decide

/-- A handle to a group with the members 0, 1 and 2 and a history client; member 2 has proposed to
remove member 1. -/
def handle : Env backend :=
  { id := [42]
    configuration := .ofCipherSuite 1
    group :=
      { newGroup [42] 1 5 with
        members := [⟨0, someone, []⟩, ⟨1, ⟨[1], [], [1]⟩, []⟩, ⟨2, ⟨[2], [], [2]⟩, []⟩,
          ⟨3, ⟨historyClientIdPrefix ++ [1], [], []⟩, []⟩]
        pendingProposals := [⟨[33], .member 2, .remove 1⟩] }
    rows := []
    transaction := .new
    conversationCache := .empty
    pendingEpochChanges := []
    accepted := []
    historyClients := []
    clock := 0 }

theorem rotates_handle {commit : StagedCommit backend.K}
    (removed : removedIndices commit = [1]) : Rotates handle.group commit := by
  refine ⟨⟨1, by decide, ?_⟩, 3, by decide, ?_⟩
  · rw [removed]
    decide
  · rw [removed]
    decide

end Rotating

open Rotating in
/-- A pending proposal to remove member 1 is committed: the new history client takes the place of
the old one, and nothing else differs from the first commit. -/
theorem committed_removal_kept :
    ∃ first env₀ original env',
      CommittingCall.commitPendingProposals.create backend handle = .ok (some (first, none)) env₀ ∧
      env₀.group.pendingCommit = some original ∧
      CommittingCall.commitPendingProposals.perform backend handle = .ok () env' ∧
      Rotates handle.group original ∧
      CommitKept pathOf handle env' .commitPendingProposals first original := by
  have succeeded := run_of_outcome
    (show outcome (CommittingCall.commitPendingProposals.perform backend) handle = .ok () by
      decide +kernel)
  have created : CommittingCall.commitPendingProposals.create backend handle =
    .ok (some (_, none)) _ := rfl
  refine ⟨_, _, _, _, created, rfl, succeeded, rotates_handle rfl, ?_⟩
  refine (rotation_keeps_commit_iff serialises commitLaws rotationLaws ?_ (by decide) created rfl
    succeeded).mpr fun _ => ⟨?_, rfl, rfl⟩
  · rintro secret ⟨call, cipherSuite, ⟨⟩⟩
    decide
  · intro clientId added
    cases added

open Rotating in
/-- The own client sets another credential while a proposal to remove member 1 is pending: the
call returns, but the own leaf still has the old credential. -/
theorem rotation_loses_credential :
    ∃ first env₀ original env',
      (CommittingCall.setCredentialByRef []).create backend handle =
        .ok (some (first, none)) env₀ ∧
      env₀.group.pendingCommit = some original ∧
      (CommittingCall.setCredentialByRef []).perform backend handle = .ok () env' ∧
      backend.loadCredential [] = .ok x509 ∧ env'.group.ownLeaf = some Sample.someone ∧
      ¬ CommitKept pathOf handle env' (.setCredentialByRef []) first original := by
  have succeeded := run_of_outcome
    (show outcome ((CommittingCall.setCredentialByRef []).perform backend) handle = .ok () by
      decide +kernel)
  have ownLeaf : (finalState ((CommittingCall.setCredentialByRef []).perform backend)
      handle).group.ownLeaf = some Sample.someone := by decide +kernel
  refine ⟨_, _, _, _, rfl, rfl, succeeded, rfl, ownLeaf, ?_⟩
  intro kept
  have credential := (kept.rotated (rotates_handle rfl)).credential
  have asked : some Sample.someone = some x509 := ownLeaf.symm.trans credential
  exact absurd asked (by decide)

end CoreCrypto.Conversation
