import CoreCrypto.Conversation.CommitAnswers
import CoreCrypto.Conversation.SampleLaws

/-!
# Commits and the delivery service

When the delivery service refuses a commit, the plain path clears it and the group is as before.
The paths that add a history client merge first, and have no way back when a later step fails.
-/

namespace CoreCrypto.Conversation

open Keystore Library

variable {b : Backend} {α : Type}

/-! ### What is used of OpenMLS -/

/-- What stays of a group while no commit is merged. -/
structure SameMembers {K : Type} (before after : MlsGroup K) : Prop where
  epoch : after.epoch = before.epoch
  members : after.members = before.members
  ownLeaf : after.ownLeaf = before.ownLeaf

theorem SameMembers.trans {K : Type} {before middle after : MlsGroup K}
    (first : SameMembers before middle) (second : SameMembers middle after) :
    SameMembers before after :=
  ⟨second.epoch.trans first.epoch, second.members.trans first.members,
    second.ownLeaf.trans first.ownLeaf⟩

namespace SameMembers

variable {before after : b.Group} (same : SameMembers before after)

include same

theorem isHistorySharingEnabled :
    Conversation.isHistorySharingEnabled after = Conversation.isHistorySharingEnabled before := by
  simp only [Conversation.isHistorySharingEnabled, getHistoryClientIds, same.members]

theorem historyIndices :
    Conversation.historyIndices after = Conversation.historyIndices before := by
  simp only [Conversation.historyIndices, same.members]

theorem needsHistoryUpdate (pendingCommit : StagedCommit b.K) :
    Conversation.needsHistoryUpdate after pendingCommit =
      Conversation.needsHistoryUpdate before pendingCommit := by
  simp only [Conversation.needsHistoryUpdate, same.historyIndices, otherIndices, same.members]

end SameMembers

theorem queued_of_needed {group : b.Group} {pendingCommit : StagedCommit b.K}
    (needed : needsHistoryUpdate group pendingCommit = true) :
    pendingCommit.queuedProposals ≠ [] := by
  intro empty
  simp [needsHistoryUpdate, removedIndices, empty] at needed

/-- How OpenMLS creates and merges own commits.  `Commits bytes framed` says that `bytes` is the
message of the commit with this sender and content. -/
structure CommitLaws (b : Backend) (Commits : Bytes → Framed → Prop) : Prop where
  created : ∀ call group signer request output after,
    b.createCommit call group signer request = (.ok output, after) →
    SameMembers group after ∧
    (∃ staged, after.pendingCommit = some staged ∧ Commits output.commit staged.framed) ∧
    ∃ raw info, output.groupInfo = some raw ∧ b.tryNewFullPlaintext raw = .ok info
  refused : ∀ call group signer request e after,
    b.createCommit call group signer request = (.error e, after) →
    SameMembers group after ∧ after.pendingCommit = group.pendingCommit
  proposedAdd : ∀ call group signer keyPackage,
    SameMembers group (b.proposeAddMember call group signer keyPackage).2 ∧
    (b.proposeAddMember call group signer keyPackage).2.pendingCommit = group.pendingCommit
  proposedRemove : ∀ call group signer member,
    SameMembers group (b.proposeRemoveMember call group signer member).2 ∧
    (b.proposeRemoveMember call group signer member).2.pendingCommit = group.pendingCommit
  cleared : ∀ group, SameMembers group (b.clearPendingCommit group) ∧
    (b.clearPendingCommit group).pendingCommit = none
  merged : ∀ group staged, group.pendingCommit = some staged →
    ∃ after, b.mergePendingCommit group = (.ok (), after) ∧ after.epoch = group.epoch + 1 ∧
      after.epochCommit = some staged.framed
  encrypted : ∀ call group signer message,
    (b.createMessage call group signer message).2.epoch = group.epoch ∧
    (b.createMessage call group signer message).2.epochCommit = group.epochCommit

/-! ### States before the commit is sent -/

/-- Since `origin` nothing has been accepted, merged or announced. -/
structure Unsent (origin env : Env b) : Prop where
  members : SameMembers origin.group env.group
  pendingEpochChanges : env.pendingEpochChanges = origin.pendingEpochChanges
  accepted : env.accepted = origin.accepted

theorem Unsent.refl (env : Env b) : Unsent env env := ⟨⟨rfl, rfl, rfl⟩, rfl, rfl⟩

variable {origin env : Env b}

theorem Unsent.group (unsent : Unsent origin env) {after : b.Group}
    (kept : SameMembers env.group after) : Unsent origin { env with group := after } :=
  ⟨unsent.members.trans kept, unsent.pendingEpochChanges, unsent.accepted⟩

theorem Unsent.written (unsent : Unsent origin env) {after : b.Group}
    (kept : SameMembers env.group after) : Unsent origin (env.written after) :=
  ⟨unsent.members.trans ⟨kept.epoch, kept.members, kept.ownLeaf⟩, unsent.pendingEpochChanges,
    unsent.accepted⟩

/-- No commit is pending either: the state a refused commit has to leave. -/
structure Idle (origin env : Env b) : Prop extends Unsent origin env where
  noneCommit : env.group.pendingCommit = none

/-- The commit of the bundle is pending. -/
structure Prepared (Commits : Bytes → Framed → Prop) (origin : Env b) (bundle : CommitBundle)
    (env : Env b) : Prop extends Unsent origin env where
  pending : ∃ staged, env.group.pendingCommit = some staged ∧ Commits bundle.commit staged.framed

/-- The bundle of the commit can be made, and then it is the pending one. -/
def Created (Commits : Bytes → Framed → Prop) (origin : Env b) (output : CommitOutput)
    (env : Env b) : Prop :=
  ∃ bundle, commitBundle b output = .ok bundle ∧ Prepared Commits origin bundle env

section Rules

variable {Commits : Bytes → Framed → Prop} {origin : Env b} {bundle : CommitBundle}
  {call : CommittingCall} {historySecret : HistorySecret} {secret : Option HistorySecret}

variable {env : Env b}

theorem idle_written (idle : Idle origin env) : Idle origin (env.written env.group) :=
  ⟨idle.toUnsent.written ⟨rfl, rfl, rfl⟩, idle.noneCommit⟩

theorem prepared_written (prepared : Prepared Commits origin bundle env) :
    Prepared Commits origin bundle (env.written env.group) :=
  ⟨prepared.toUnsent.written ⟨rfl, rfl, rfl⟩, prepared.pending⟩

theorem idle_tick : Keeps (Idle origin) (tick b) := fun _ idle =>
  ⟨⟨idle.members, idle.pendingEpochChanges, idle.accepted⟩, idle.noneCommit⟩

variable {err : Error → Env b → Prop}

theorem triple_commitBundle (output : CommitOutput) :
    Triple (Created Commits origin output) (liftExcept b id (commitBundle b output))
      (Prepared Commits origin) err := by
  rintro env ⟨bundle, made, prepared⟩
  rw [made]
  exact prepared

variable (serialises : Serialises b) (laws : CommitLaws b Commits)

include serialises laws

theorem triple_clearPendingCommit :
    Triple (fun env => Unsent origin env ∧ env.group.pendingCommit ≠ none) (clearPendingCommit b)
      (fun _ => Idle origin) err := by
  refine triple_mutateGroup serialises (triple_onGroup ?_ ?_) (fun _ _ idle => idle_written idle)
  · intro env a after ⟨unsent, pending⟩ called
    rw [if_neg (by simpa using pending)] at called
    cases called
    exact ⟨unsent.group (laws.cleared env.group).1, (laws.cleared env.group).2⟩
  · intro env e after ⟨unsent, pending⟩ called
    rw [if_neg (by simpa using pending)] at called
    cases called

omit serialises in
theorem triple_createCommit (wrap : CreateCommitError → Error)
    (signer : CredentialWithKey) (request : CommitRequest) :
    Triple (Idle origin) (createCommit b wrap signer request) (Created Commits origin)
      (fun _ => Idle origin) := by
  apply triple_bind (fun _ => Idle origin) idle_tick
  intro call
  apply triple_onGroup
  · intro env output after idle called
    rcases creates : b.createCommit call env.group signer request with ⟨result, group⟩
    simp only [creates] at called
    cases result with
    | error e => cases called
    | ok created =>
      cases called
      obtain ⟨kept, ⟨staged, pending, commits⟩, raw, info, given, plain⟩ :=
        laws.created _ _ _ _ _ _ creates
      refine ⟨⟨output.welcome, output.commit, info, none⟩, ?_, idle.toUnsent.group kept, staged,
        pending, commits⟩
      simp only [commitBundle, groupInfo, given, plain, Except.mapError]
      rfl
  · intro env e after idle called
    rcases creates : b.createCommit call env.group signer request with ⟨result, group⟩
    simp only [creates] at called
    cases result with
    | ok created => cases called
    | error e =>
      cases called
      obtain ⟨kept, pending⟩ := laws.refused _ _ _ _ _ _ creates
      exact ⟨idle.toUnsent.group kept, pending.trans idle.noneCommit⟩

theorem triple_writtenCommit
    (wrap : CreateCommitError → Error) (signer : CredentialWithKey) (request : CommitRequest) :
    Triple (Idle origin) (mutateGroup b (createCommit b wrap signer request))
      (Created Commits origin) (fun _ => Idle origin) := by
  refine triple_mutateGroup serialises (triple_createCommit laws wrap signer request) ?_
  rintro output env ⟨bundle, made, prepared⟩
  exact ⟨bundle, made, prepared_written prepared⟩

/-! ### Every operation prepares its commit -/

variable {env' : Env b}

omit serialises in
theorem prepared_of_obtains {signer : CredentialWithKey} {request : CommitRequest}
    (obtains : env.unpended.Obtains signer request bundle env') :
    Prepared Commits env bundle env' := by
  obtain ⟨after, ⟨output, created, bundled⟩, rfl⟩ := obtains
  obtain ⟨kept, ⟨staged, pending, commits⟩, -⟩ := laws.created _ _ _ _ _ _ created
  have same : bundle.commit = output.commit := by
    simp only [commitBundle, bind, Except.bind] at bundled
    cases made : groupInfo b output.groupInfo with
    | error e => rw [made] at bundled; cases bundled
    | ok info => rw [made] at bundled; cases bundled; rfl
  have unsent : Unsent env env.unpended := by
    unfold Env.unpended
    split
    next => exact .refl env
    next => exact (Unsent.refl env).written (laws.cleared env.group).1
  exact ⟨⟨(unsent.written kept).members, unsent.pendingEpochChanges, unsent.accepted⟩, staged, pending,
    same ▸ commits⟩

/-- Every operation that creates a commit ends its first part with that commit pending. -/
theorem prepared_of_create (created : call.create b env = .ok (some (bundle, secret)) env') :
    Prepared Commits env bundle env' := by
  cases secret with
  | none =>
    obtain ⟨signer, request, -, obtains⟩ := (create_plain_iff serialises).mp created
    exact prepared_of_obtains laws obtains
  | some historySecret =>
    obtain ⟨-, -, -, signer, -, obtains⟩ := (create_history_iff serialises).mp created
    have prepared : Prepared Commits env.called bundle env' := prepared_of_obtains laws obtains
    exact ⟨⟨prepared.members, prepared.pendingEpochChanges, prepared.accepted⟩, prepared.pending⟩

/-! ### Replacing the history client -/

omit laws in
theorem idle_proposal {f : Nat → CredentialWithKey → b.Group → Except Error α × b.Group}
    (kept : ∀ call signer group, SameMembers group (f call signer group).2 ∧
      (f call signer group).2.pendingCommit = group.pendingCommit) :
    Keeps (Idle origin) (do
      let signer ← currentCredential b
      let call ← tick b
      mutateGroup b (onGroup b (f call signer))) := by
  apply keeps_bind (keeps_currentCredential _)
  intro signer
  apply keeps_bind idle_tick
  intro call
  have changed : ∀ env result after, Idle origin env → f call signer env.group = (result, after) →
      Idle origin { env with group := after } := by
    intro env result after idle called
    have same := kept call signer env.group
    rw [called] at same
    exact ⟨idle.toUnsent.group same.1, same.2.trans idle.noneCommit⟩
  exact triple_mutateGroup serialises
    (triple_onGroup (fun env _ after => changed env _ after) (fun env _ after => changed env _ after))
    (fun _ _ idle => idle_written idle)

theorem triple_commitInlineProposals (proposals : List Proposal) :
    Triple (Idle origin) (commitInlineProposals b proposals)
      (CommitRules.Ends (fun env => ∀ _ : Error, Idle origin env) (Prepared Commits origin))
      (fun _ => Idle origin) := by
  unfold commitInlineProposals
  split
  next => exact triple_pure fun _ idle _ => idle
  next =>
    apply triple_bind (fun _ => Idle origin) (keeps_currentCredential _)
    intro signer
    apply triple_bind _ (triple_writtenCommit serialises laws _ signer _)
    intro output
    apply triple_bind _ (triple_commitBundle output)
    intro bundle
    exact triple_pure fun _ prepared => prepared

/-- The replacement is pending in place of the first commit, or no commit is. -/
theorem triple_replacementCommit (pendingCommit : StagedCommit b.K) (existing : List Nat) :
    Triple (fun env => Unsent origin env ∧ env.group.pendingCommit ≠ none)
      (replacementCommit b pendingCommit existing)
      (fun replacement => Prepared Commits origin replacement.1) (fun _ => Idle origin) := by
  have replacing : Replacing (fun env : Env b => Unsent origin env ∧ env.group.pendingCommit ≠ none)
      (pendingCommit.queuedProposals.map (·.proposal)) [] (fun _ => Idle origin)
      (fun _ => Prepared Commits origin) (fun _ => Idle origin) :=
    { cleared := triple_clearPendingCommit serialises laws
      ticked := fun _ => idle_tick
      failing := fun _ _ idle _ => idle
      removes := fun _ member => idle_proposal serialises fun call signer group =>
        laws.proposedRemove call group signer member
      adds := fun _ keyPackage => idle_proposal serialises fun call signer group =>
        laws.proposedAdd call group signer keyPackage
      commits := fun _ => triple_read fun _ => triple_commitInlineProposals serialises laws _ }
  exact triple_weaken (replacing.replacementCommit existing) (fun _ holds => holds)
    (fun _ _ replaced => replaced.2) (fun _ _ idle => idle)

omit serialises laws

/-! ### Sending and merging -/

variable (Commits) in
/-- Exactly one bundle was accepted since `origin`, and its commit made the next epoch. -/
def Committed (origin env : Env b) : Prop :=
  ∃ bundle framed, env.accepted = origin.accepted ++ [bundle] ∧
    env.group.epoch = origin.group.epoch + 1 ∧ env.group.epochCommit = some framed ∧
    Commits bundle.commit framed

theorem sendCommit_ok {commit : CommitBundle}
    (taken : b.sendCommitBundle env.clock commit = .ok ()) :
    sendCommit b commit env = .ok () { env.called with accepted := env.accepted ++ [commit] } := by
  simp only [sendCommit, tick, modifyGet, MonadStateOf.modifyGet, EStateM.modifyGet, bind,
    EStateM.bind, taken, liftExcept, pure, EStateM.pure]
  rfl

theorem sendCommit_error {commit : CommitBundle} {code : Nat}
    (refused : b.sendCommitBundle env.clock commit = .error code) :
    sendCommit b commit env = .error (.external "sending commit bundle" code) env.called := by
  simp only [sendCommit, tick, modifyGet, MonadStateOf.modifyGet, EStateM.modifyGet, bind,
    EStateM.bind, refused, liftExcept, throw, throwThe, MonadExceptOf.throw, EStateM.throw]
  rfl

/-- The plain path of a commit. -/
def sendThenMerge (b : Backend) (commit : CommitBundle) : Op b Unit := do
  match ← attempt (sendCommit b commit) with
  | .ok () => mergeCommit b
  | .error e => do
    clearPendingCommit b
    throw e

/-- What was refused is undone, what was accepted is merged. -/
theorem triple_sendThenMerge (serialises : Serialises b) (laws : CommitLaws b Commits)
    (commit : CommitBundle) :
    Triple (Prepared Commits origin commit) (sendThenMerge b commit)
      (fun _ => Committed Commits origin) (fun _ => Idle origin) := by
  refine triple_bind (fun sent env => match sent with
    | .ok () => ∃ before, env.accepted = before ++ [commit] ∧
        Prepared Commits origin commit { env with accepted := before }
    | .error _ => Prepared Commits origin commit env) ?_ ?_
  · intro env prepared
    simp only [attempt]
    cases answered : b.sendCommitBundle env.clock commit with
    | ok _ =>
      rw [sendCommit_ok answered]
      exact ⟨env.accepted, rfl, ⟨prepared.members, prepared.pendingEpochChanges,
        prepared.accepted⟩, prepared.pending⟩
    | error code =>
      rw [sendCommit_error answered]
      exact ⟨⟨prepared.members, prepared.pendingEpochChanges, prepared.accepted⟩,
        prepared.pending⟩
  · rintro (e | ⟨⟩)
    · -- the pending commit is there, so that clearing it cannot fail
      have clears : Triple _ (clearPendingCommit b) (fun _ => Idle origin) (fun _ => Idle origin) :=
        triple_clearPendingCommit serialises laws
      refine triple_bind (fun _ => Idle origin) (triple_weaken clears ?_ (fun _ _ idle => idle)
        (fun _ _ idle => idle)) (fun _ => triple_throw fun _ idle => idle)
      intro env prepared
      obtain ⟨staged, pending, _⟩ := prepared.pending
      exact ⟨prepared.toUnsent, by simp [pending]⟩
    · rintro env ⟨before, sent, prepared⟩
      obtain ⟨staged, pending, commits⟩ := prepared.pending
      obtain ⟨merged, merges, epoch, created⟩ := laws.merged env.group staged pending
      simp only [mergeCommit_eq serialises env merged merges]
      have same : before = origin.accepted := prepared.accepted
      exact ⟨commit, staged.framed, same ▸ sent,
        epoch.trans (congrArg (· + 1) prepared.members.epoch), created, commits⟩

/-- The message can be encrypted by the handle. -/
def Encrypts (env : Env b) (message encrypted : Bytes) (group : b.Group) : Prop :=
  ∃ signer, credential b env.group = .ok signer ∧
    b.createMessage env.clock env.group signer message = (.ok encrypted, group)

theorem encryptMessage_ok_iff (serialises : Serialises b) (env env' : Env b)
    (message encrypted : Bytes) :
    encryptMessage b message env = .ok encrypted env' ↔
      ∃ group, Encrypts env message encrypted group ∧ env' = env.called.written group := by
  rw [encryptMessage, signedCall_eq_ok serialises, exists_comm]
  simp only [Encrypts, ← exists_and_right, and_assoc]

theorem keeps_encryptMessage (serialises : Serialises b) (laws : CommitLaws b Commits)
    (message : Bytes) (epoch : Nat) :
    Keeps (fun env : Env b => env.group.epoch = epoch) (encryptMessage b message) := by
  apply keeps_bind (keeps_currentCredential _)
  intro signer
  apply keeps_bind (show Keeps _ (tick b) from fun _ same => same)
  intro call
  have changed : ∀ (env : Env b) result after, env.group.epoch = epoch →
      (((b.createMessage call env.group signer message).1.mapError
        (Error.openMls "creating encrypted message"),
        (b.createMessage call env.group signer message).2)) = (result, after) →
      after.epoch = epoch := by
    intro env result after same called
    cases called
    exact (laws.encrypted call env.group signer message).1.trans same
  exact triple_mutateGroup serialises
    (triple_onGroup (fun env _ after => changed env _ after) (fun env _ after => changed env _ after))
    (fun _ _ same => same)

/-- Everything goes through that happens after a commit with a new history client was merged:
the secret can be prepared and encrypted, and the delivery service takes the bundle. -/
def Delivers (b : Backend) (clock : Nat) (group : b.Group) (commit : CommitBundle)
    (historySecret : HistorySecret) : Prop :=
  ∃ merged transportable signer encrypted after,
    b.mergePendingCommit group = (.ok (), merged) ∧
    b.prepareForTransport clock historySecret = .ok transportable ∧
    credential b merged.setPersisted = .ok signer ∧
    b.createMessage (clock + 1) merged.setPersisted signer transportable = (.ok encrypted, after) ∧
    b.sendCommitBundle (clock + 2) { commit with encryptedMessage := some encrypted } = .ok ()

/-- A commit with a new history client that is refused stays merged. -/
theorem triple_sendNewHistoryClientCommit (serialises : Serialises b)
    (laws : CommitLaws b Commits) (commit : CommitBundle) (historySecret : HistorySecret) :
    Triple (Prepared Commits origin commit) (sendNewHistoryClientCommit b commit historySecret)
      (fun _ _ => True) (fun _ env => env.group.epoch = origin.group.epoch + 1) := by
  refine triple_bind (fun _ env => env.group.epoch = origin.group.epoch + 1) ?_ ?_
  · intro env prepared
    obtain ⟨staged, pending, _⟩ := prepared.pending
    obtain ⟨merged, merges, epoch, _⟩ := laws.merged env.group staged pending
    simp only [mergeCommit_eq serialises env merged merges]
    exact epoch.trans (congrArg (· + 1) prepared.members.epoch)
  · intro _
    refine triple_weaken (?_ : Keeps (fun env => env.group.epoch = origin.group.epoch + 1) _)
      (fun _ same => same) (fun _ _ _ => trivial) (fun _ _ same => same)
    apply keeps_bind (show Keeps _ (tick b) from fun _ same => same)
    intro call
    apply keeps_bind (keeps_liftExcept _ _)
    intro transportable
    apply keeps_bind (keeps_encryptMessage serialises laws transportable _)
    intro encrypted
    refine keeps_bind (fun _ same => same) fun _ => ?_
    refine keeps_bind (fun _ same => same) fun call => ?_
    exact keeps_bind (keeps_liftExcept _ _) fun _ _ same => same

theorem sendNewHistoryClientCommit_ok_iff (serialises : Serialises b)
    {merged : b.Group} (merges : b.mergePendingCommit env.group = (.ok (), merged))
    (commit : CommitBundle) (historySecret : HistorySecret) :
    sendNewHistoryClientCommit b commit historySecret env = .ok () env' ↔
      ∃ transportable encrypted group,
        b.prepareForTransport env.clock historySecret = .ok transportable ∧
        Encrypts (env.announced merged).called transportable encrypted group ∧
        b.sendCommitBundle (env.clock + 2) { commit with encryptedMessage := some encrypted } =
          .ok () ∧
        env' = { (((env.announced merged).called.called.written group).called) with
          historyClients := env.historyClients ++ [(env.id, historySecret)]
          accepted := env.accepted ++ [{ commit with encryptedMessage := some encrypted }] } := by
  have announces := mergeCommit_eq serialises env merged merges
  constructor
  · intro succeeded
    obtain ⟨_, _, announced, succeeded⟩ := bind_eq_ok.mp succeeded
    rw [announces] at announced
    cases announced
    obtain ⟨_, _, ticked, succeeded⟩ := bind_eq_ok.mp succeeded
    cases ticked
    obtain ⟨transportable, _, lifted, succeeded⟩ := bind_eq_ok.mp succeeded
    obtain ⟨prepares, rfl⟩ := liftExcept_eq_ok.mp lifted
    obtain ⟨encrypted, _, made, succeeded⟩ := bind_eq_ok.mp succeeded
    obtain ⟨group, encrypts, rfl⟩ := (encryptMessage_ok_iff serialises _ _ _ _).mp made
    obtain ⟨_, _, observed, succeeded⟩ := bind_eq_ok.mp succeeded
    cases observed
    obtain ⟨_, _, ticked, succeeded⟩ := bind_eq_ok.mp succeeded
    cases ticked
    obtain ⟨_, _, sent, succeeded⟩ := bind_eq_ok.mp succeeded
    obtain ⟨taken, rfl⟩ := liftExcept_eq_ok.mp sent
    cases succeeded
    exact ⟨transportable, encrypted, group, prepares, encrypts, taken, rfl⟩
  · rintro ⟨transportable, encrypted, group, prepares, encrypts, taken, rfl⟩
    refine bind_eq_ok.mpr ⟨(), _, announces, ?_⟩
    refine bind_eq_ok.mpr ⟨_, _, rfl, ?_⟩
    refine bind_eq_ok.mpr ⟨transportable, _, liftExcept_eq_ok.mpr ⟨prepares, rfl⟩, ?_⟩
    refine bind_eq_ok.mpr ⟨encrypted, _,
      (encryptMessage_ok_iff serialises _ _ _ _).mpr ⟨group, encrypts, rfl⟩, ?_⟩
    refine bind_eq_ok.mpr ⟨_, _, rfl, ?_⟩
    exact sendCommit_ok taken

/-- What a delivered commit with a new history client leaves. -/
theorem committed_of_ok (serialises : Serialises b) (laws : CommitLaws b Commits)
    {commit : CommitBundle} (prepared : Prepared Commits origin commit env)
    (succeeded : sendNewHistoryClientCommit b commit historySecret env = .ok () env') :
    Committed Commits origin env' := by
  obtain ⟨staged, pending, commits⟩ := prepared.pending
  obtain ⟨merged, merges, epoch, created⟩ := laws.merged env.group staged pending
  obtain ⟨transportable, encrypted, group, _, ⟨signer, _, encrypts⟩, _, rfl⟩ :=
    (sendNewHistoryClientCommit_ok_iff serialises merges commit historySecret).mp succeeded
  have kept := laws.encrypted (env.clock + 1) merged.setPersisted signer transportable
  have encrypts : b.createMessage (env.clock + 1) merged.setPersisted signer transportable =
      (.ok encrypted, group) := encrypts
  rw [encrypts] at kept
  refine ⟨{ commit with encryptedMessage := some encrypted }, staged.framed, ?_, ?_, ?_, commits⟩
  · exact congrArg (· ++ [_]) prepared.accepted
  · exact kept.1.trans (epoch.trans (congrArg (· + 1) prepared.members.epoch))
  · exact kept.2.trans created

theorem delivers_iff (serialises : Serialises b) (laws : CommitLaws b Commits)
    {commit : CommitBundle} (historySecret : HistorySecret)
    (prepared : Prepared Commits origin commit env) :
    Delivers b env.clock env.group commit historySecret ↔
      ∃ env', sendNewHistoryClientCommit b commit historySecret env = .ok () env' := by
  obtain ⟨staged, pending, _⟩ := prepared.pending
  obtain ⟨merged, merges, _, _⟩ := laws.merged env.group staged pending
  simp only [sendNewHistoryClientCommit_ok_iff serialises merges]
  constructor
  · rintro ⟨merged', transportable, signer, encrypted, group, merges', prepares, signs, encrypts,
      taken⟩
    rw [merges] at merges'
    cases merges'
    exact ⟨_, transportable, encrypted, group, prepares, ⟨signer, signs, encrypts⟩, taken, rfl⟩
  · rintro ⟨_, transportable, encrypted, group, prepares, ⟨signer, signs, encrypts⟩, taken, _⟩
    exact ⟨merged, transportable, signer, encrypted, group, merges, prepares, signs, encrypts,
      taken⟩

/-! ### The whole operation -/

/-- The pending commit has to be replaced by one that also replaces the history client. -/
def Replaces (env : Env b) (pendingCommit : StagedCommit b.K) : Prop :=
  isHistorySharingEnabled env.group = true ∧ env.group.pendingCommit = some pendingCommit ∧
    needsHistoryUpdate env.group pendingCommit = true

theorem sendAndMergeCommit_replaces {pendingCommit : StagedCommit b.K}
    (replaces : Replaces env pendingCommit) (commit : CommitBundle) :
    sendAndMergeCommit b commit env =
      (replacementCommit b pendingCommit (historyIndices env.group) >>= fun replacement =>
        sendNewHistoryClientCommit b replacement.1 replacement.2) env := by
  obtain ⟨enabled, pending, needed⟩ := replaces
  simp only [sendAndMergeCommit, updateHistoryClient, replaceHistoryClient, get, getThe,
    MonadStateOf.get, bind, EStateM.bind, EStateM.get, enabled, pending, needed, Bool.not_true,
    Bool.false_eq_true, if_false, if_true]
  cases replacementCommit b pendingCommit (historyIndices env.group) env with
  | error e env₁ => rfl
  | ok replacement env₁ =>
    simp only
    cases sendNewHistoryClientCommit b replacement.1 replacement.2 env₁ <;> rfl

theorem sendAndMergeCommit_plain {staged : StagedCommit b.K}
    (pending : env.group.pendingCommit = some staged)
    (plain : ∀ pendingCommit, ¬ Replaces env pendingCommit) (commit : CommitBundle) :
    sendAndMergeCommit b commit env = sendThenMerge b commit env := by
  have kept : updateHistoryClient b env = .ok .noUpdateNeeded env := by
    simp only [updateHistoryClient, get, getThe, MonadStateOf.get, bind, EStateM.bind, EStateM.get]
    cases enabled : isHistorySharingEnabled env.group with
    | false => rfl
    | true =>
      have unneeded : needsHistoryUpdate env.group staged = false := by
        simpa [Replaces, enabled, pending] using plain staged
      simp [pending, unneeded, pure, EStateM.pure]
  simp only [sendAndMergeCommit, bind, EStateM.bind, kept]
  rfl

/-- OpenMLS answers an operation so that it comes to send a commit with a new history client, which
is then pending in `group`: one that enables history sharing, or one that takes the place of a commit
that removes members. -/
inductive BringsHistoryClient (b : Backend) (env : Env b) :
    CommittingCall → CommitBundle → HistorySecret → Nat → b.Group → Prop
  | enabling {commit : CommitBundle} {historySecret : HistorySecret} {signer : CredentialWithKey}
      {after : b.Group} (disabled : isHistorySharingEnabled env.group = false)
      (generated : b.generateHistorySecret env.clock env.configuration.cipherSuite =
        .ok historySecret) (signs : credential b (unpended b env.group) = .ok signer)
      (created : Creates b (env.clock + 1) (unpended b env.group) signer
        (.addMembers [historySecret.keyPackage]) commit after) :
      BringsHistoryClient b env .enableHistorySharing commit historySecret (env.clock + 2)
        after.setPersisted
  | replacing {call : CommittingCall} {first commit : CommitBundle} {historySecret : HistorySecret}
      {signer : CredentialWithKey} {request : CommitRequest} {after group : b.Group} {clock : Nat}
      {pendingCommit : StagedCommit b.K} (asked : call.request b env.group (unpended b env.group) =
        some (signer, request))
      (created : Creates b env.clock (unpended b env.group) signer request first after)
      (pending : after.pendingCommit = some pendingCommit)
      (enabled : isHistorySharingEnabled env.group = true)
      (needed : needsHistoryUpdate env.group pendingCommit = true)
      (replaced : Replacement b env.configuration.cipherSuite (env.clock + 1) after.setPersisted
        pendingCommit (historyIndices env.group) commit historySecret clock group) :
      BringsHistoryClient b env call commit historySecret clock group

/-- The operation comes to send a commit with a new history client. -/
inductive ReachesHistory (b : Backend) (env : Env b) (call : CommittingCall) :
    CommitBundle → HistorySecret → Env b → Prop
  | enabling {commit : CommitBundle} {historySecret : HistorySecret} {env₁ : Env b}
      (created : call.create b env = .ok (some (commit, some historySecret)) env₁) :
      ReachesHistory b env call commit historySecret env₁
  | replacing {first commit : CommitBundle} {historySecret : HistorySecret} {env₀ env₁ : Env b}
      {pendingCommit : StagedCommit b.K}
      (created : call.create b env = .ok (some (first, none)) env₀)
      (replaces : Replaces env₀ pendingCommit)
      (replaced : replacementCommit b pendingCommit (historyIndices env₀.group) env₀ =
        .ok (commit, historySecret) env₁) :
      ReachesHistory b env call commit historySecret env₁

variable {env₁ : Env b}

theorem ReachesHistory.perform_eq {commit : CommitBundle}
    (reaches : ReachesHistory b env call commit historySecret env₁) :
    call.perform b env = sendNewHistoryClientCommit b commit historySecret env₁ := by
  cases reaches with
  | enabling created =>
    simp only [Conversation.perform_eq, bind, EStateM.bind, created]
    rfl
  | replacing created replaces replaced =>
    simp only [Conversation.perform_eq, bind, EStateM.bind, created, conclude,
      sendAndMergeCommit_replaces replaces, replaced]

theorem ReachesHistory.prepared (serialises : Serialises b) (laws : CommitLaws b Commits)
    {commit : CommitBundle} (reaches : ReachesHistory b env call commit historySecret env₁) :
    Prepared Commits env commit env₁ := by
  cases reaches with
  | enabling created => exact prepared_of_create serialises laws created
  | @replacing _ _ _ env₀ _ pendingCommit created replaces replaced =>
    have prepared := prepared_of_create serialises laws created
    have replacement := triple_replacementCommit serialises laws pendingCommit
      (historyIndices env₀.group) env₀ ⟨prepared.toUnsent, by simp [replaces.2.1]⟩
    rw [replaced] at replacement
    exact replacement

theorem bringsHistoryClient_iff (serialises : Serialises b) (laws : CommitLaws b Commits)
    {commit : CommitBundle} {clock : Nat} {group : b.Group} :
    BringsHistoryClient b env call commit historySecret clock group ↔
      ∃ env₁, ReachesHistory b env call commit historySecret env₁ ∧ env₁.clock = clock ∧
        env₁.group = group := by
  have clock_called (env : Env b) (after : b.Group) :
      (env.unpended.called.written after).clock = env.clock + 1 :=
    congrArg (· + 1) env.unpended_clock
  constructor
  · intro brings
    cases brings with
    | @enabling _ _ signer after disabled generated signs created =>
      refine ⟨env.called.unpended.called.written after, .enabling ((create_history_iff serialises).mpr
        ⟨rfl, disabled, generated, signer, ?_, after, ?_, rfl⟩), clock_called env.called after, rfl⟩
      · rw [env.called.unpended_group]
        exact signs
      · rw [env.called.unpended_group, env.called.unpended_clock]
        exact created
    | @replacing _ first _ _ signer request after _ _ pendingCommit asked created pending enabled
        needed replaced =>
      rw [← env.unpended_group] at asked created
      rw [← env.unpended_clock] at created
      have creates : call.create b env = .ok (some (first, none)) (env.unpended.called.written after) :=
        (create_plain_iff serialises).mpr ⟨signer, request, asked, after, created, rfl⟩
      have same := (prepared_of_create serialises laws creates).members
      rw [← same.historyIndices, ← clock_called env after, ← env.unpended_configuration] at replaced
      have isPending : (env.unpended.called.written after).group.pendingCommit = some pendingCommit :=
        pending
      obtain ⟨env₁, replaces, clock, group⟩ := ok_of_replacement serialises (by simp [isPending])
        (queued_of_needed needed) replaced
      exact ⟨env₁, .replacing creates ⟨same.isHistorySharingEnabled.trans enabled, pending,
        (same.needsHistoryUpdate _).trans needed⟩ replaces, clock, group⟩
  · rintro ⟨env₁, reaches, rfl, rfl⟩
    cases reaches with
    | enabling created =>
      obtain ⟨rfl, disabled, generated, signer, signs, after, creates, rfl⟩ :=
        (create_history_iff serialises).mp created
      rw [env.called.unpended_group] at signs creates
      rw [env.called.unpended_clock] at creates
      rw [clock_called env.called after]
      exact .enabling disabled generated signs creates
    | @replacing first _ _ _ _ pendingCommit created replaces replaced =>
      have same := (prepared_of_create serialises laws created).members
      obtain ⟨signer, request, asked, after, creates, rfl⟩ := (create_plain_iff serialises).mp created
      obtain ⟨enabled, pending, needed⟩ := replaces
      have answers := replacement_of_ok serialises (by simp [pending]) (queued_of_needed needed)
        replaced
      have sameSuite : (env.unpended.called.written after).configuration = env.configuration :=
        env.unpended_configuration
      rw [same.historyIndices, clock_called env after, sameSuite] at answers
      rw [env.unpended_group] at asked creates
      rw [env.unpended_clock] at creates
      exact .replacing asked creates pending (same.isHistorySharingEnabled.symm.trans enabled)
        ((same.needsHistoryUpdate _).symm.trans needed) answers

/-- An operation that has created its commit comes to send one with a new history client, or it
ends as before the call, or its commit has made the next epoch. -/
theorem perform_cases (serialises : Serialises b) (laws : CommitLaws b Commits)
    {commit : CommitBundle} (created : call.create b env = .ok (some (commit, secret)) env₁) :
    (∃ commit historySecret env₂, ReachesHistory b env call commit historySecret env₂) ∨
    (∃ e env', call.perform b env = .error e env' ∧ Idle env env') ∨
    (∃ env', call.perform b env = .ok () env' ∧ Committed Commits env env') := by
  have prepared := prepared_of_create serialises laws created
  have performs : call.perform b env = conclude b (some (commit, secret)) env₁ := by
    simp only [perform_eq, bind, EStateM.bind, created]
  obtain ⟨staged, pending, _⟩ := prepared.pending
  cases secret with
  | some historySecret => exact .inl ⟨_, _, _, .enabling created⟩
  | none =>
    by_cases replaces : ∃ pendingCommit, Replaces env₁ pendingCommit
    · obtain ⟨pendingCommit, replaces⟩ := replaces
      have replacement := triple_replacementCommit serialises laws pendingCommit
        (historyIndices env₁.group) env₁ ⟨prepared.toUnsent, by simp [replaces.2.1]⟩
      cases called : replacementCommit b pendingCommit (historyIndices env₁.group) env₁ with
      | ok made env₂ =>
        exact .inl ⟨made.1, made.2, env₂, .replacing created replaces called⟩
      | error e env₂ =>
        rw [called] at replacement
        refine .inr (.inl ⟨e, env₂, ?_, replacement⟩)
        simp only [performs, conclude, sendAndMergeCommit_replaces replaces, bind, EStateM.bind,
          called]
    · have sent := triple_sendThenMerge serialises laws commit env₁ prepared
      have plain : conclude b (some (commit, none)) env₁ = sendThenMerge b commit env₁ :=
        sendAndMergeCommit_plain pending (not_exists.mp replaces) commit
      rw [plain] at performs
      cases called : sendThenMerge b commit env₁ with
      | ok _ env' =>
        rw [called] at sent
        exact .inr (.inr ⟨env', performs.trans called, sent⟩)
      | error e env' =>
        rw [called] at sent
        exact .inr (.inl ⟨e, env', performs.trans called, sent⟩)

end Rules

/-- A committing operation that has created its commit either fails and leaves the group as
before the call, without a pending commit and without a notification, or succeeds and has had
exactly one bundle accepted, whose commit made the next epoch. -/
structure AtomicCall (b : Backend) (Commits : Bytes → Framed → Prop) (env : Env b)
    (call : CommittingCall) : Prop where
  failed : ∀ created env₁ e env', call.create b env = .ok (some created) env₁ →
    call.perform b env = .error e env' →
    SameMembers env.group env'.group ∧ env'.group.pendingCommit = none ∧
      env'.pendingEpochChanges = env.pendingEpochChanges
  succeeded : ∀ created env₁ env', call.create b env = .ok (some created) env₁ →
    call.perform b env = .ok () env' → Committed Commits env env'

/-- **Atomicity of commits.**  A committing operation is atomic exactly when no commit with a new
history client fails after it was merged: such a commit is merged before it is sent, and nothing
takes it back. -/
theorem atomicCall_iff_history_delivered {b : Backend} {Commits : Bytes → Framed → Prop}
    (serialises : Serialises b) (laws : CommitLaws b Commits) (env : Env b)
    (call : CommittingCall) :
    AtomicCall b Commits env call ↔
      ∀ commit historySecret clock group,
        BringsHistoryClient b env call commit historySecret clock group →
        Delivers b clock group commit historySecret := by
  have reaches_iff : (∀ commit historySecret clock group,
      BringsHistoryClient b env call commit historySecret clock group →
        Delivers b clock group commit historySecret) ↔
      ∀ commit historySecret env₁, ReachesHistory b env call commit historySecret env₁ →
        Delivers b env₁.clock env₁.group commit historySecret := by
    simp only [bringsHistoryClient_iff serialises laws]
    exact ⟨fun holds commit historySecret env₁ reaches =>
        holds _ _ _ _ ⟨env₁, reaches, rfl, rfl⟩,
      fun holds commit historySecret clock group ⟨env₁, reaches, sameClock, sameGroup⟩ =>
        sameClock ▸ sameGroup ▸ holds _ _ _ reaches⟩
  rw [reaches_iff]
  constructor
  · intro atomic commit historySecret env₁ reaches
    have prepared := reaches.prepared serialises laws
    have sent := triple_sendNewHistoryClientCommit serialises laws commit historySecret env₁ prepared
    rw [delivers_iff serialises laws historySecret prepared]
    cases called : sendNewHistoryClientCommit b commit historySecret env₁ with
    | ok _ env' => exact ⟨env', rfl⟩
    | error e env' =>
      -- the group has advanced, which a failed operation must not leave behind
      rw [called] at sent
      have failed := reaches.perform_eq.trans called
      have same : env'.group.epoch = env.group.epoch := by
        cases reaches with
        | enabling created => exact (atomic.failed _ _ _ _ created failed).1.epoch
        | replacing created _ _ => exact (atomic.failed _ _ _ _ created failed).1.epoch
      have advanced : env'.group.epoch = env.group.epoch + 1 := sent
      omega
  · intro delivered
    have committed : ∀ commit historySecret env₁,
        ReachesHistory b env call commit historySecret env₁ →
        ∃ env', call.perform b env = .ok () env' ∧ Committed Commits env env' := by
      intro commit historySecret env₁ reaches
      have prepared := reaches.prepared serialises laws
      obtain ⟨env', sent⟩ := (delivers_iff serialises laws historySecret prepared).mp
        (delivered _ _ _ reaches)
      exact ⟨env', reaches.perform_eq.trans sent, committed_of_ok serialises laws prepared sent⟩
    constructor
    · intro created env₁ e env' creates performed
      rcases perform_cases serialises laws creates with
        ⟨commit, historySecret, env₂, reaches⟩ | ⟨_, _, failed, idle⟩ | ⟨_, succeeded, _⟩
      · obtain ⟨_, succeeded, _⟩ := committed _ _ _ reaches
        cases performed.symm.trans succeeded
      · cases performed.symm.trans failed
        exact ⟨idle.members, idle.noneCommit, idle.pendingEpochChanges⟩
      · cases performed.symm.trans succeeded
    · intro created env₁ env' creates performed
      rcases perform_cases serialises laws creates with
        ⟨commit, historySecret, env₂, reaches⟩ | ⟨_, _, failed, _⟩ | ⟨_, succeeded, done⟩
      · obtain ⟨_, succeeded, done⟩ := committed _ _ _ reaches
        cases performed.symm.trans succeeded
        exact done
      · cases performed.symm.trans failed
      · cases performed.symm.trans succeeded
        exact done

namespace Sample

/-- The message of an own commit carries its content. -/
def commitsTo (message : Bytes) (framed : Framed) : Prop := message = 4 :: framed.content

theorem commitLaws (transport : Except Nat Unit) : CommitLaws (backend transport) commitsTo where
  created := by
    intro call group signer request output after created
    cases created
    exact ⟨⟨rfl, rfl, rfl⟩, ⟨_, rfl, rfl⟩, [], [], rfl, rfl⟩
  refused := by
    intro call group signer request e after refused
    cases refused
  proposedAdd := fun call group signer keyPackage => ⟨⟨rfl, rfl, rfl⟩, rfl⟩
  proposedRemove := fun call group signer member => ⟨⟨rfl, rfl, rfl⟩, rfl⟩
  cleared := fun group => ⟨⟨rfl, rfl, rfl⟩, rfl⟩
  merged := by
    intro group staged pending
    refine ⟨{ merge group staged with isActive := group.isActive }, ?_, rfl, rfl⟩
    simp only [backend, pending]
  encrypted := fun call group signer message => ⟨rfl, rfl⟩

end Sample

open Sample in
theorem atomicCall_iff_history_delivered_sample :
    AtomicCall (backend (.ok ())) commitsTo (handle (.ok ())) .enableHistorySharing := by
  refine (atomicCall_iff_history_delivered (serialises _) (commitLaws _) _ _).mpr ?_
  intro commit historySecret clock group adds
  cases adds with
  | enabling disabled generated signs created =>
    obtain ⟨output, created, bundled⟩ := created
    cases generated
    cases created
    cases bundled
    exact ⟨_, _, _, _, _, rfl, rfl, rfl, rfl, rfl⟩
  | replacing asked => cases asked

open Sample in
/-- The delivery service refuses the commit that enables history sharing: the call fails, but
the group is in the next epoch and the epoch notification is queued. -/
theorem refused_history_commit_stays_merged :
    ∃ e env', CommittingCall.enableHistorySharing.perform (backend (.error 1))
        (handle (.error 1)) = .error e env' ∧
      (handle (.error 1)).group.epoch = 5 ∧ env'.group.epoch = 6 ∧ env'.accepted = [] ∧
      env'.pendingEpochChanges = [([42], 6)] ∧
      ¬ AtomicCall (backend (.error 1)) commitsTo (handle (.error 1)) .enableHistorySharing := by
  refine ⟨_, _, rfl, rfl, rfl, rfl, rfl, ?_⟩
  intro atomic
  have same := (atomic.failed _ _ _ _ rfl rfl).1.epoch
  exact absurd same (by decide)

end CoreCrypto.Conversation
