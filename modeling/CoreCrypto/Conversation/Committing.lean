import CoreCrypto.Conversation.Stable

/-!
# What creating and merging own commits keeps

An invariant that survives changes of the group within its epoch, the record of what was sent and
the merge of the pending commit is kept by every committing operation.
-/

namespace CoreCrypto.Conversation

open Keystore Library

variable {b : Backend} {α : Type} {ε : Type}

/-! ### Rules -/

variable {pre : Env b → Prop} {err : Error → Env b → Prop} {post : α → Env b → Prop}

theorem triple_mutateGroup (serialises : Serialises b) {op : Op b α}
    (called : Triple pre op post err)
    (stable : ∀ a env, post a env → post a (env.written env.group)) :
    Triple pre (mutateGroup b op) post err := by
  apply triple_bind post called
  intro a env holds
  have persisted := persist_eq serialises env
  simp only [bind, EStateM.bind, persisted]
  exact stable a env holds

theorem triple_onGroup {f : b.Group → Except Error α × b.Group}
    (succeeds : ∀ env a after, pre env → f env.group = (.ok a, after) →
      post a { env with group := after })
    (fails : ∀ env e after, pre env → f env.group = (.error e, after) →
      err e { env with group := after }) : Triple pre (onGroup b f) post err := by
  intro env holds
  simp only [onGroup]
  rcases called : f env.group with ⟨result, after⟩
  cases result with
  | ok a => exact succeeds env a after holds called
  | error e => exact fails env e after holds called

theorem keeps_currentCredential (inv : Env b → Prop) : Keeps inv (currentCredential b) :=
  keeps_get_bind fun _ => keeps_liftExcept _ _

theorem triple_liftExcept {wrap : ε → Error} {result : Except ε α}
    (failing : ∀ env, pre env → ∀ e, err e env) :
    Triple pre (liftExcept b wrap result) (fun _ => pre) err :=
  triple_weaken (keeps_liftExcept _ _) (fun _ holds => holds) (fun _ _ holds => holds)
    (fun e env holds => failing env holds e)

theorem triple_currentCredential (failing : ∀ env, pre env → ∀ e, err e env) :
    Triple pre (currentCredential b) (fun _ => pre) err :=
  triple_read fun _ => triple_liftExcept failing

/-! ### Creating the commit -/

section Create

variable (b)

/-- The operation up to its first contact with the delivery service: the commit it creates, with
the history secret that goes with it, or nothing if there is nothing to commit. -/
def CommittingCall.create :
    CommittingCall → Op b (Option (CommitBundle × Option HistorySecret))
  | .addMembers keyPackages => do return some (← addMembersInner b keyPackages, none)
  | .removeMembers clients => do return some (← removeMembersInner b clients, none)
  | .updateKeyMaterial => do
    let signer ← currentCredential b
    return some (← setCredentialInner b signer, none)
  | .setCredentialByRef credentialRef => do
    let signer ← liftExcept b (.external "loading credential from ref")
      (b.loadCredential credentialRef)
    return some (← setCredentialInner b signer, none)
  | .commitPendingProposals => do
    ensureNoPendingCommit b
    return (← commitPendingProposalsInner b).map fun commit => (commit, none)
  | .enableHistorySharing => do
    if isHistorySharingEnabled (← get).group then return none
    let historySecret ← generateHistorySecret b
    return some (← addMembersInner b [historySecret.keyPackage], some historySecret)
  | .disableHistorySharing => do
    let historyClientIds := getHistoryClientIds (← get).group
    if historyClientIds.isEmpty then return none
    return some (← removeMembersInner b historyClientIds, none)

/-- What the operation does with its commit. -/
def conclude : Option (CommitBundle × Option HistorySecret) → Op b Unit
  | none => return ()
  | some (commit, none) => sendAndMergeCommit b commit
  | some (commit, some historySecret) => sendNewHistoryClientCommit b commit historySecret

theorem perform_eq (call : CommittingCall) (env : Env b) :
    call.perform b env = (call.create b >>= conclude b) env := by
  cases call with
  | addMembers keyPackages =>
    simp only [CommittingCall.perform, addMembers, CommittingCall.create, bind, EStateM.bind]
    cases addMembersInner b keyPackages env <;> rfl
  | removeMembers clients =>
    simp only [CommittingCall.perform, removeMembers, CommittingCall.create, bind, EStateM.bind]
    cases removeMembersInner b clients env <;> rfl
  | updateKeyMaterial =>
    simp only [CommittingCall.perform, updateKeyMaterial, CommittingCall.create, bind, EStateM.bind]
    cases currentCredential b env with
    | error e env' => rfl
    | ok signer env' =>
      simp only
      cases setCredentialInner b signer env' <;> rfl
  | setCredentialByRef credentialRef =>
    simp only [CommittingCall.perform, setCredentialByRef, CommittingCall.create, bind,
      EStateM.bind]
    cases b.loadCredential credentialRef with
    | error code => rfl
    | ok signer =>
      simp only [liftExcept, pure, EStateM.pure]
      cases setCredentialInner b signer env <;> rfl
  | commitPendingProposals =>
    simp only [CommittingCall.perform, commitPendingProposals, CommittingCall.create, bind,
      EStateM.bind]
    cases ensureNoPendingCommit b env with
    | error e env' => rfl
    | ok _ env' =>
      simp only
      cases commitPendingProposalsInner b env' with
      | error e env' => rfl
      | ok commit env' => cases commit <;> rfl
  | enableHistorySharing =>
    simp only [CommittingCall.perform, enableHistorySharing, CommittingCall.create, get, getThe,
      MonadStateOf.get, bind, EStateM.bind, EStateM.get]
    cases isHistorySharingEnabled env.group with
    | true => rfl
    | false =>
      simp only [Bool.false_eq_true, if_false, EStateM.bind]
      cases generateHistorySecret b env with
      | error e env' => rfl
      | ok historySecret env' =>
        simp only
        cases addMembersInner b [historySecret.keyPackage] env' <;> rfl
  | disableHistorySharing =>
    simp only [CommittingCall.perform, disableHistorySharing, removeMembers, CommittingCall.create,
      get, getThe, MonadStateOf.get, bind, EStateM.bind, EStateM.get]
    cases (getHistoryClientIds env.group).isEmpty with
    | true => rfl
    | false =>
      simp only [Bool.false_eq_true, if_false, EStateM.bind]
      cases removeMembersInner b (getHistoryClientIds env.group) env <;> rfl

end Create

/-! ### Rules for the operations that create a commit -/

/-- The request is one of those that the operations start with. -/
def CommitRequest.Initial (request : CommitRequest) : Prop :=
  ∀ proposals, request ≠ .commitToInlineProposals proposals

/-- What holds on the way of an operation to its commit: at the start, when no commit is pending,
when there is nothing to commit, and when the bundle of the commit was made. -/
structure CommitRules (start ready idle : Env b → Prop) (made : CommitBundle → Env b → Prop)
    (err : Error → Env b → Prop) : Prop where
  ticked : Triple start (tick b) (fun _ => start) err
  started : ∀ env, start env → idle env ∧ ∀ e, err e env
  ensured : Triple start (ensureNoPendingCommit b) (fun _ => ready) err
  readied : ∀ env, ready env → idle env ∧ ∀ e, err e env
  bundled : ∀ wrap signer request, CommitRequest.Initial request →
    Triple ready (mutateGroup b (createCommit b wrap signer request >>= fun output =>
      liftExcept b id (commitBundle b output))) made err
  created : ∀ wrap signer request, CommitRequest.Initial request →
    Triple ready (mutateGroup b (createCommit b wrap signer request) >>= fun output =>
      liftExcept b id (commitBundle b output)) made err

namespace CommitRules

variable {start ready idle : Env b → Prop} {made : CommitBundle → Env b → Prop}
  {err : Error → Env b → Prop}

theorem addMembersInner (rules : CommitRules start ready idle made err)
    (keyPackages : List KeyPackageIn) :
    Triple start (Conversation.addMembersInner b keyPackages) made err := by
  apply triple_bind _ rules.ensured
  intro _
  apply triple_bind _ (triple_currentCredential fun env holds => (rules.readied env holds).2)
  intro signer
  exact rules.bundled _ signer _ nofun

theorem setCredentialInner (rules : CommitRules start ready idle made err)
    (signer : CredentialWithKey) :
    Triple start (Conversation.setCredentialInner b signer) made err := by
  apply triple_bind _ rules.ensured
  intro _ env holds
  have bundle := fun leafNode => rules.bundled (createCommitError "group self update") signer
    (.explicitSelfUpdate leafNode) nofun
  simp only [mutateGroup, get, getThe, MonadStateOf.get, EStateM.get, bind, EStateM.bind]
    at bundle ⊢
  cases env.group.ownLeaf with
  | none => exact (rules.readied env holds).2 _
  | some leafNode => exact bundle _ env holds

theorem removeMembersInner (rules : CommitRules start ready idle made err) (clients : List Bytes) :
    Triple start (Conversation.removeMembersInner b clients) made err := by
  apply triple_bind _ rules.ensured
  intro _
  apply triple_bind _ (triple_currentCredential fun env holds => (rules.readied env holds).2)
  intro signer env holds
  exact rules.created _ signer (.removeMembers _) nofun env holds

/-- The bundle of the commit was made, or there was nothing to commit. -/
def Ends (idle : Env b → Prop) (made : CommitBundle → Env b → Prop) :
    Option CommitBundle → Env b → Prop
  | none => idle
  | some bundle => made bundle

theorem commitPendingProposalsInner (rules : CommitRules start ready idle made err) :
    Triple ready (Conversation.commitPendingProposalsInner b) (Ends idle made) err := by
  apply triple_read
  intro env
  split
  next => exact triple_pure fun env holds => (rules.readied env holds).1
  next =>
    apply triple_bind _ (triple_currentCredential fun env holds => (rules.readied env holds).2)
    intro signer
    rw [← bind_assoc]
    exact triple_bind _ (rules.created _ signer .commitToPendingProposals nofun) fun bundle =>
      triple_pure fun _ done => done

theorem create (rules : CommitRules start ready idle made err) (call : CommittingCall) :
    Triple start (call.create b) (fun created => Ends idle made (created.map Prod.fst)) err := by
  have answers : ∀ {op : Op b CommitBundle} (secret : Option HistorySecret),
      Triple start op made err →
      Triple start (op >>= fun bundle => pure (some (bundle, secret)))
        (fun created => Ends idle made (created.map Prod.fst)) err :=
    fun secret makes => triple_bind _ makes fun bundle => triple_pure fun _ done => done
  have failing := fun env holds => (rules.started env holds).2
  have nothing : Triple start (pure (none : Option (CommitBundle × Option HistorySecret)))
      (fun created => Ends idle made (created.map Prod.fst)) err :=
    triple_pure fun env holds => (rules.started env holds).1
  cases call with
  | addMembers keyPackages => exact answers none (rules.addMembersInner keyPackages)
  | removeMembers clients => exact answers none (rules.removeMembersInner clients)
  | updateKeyMaterial =>
    apply triple_bind _ (triple_currentCredential failing)
    intro signer
    exact answers none (rules.setCredentialInner signer)
  | setCredentialByRef credentialRef =>
    apply triple_bind _ (triple_liftExcept failing)
    intro signer
    exact answers none (rules.setCredentialInner signer)
  | commitPendingProposals =>
    apply triple_bind _ rules.ensured
    intro _
    apply triple_bind _ rules.commitPendingProposalsInner
    intro commit
    cases commit <;> exact triple_pure fun _ done => done
  | enableHistorySharing =>
    apply triple_read
    intro env
    split
    next => exact nothing
    next =>
      apply triple_bind (fun _ => start)
      · exact triple_bind _ rules.ticked fun _ => triple_read fun _ => triple_liftExcept failing
      intro secret
      exact answers (some secret) (rules.addMembersInner [secret.keyPackage])
  | disableHistorySharing =>
    apply triple_read
    intro env
    dsimp only
    split
    next => exact nothing
    next => exact answers none (rules.removeMembersInner _)

end CommitRules

/-! ### Rules for the commit that replaces the history client -/

/-- The secret comes from the generator. -/
def Generated (b : Backend) (secret : HistorySecret) : Prop :=
  ∃ call cipherSuite, b.generateHistorySecret call cipherSuite = .ok secret

/-- The proposals that replace the history clients at the given leaves. -/
def rotationProposals (existing : List Nat) (keyPackage : KeyPackageIn) : List Proposal :=
  existing.map .remove ++ [.add keyPackage]

/-- What holds while a commit to `proposals` is made again: `listed own` when the pending own
proposals are `own`, and `made own` when they were committed as well. -/
structure Replacing (start : Env b → Prop) (proposals own : List Proposal)
    (listed : List Proposal → Env b → Prop) (made : List Proposal → CommitBundle → Env b → Prop)
    (err : Error → Env b → Prop) : Prop where
  cleared : Triple start (clearPendingCommit b) (fun _ => listed own) err
  ticked : ∀ own, Triple (listed own) (tick b) (fun _ => listed own) err
  failing : ∀ own env, listed own env → ∀ e, err e env
  removes : ∀ own member, Triple (listed own) (proposeRemoveMember b member)
    (fun _ => listed (own ++ [.remove member])) err
  adds : ∀ own keyPackage, Triple (listed own) (proposeAddMember b keyPackage)
    (fun _ => listed (own ++ [.add keyPackage])) err
  commits : ∀ own, Triple (listed own)
    (get >>= fun env => commitInlineProposals b (proposals ++ ownPendingProposals env.group))
    (CommitRules.Ends (fun env => ∀ e, err e env) (made own)) err

namespace Replacing

variable {start : Env b → Prop} {proposals own : List Proposal}
  {listed : List Proposal → Env b → Prop} {made : List Proposal → CommitBundle → Env b → Prop}
  {err : Error → Env b → Prop}

theorem removeAll (replacing : Replacing start proposals own listed made err)
    (existing : List Nat) (before : List Proposal) :
    Triple (listed before)
      (existing.forM fun member => discard (proposeRemoveMember b member))
      (fun _ => listed (before ++ existing.map .remove)) err := by
  -- each round appends the proposal of its member
  induction existing generalizing before with
  | nil => exact triple_pure fun _ holds => by simpa using holds
  | cons member rest ih =>
    change Triple _ (discard (proposeRemoveMember b member) >>= fun _ => _) _ _
    apply triple_bind _ (triple_discard (replacing.removes before member))
    intro _
    have appended : before ++ (member :: rest).map .remove =
        before ++ [.remove member] ++ rest.map .remove := by simp
    rw [appended]
    exact ih _

theorem generate (replacing : Replacing start proposals own listed made err)
    (before : List Proposal) :
    Triple (listed before) (generateHistorySecret b)
      (fun secret env => Generated b secret ∧ listed before env) err := by
  apply triple_bind _ (replacing.ticked before)
  intro call
  apply triple_read
  intro env env' holds
  cases generated : b.generateHistorySecret call env.configuration.cipherSuite with
  | error code => exact replacing.failing before env' holds _
  | ok secret => exact ⟨⟨call, _, generated⟩, holds⟩

/-- The second commit lists what the first one did, the own pending proposals and the rotation of
the history client. -/
theorem replacementCommit {pendingCommit : StagedCommit b.K}
    (replacing : Replacing start (pendingCommit.queuedProposals.map (·.proposal)) own listed made
      err) (existing : List Nat) :
    Triple start (Conversation.replacementCommit b pendingCommit existing)
      (fun replacement env => Generated b replacement.2 ∧
        made (own ++ rotationProposals existing replacement.2.keyPackage) replacement.1 env)
      err := by
  apply triple_bind _ replacing.cleared
  intro _
  apply triple_bind _ (replacing.generate own)
  intro secret env ⟨generated, holds⟩
  refine (triple_bind _ (replacing.removeAll existing own) fun _ =>
    triple_bind _ (triple_discard (replacing.adds _ secret.keyPackage)) fun _ => ?_ :
      Triple _ _ _ _) env holds
  rw [← bind_assoc]
  refine triple_bind _ (replacing.commits _) fun commit => ?_
  cases commit with
  | none => exact triple_throw fun _ failed => failed _
  | some commit =>
    have appended : own ++ rotationProposals existing secret.keyPackage =
        own ++ existing.map .remove ++ [.add secret.keyPackage] := (List.append_assoc ..).symm
    exact triple_pure fun _ done => ⟨generated, appended ▸ done⟩

end Replacing

/-! ### Invariants of committing operations -/

/-- The functions of OpenMLS that prepare a commit keep the epoch and the membership, and an own
commit does not remove its sender. -/
structure CommittingLaws (b : Backend) : Prop where
  epochs : EpochLaws b
  created : ∀ call group signer request, Kept group (b.createCommit call group signer request).2
  proposedAdd : ∀ call group signer keyPackage,
    Kept group (b.proposeAddMember call group signer keyPackage).2
  proposedRemove : ∀ call group signer member,
    Kept group (b.proposeRemoveMember call group signer member).2
  encrypted : ∀ call group signer message,
    Kept group (b.createMessage call group signer message).2
  cleared : ∀ group, Kept group (b.clearPendingCommit group)
  ownCommit : ∀ group after,
    b.mergePendingCommit group = (.ok (), after) → after.isActive = group.isActive

/-- How a call of OpenMLS relates the group it leaves to the group before. -/
def EndsIn {ε : Type} (done failed : b.Group → b.Group → Prop) (group : b.Group) :
    Except ε α × b.Group → Prop
  | (.ok _, after) => done group after
  | (.error _, after) => failed group after

/-- What the calls that prepare a commit do to the group when they succeed and when they fail.
Where a bundle is made of a commit before the group is written back, the failure to make it
counts as the call's. -/
structure CallLaws (b : Backend) (done failed : b.Group → b.Group → Prop) : Prop where
  same : ∀ group, failed group group
  created : ∀ call group signer request,
    EndsIn done failed group (b.createCommit call group signer request)
  bundled : ∀ call group signer request output after e,
    b.createCommit call group signer request = (.ok output, after) →
      commitBundle b output = .error e → failed group after
  proposedAdd : ∀ call group signer keyPackage,
    EndsIn done failed group (b.proposeAddMember call group signer keyPackage)
  proposedRemove : ∀ call group signer member,
    EndsIn done failed group (b.proposeRemoveMember call group signer member)
  encrypted : ∀ call group signer message,
    EndsIn done failed group (b.createMessage call group signer message)
  cleared : ∀ group, done group (b.clearPendingCommit group)

theorem endsIn_self {relation : b.Group → b.Group → Prop} {group : b.Group}
    {ended : Except ε α × b.Group} (related : relation group ended.2) :
    EndsIn relation relation group ended := by
  rcases ended with ⟨_ | _, after⟩ <;> exact related

theorem EndsIn.mapError {done failed : b.Group → b.Group → Prop} {group : b.Group}
    {ended : Except ε α × b.Group} (ends : EndsIn done failed group ended) (wrap : ε → Error) :
    EndsIn done failed group (ended.1.mapError wrap, ended.2) := by
  rcases ended with ⟨_ | _, after⟩ <;> exact ends

theorem CommittingLaws.calls (laws : CommittingLaws b) : CallLaws b Kept Kept where
  same := .refl
  created := fun call group signer request => endsIn_self (laws.created call group signer request)
  bundled := by
    intro call group signer request output after e creates _
    have kept := laws.created call group signer request
    rwa [creates] at kept
  proposedAdd := fun call group signer keyPackage =>
    endsIn_self (laws.proposedAdd call group signer keyPackage)
  proposedRemove := fun call group signer member =>
    endsIn_self (laws.proposedRemove call group signer member)
  encrypted := fun call group signer message =>
    endsIn_self (laws.encrypted call group signer message)
  cleared := laws.cleared

/-- The invariant is kept by everything that a committing operation does to a handle. -/
structure Working (b : Backend) (done failed : b.Group → b.Group → Prop) (inv : Env b → Prop) :
    Prop where
  changed : ∀ env group, inv env → failed env.group group → inv { env with group }
  written : ∀ env group, inv env → done env.group group → inv (env.written group)
  recorded : ∀ env accepted historyClients clock, inv env →
    inv { env with accepted, historyClients, clock }
  merged : Keeps inv (mergeCommit b)

/-- The handle after its commit was merged and announced. -/
def Env.announced (env : Env b) (merged : b.Group) : Env b :=
  { env.commitMerged merged with
    pendingEpochChanges := env.pendingEpochChanges ++ [(env.id, merged.epoch)] }

theorem mergeCommit_eq (serialises : Serialises b) (env : Env b) (merged : b.Group)
    (merges : b.mergePendingCommit env.group = (.ok (), merged)) :
    mergeCommit b env = .ok () (env.announced merged) := by
  have accepted := commitAccepted_ok serialises merges
  simp only [mergeCommit, bind, EStateM.bind, accepted]
  rfl

theorem keeps_mergeCommit (serialises : Serialises b) {inv : Env b → Prop}
    (announced : ∀ env merged, inv env → b.mergePendingCommit env.group = (.ok (), merged) →
      inv (env.announced merged))
    (failed : ∀ env code group, inv env → b.mergePendingCommit env.group = (.error code, group) →
      inv { env with group }) : Keeps inv (mergeCommit b) := by
  intro env holds
  rcases merges : b.mergePendingCommit env.group with ⟨result, merged⟩
  cases result with
  | ok _ =>
    rw [mergeCommit_eq serialises env merged merges]
    exact announced env merged holds merges
  | error code =>
    have fails := commitAccepted_error env code merged merges
    simp only [mergeCommit, bind, EStateM.bind, fails]
    exact failed env code merged holds merges

section Rules

variable {done failed : b.Group → b.Group → Prop} {inv : Env b → Prop}
  (working : Working b done failed inv)

include working

theorem working_tick : Keeps inv (tick b) := fun env holds => working.recorded env _ _ _ holds

theorem working_sendCommit (commit : CommitBundle) : Keeps inv (sendCommit b commit) := by
  apply keeps_bind (working_tick working)
  intro call
  apply keeps_bind (keeps_liftExcept _ _)
  intro _
  exact fun env holds => working.recorded env _ _ _ holds

variable (serialises : Serialises b)

include serialises

theorem working_mutateGroup {f : b.Group → Except Error α × b.Group}
    (ends : ∀ group, EndsIn done failed group (f group)) :
    Keeps inv (mutateGroup b (onGroup b f)) := by
  apply keeps_mutateGroup serialises
  · intro env a after holds called
    have done := ends env.group
    rw [called] at done
    exact working.written env after holds done
  · intro env e after holds called
    have failed := ends env.group
    rw [called] at failed
    exact working.changed env after holds failed

theorem working_signed (f : Nat → CredentialWithKey → b.Group → Except Error α × b.Group)
    (ends : ∀ call signer group, EndsIn done failed group (f call signer group)) :
    Keeps inv (do
      let signer ← currentCredential b
      let call ← tick b
      mutateGroup b (onGroup b (f call signer))) := by
  apply keeps_bind (keeps_currentCredential _)
  intro signer
  apply keeps_bind (working_tick working)
  intro call
  exact working_mutateGroup working serialises (ends call signer)

variable (laws : CallLaws b done failed)

include laws

theorem working_createCommit (wrap : CreateCommitError → Error) (signer : CredentialWithKey)
    (request : CommitRequest) : Keeps inv (mutateGroup b (createCommit b wrap signer request)) :=
  fun env holds => working_mutateGroup working serialises
    (fun group => (laws.created env.clock group signer request).mapError wrap)
    { env with clock := env.clock + 1 } (working.recorded env _ _ _ holds)

theorem working_createBundle (wrap : CreateCommitError → Error) (signer : CredentialWithKey)
    (request : CommitRequest) :
    Keeps inv (mutateGroup b (do
      let output ← createCommit b wrap signer request
      liftExcept b id (commitBundle b output))) := by
  intro env holds
  have ticked := working.recorded env env.accepted env.historyClients (env.clock + 1) holds
  have ends := laws.created env.clock env.group signer request
  rcases creates : b.createCommit env.clock env.group signer request with ⟨result, after⟩
  rw [creates] at ends
  have created : createCommit b wrap signer request env =
      onGroup b (fun _ => (result.mapError wrap, after)) { env with clock := env.clock + 1 } := by
    simp only [createCommit, tick, modifyGet, MonadStateOf.modifyGet, EStateM.modifyGet, bind,
      EStateM.bind, onGroup, creates]
  cases result with
  | error e =>
    simp only [mutateGroup, bind, EStateM.bind, created, onGroup, Except.mapError]
    exact working.changed _ after ticked ends
  | ok output =>
    cases bundles : commitBundle b output with
    | error e =>
      have failed := laws.bundled _ _ _ _ _ _ _ creates bundles
      simp only [mutateGroup, bind, EStateM.bind, created, onGroup, Except.mapError, bundles,
        liftExcept, throw, throwThe, MonadExceptOf.throw, EStateM.throw]
      exact working.changed _ after ticked failed
    | ok bundle =>
      have persisted := persist_eq serialises
        { env with clock := env.clock + 1, group := after }
      simp only [mutateGroup, bind, EStateM.bind, created, onGroup, Except.mapError, bundles,
        liftExcept, pure, EStateM.pure, persisted]
      exact working.written { env with clock := env.clock + 1 } after ticked ends

theorem working_clearPendingCommit : Keeps inv (clearPendingCommit b) := by
  apply working_mutateGroup working serialises
  intro group
  split
  next => exact laws.same group
  next => exact laws.cleared group

theorem working_ensureNoPendingCommit : Keeps inv (ensureNoPendingCommit b) := by
  apply keeps_bind (keeps_attempt (working_clearPendingCommit working serialises laws))
  intro result
  rcases result with e | _
  · cases e <;> exact fun _ holds => holds
  · exact keeps_pure _

theorem working_rules : CommitRules inv inv inv (fun _ => inv) (fun _ => inv) where
  ticked := working_tick working
  started := fun _ holds => ⟨holds, fun _ => holds⟩
  ensured := working_ensureNoPendingCommit working serialises laws
  readied := fun _ holds => ⟨holds, fun _ => holds⟩
  bundled := fun wrap signer request _ =>
    working_createBundle working serialises laws wrap signer request
  created := fun wrap signer request _ =>
    keeps_bind (working_createCommit working serialises laws wrap signer request) fun _ =>
      keeps_liftExcept _ _

theorem working_create (call : CommittingCall) : Keeps inv (call.create b) :=
  triple_weaken ((working_rules working serialises laws).create call) (fun _ holds => holds)
    (fun created _ holds => by cases created <;> exact holds) (fun _ _ holds => holds)

theorem working_encryptMessage (message : Bytes) : Keeps inv (encryptMessage b message) :=
  working_signed working serialises _ fun call signer group =>
    (laws.encrypted call group signer message).mapError _

/-! ### Sending and merging -/

theorem working_sendNewHistoryClientCommit (commit : CommitBundle) (historySecret : HistorySecret) :
    Keeps inv (sendNewHistoryClientCommit b commit historySecret) := by
  apply keeps_bind working.merged
  intro _
  apply keeps_bind (working_tick working)
  intro call
  apply keeps_bind (keeps_liftExcept _ _)
  intro transportable
  apply keeps_bind (working_encryptMessage working serialises laws transportable)
  intro encrypted
  refine keeps_bind (fun env holds => working.recorded env _ _ _ holds) fun _ => ?_
  exact working_sendCommit working _

theorem working_commitInlineProposals (proposals : List Proposal) :
    Keeps inv (commitInlineProposals b proposals) := by
  unfold commitInlineProposals
  split
  next => exact keeps_pure none
  next =>
    apply keeps_bind (keeps_currentCredential _)
    intro signer
    apply keeps_bind (working_createCommit working serialises laws _ _ _)
    intro output
    exact keeps_bind (keeps_liftExcept _ _) fun _ => keeps_pure _

theorem working_replacementCommit (pendingCommit : StagedCommit b.K) (existing : List Nat) :
    Keeps inv (replacementCommit b pendingCommit existing) := by
  have replacing : Replacing inv (pendingCommit.queuedProposals.map (·.proposal)) []
      (fun _ => inv) (fun _ _ => inv) (fun _ => inv) :=
    { cleared := working_clearPendingCommit working serialises laws
      ticked := fun _ => working_tick working
      failing := fun _ _ holds _ => holds
      removes := fun _ member => working_signed working serialises _ fun call signer group =>
        (laws.proposedRemove call group signer member).mapError _
      adds := fun _ keyPackage => working_signed working serialises _ fun call signer group =>
        (laws.proposedAdd call group signer keyPackage).mapError _
      commits := fun _ => triple_weaken
        (keeps_get_bind fun _ => working_commitInlineProposals working serialises laws _)
        (fun _ holds => holds)
        (fun commit _ holds => by
          cases commit with
          | none => exact fun _ => holds
          | some bundle => exact holds)
        (fun _ _ holds => holds) }
  exact triple_weaken (replacing.replacementCommit existing) (fun _ holds => holds)
    (fun _ _ replaced => replaced.2) (fun _ _ holds => holds)

theorem working_updateHistoryClient : Keeps inv (updateHistoryClient b) := by
  apply keeps_get_bind
  intro env
  dsimp only
  split
  next => exact keeps_pure _
  next =>
    cases env.group.pendingCommit with
    | none => exact keeps_throw _
    | some pendingCommit =>
      dsimp only
      split
      next =>
        apply keeps_bind (working_replacementCommit working serialises laws pendingCommit _)
        intro replacement
        apply keeps_bind (working_sendNewHistoryClientCommit working serialises laws _ _)
        intro _
        exact keeps_pure _
      next => exact keeps_pure _

theorem working_sendAndMergeCommit (commit : CommitBundle) :
    Keeps inv (sendAndMergeCommit b commit) := by
  apply keeps_bind (working_updateHistoryClient working serialises laws)
  intro outcome
  cases outcome with
  | commitSentAndMerged => exact keeps_pure _
  | noUpdateNeeded =>
    apply keeps_bind (keeps_attempt (working_sendCommit working commit))
    intro sent
    rcases sent with e | _
    · exact keeps_bind (working_clearPendingCommit working serialises laws) fun _ => keeps_throw e
    · exact working.merged

/-- **Invariant rule for committing operations.** -/
theorem working_perform (call : CommittingCall) : Keeps inv (call.perform b) := by
  intro env holds
  rw [perform_eq]
  refine keeps_bind (working_create working serialises laws call) (fun created => ?_) env holds
  rcases created with _ | ⟨commit, _ | historySecret⟩
  · exact keeps_pure _
  · exact working_sendAndMergeCommit working serialises laws commit
  · exact working_sendNewHistoryClientCommit working serialises laws commit historySecret

end Rules

end CoreCrypto.Conversation
