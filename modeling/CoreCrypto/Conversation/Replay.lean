import CoreCrypto.Conversation.SampleBackend
import CoreCrypto.Conversation.Seat
import CoreCrypto.Keystore.Listing

/-!
# Replaying the buffered messages

A commit is merged before the buffered messages of the new epoch are replayed, and the first
of them that cannot be processed fails the whole call.  So `decrypt_message` answers a valid
commit, and `merge` joins a group, exactly when every buffered message can be processed.  The
buffer is empty afterwards if no message in it was stored by an earlier transaction.
-/

namespace CoreCrypto.Conversation

open Keystore Library

variable {b : Backend} {bytes : Bytes} {results : List (BufferedDecryptedMessage b)}
  {decoded : List (ContentType × MlsMessageIn)} {message : MlsMessageIn}

/-! ### Which buffered messages can be processed -/

/-- Every one of the listed messages can be processed when its turn comes. -/
def Replayable (b : Backend) (cipherSuite : Nat) (seat : Seat b) (listed : List Bytes) : Prop :=
  ∃ decoded, listed.mapM (decodePending b) = .ok decoded ∧
    ∃ results seat', Seat.absorbAll b cipherSuite (replayOrder decoded) seat = .ok results seat'

/-- The results of exactly those messages that can be processed when their turn comes. -/
inductive Salvaged (b : Backend) (cipherSuite : Nat) :
    Seat b → List MlsMessageIn → List (BufferedDecryptedMessage b) → Prop
  | nil (seat : Seat b) : Salvaged b cipherSuite seat [] []
  | processed {seat seat' : Seat b} {message : MlsMessageIn} {decrypted : DecryptedMessage b}
      {rest : List MlsMessageIn} {results : List (BufferedDecryptedMessage b)}
      (taken : Seat.absorb b cipherSuite message seat = .ok decrypted seat')
      (others : Salvaged b cipherSuite seat' rest results) :
      Salvaged b cipherSuite seat (message :: rest) (decrypted.buffered :: results)
  | skipped {seat : Seat b} {message : MlsMessageIn} {rest : List MlsMessageIn}
      {results : List (BufferedDecryptedMessage b)}
      (refused : ∀ decrypted seat', Seat.absorb b cipherSuite message seat ≠ .ok decrypted seat')
      (others : Salvaged b cipherSuite seat rest results) :
      Salvaged b cipherSuite seat (message :: rest) results

/-- The listed messages that can be decoded. -/
def decodable (b : Backend) (listed : List Bytes) : List (ContentType × MlsMessageIn) :=
  listed.filterMap fun message => (decodePending b message).toOption

theorem absorbAll_cons (cipherSuite : Nat) (message : MlsMessageIn) (rest : List MlsMessageIn)
    (seat seat' : Seat b) (results : List (BufferedDecryptedMessage b))
    (taken : Seat.absorbAll b cipherSuite (message :: rest) seat = .ok results seat') :
    ∃ decrypted middle others, Seat.absorb b cipherSuite message seat = .ok decrypted middle ∧
      Seat.absorbAll b cipherSuite rest middle = .ok others seat' ∧
      results = decrypted.buffered :: others := by
  obtain ⟨decrypted, middle, first, taken⟩ := bind_eq_ok.mp taken
  obtain ⟨others, last, second, answer⟩ := bind_eq_ok.mp taken
  cases answer
  exact ⟨decrypted, middle, others, first, second, rfl⟩

theorem salvaged_of_absorbAll (cipherSuite : Nat) (messages : List MlsMessageIn)
    (seat seat' : Seat b) (results : List (BufferedDecryptedMessage b))
    (taken : Seat.absorbAll b cipherSuite messages seat = .ok results seat') :
    Salvaged b cipherSuite seat messages results := by
  induction messages generalizing seat results with
  | nil =>
    cases taken
    exact .nil _
  | cons message rest ih =>
    obtain ⟨decrypted, middle, others, first, second, rfl⟩ :=
      absorbAll_cons cipherSuite message rest seat seat' results taken
    exact .processed first (ih middle others second)

theorem length_absorbAll (cipherSuite : Nat) (messages : List MlsMessageIn) (seat seat' : Seat b)
    (results : List (BufferedDecryptedMessage b))
    (taken : Seat.absorbAll b cipherSuite messages seat = .ok results seat') :
    results.length = messages.length := by
  induction messages generalizing seat results with
  | nil =>
    cases taken
    rfl
  | cons message rest ih =>
    obtain ⟨decrypted, middle, others, -, second, rfl⟩ :=
      absorbAll_cons cipherSuite message rest seat seat' results taken
    simp only [List.length_cons, ih middle others second]

theorem decodable_of_mapM (listed : List Bytes) (decoded : List (ContentType × MlsMessageIn))
    (decodes : listed.mapM (decodePending b) = .ok decoded) :
    decodable b listed = decoded ∧ decoded.length = listed.length := by
  induction listed generalizing decoded with
  | nil =>
    cases decodes
    exact ⟨rfl, rfl⟩
  | cons message rest ih =>
    rw [List.mapM_cons] at decodes
    cases first : decodePending b message with
    | error e => rw [first] at decodes; cases decodes
    | ok head =>
      cases others : rest.mapM (decodePending b) with
      | error e => rw [first, others] at decodes; cases decodes
      | ok tail =>
        rw [first, others] at decodes
        cases decodes
        obtain ⟨same, length⟩ := ih tail others
        refine ⟨?_, by simp only [List.length_cons, length]⟩
        simp only [decodable, List.filterMap_cons, first, Except.toOption]
        exact congrArg _ same

theorem length_replayOrder (messages : List (ContentType × MlsMessageIn)) :
    (replayOrder messages).length = messages.length := by
  rw [replayOrder, List.length_map, List.length_insertionSort]

/-! ### The replay of the code -/

/-- What `restore_pending_messages` returns for the results of the replay. -/
def restored (results : List (BufferedDecryptedMessage b)) :
    Option (List (BufferedDecryptedMessage b)) :=
  if results.isEmpty then none else some results

/-- The buffered messages of a handle, in the order in which the keystore lists them. -/
def Env.listed (env : Env b) : List Bytes :=
  pendingMessages b env.rows env.transaction env.id

/-- `restore_pending_messages` decodes everything before it replays anything. -/
theorem restorePendingMessages_eq (inner : MlsMessageIn → Op b (DecryptedMessage b)) (env : Env b) :
    restorePendingMessages inner .decryptAndClear env =
      match env.listed.mapM (decodePending b) with
      | .error e => .error e env
      | .ok decoded =>
        match replay inner (replayOrder decoded) env with
        | .error e env' => .error e env'
        | .ok results env' => .ok (restored results) env' := by
  simp only [restorePendingMessages, reduceCtorEq, if_false, get, getThe, MonadStateOf.get, bind,
    EStateM.bind, EStateM.get, Env.listed]
  cases (pendingMessages b env.rows env.transaction env.id).mapM (decodePending b) with
  | error e => rfl
  | ok decoded =>
    simp only [liftExcept, pure, EStateM.pure]
    cases replay inner (replayOrder decoded) env with
    | error e env' => rfl
    | ok results env' => rfl

variable {env : Env b}

theorem restorePendingMessages_ok (serialises : Serialises b) {seat : Seat b}
    (decodes : env.listed.mapM (decodePending b) = .ok decoded)
    (taken : Seat.absorbAll b env.configuration.cipherSuite (replayOrder decoded) env.seat =
      .ok results seat) :
    ∃ env', SameHandle env env' ∧ env'.seat = seat ∧
      restorePendingMessages (decryptMessageInner b · .none) .decryptAndClear env =
        .ok (restored results) env' := by
  have follows := follows_replay serialises (replayOrder decoded) env (.refl env)
  rw [restorePendingMessages_eq, decodes]
  unfold FollowsAt at follows
  simp only
  cases replayed : replay (decryptMessageInner b · .none) (replayOrder decoded) env with
  | error e env' =>
    rw [replayed, taken] at follows
    cases follows.1
  | ok results' env' =>
    rw [replayed, taken] at follows
    injection follows.1 with sameResults sameSeat
    subst sameResults
    exact ⟨env', follows.2, sameSeat.symm, rfl⟩

theorem replayable_of_ok (serialises : Serialises b) {env' : Env b}
    {answer : Option (List (BufferedDecryptedMessage b))}
    (restores : restorePendingMessages (decryptMessageInner b · .none) .decryptAndClear env =
      .ok answer env') : Replayable b env.configuration.cipherSuite env.seat env.listed := by
  rw [restorePendingMessages_eq] at restores
  cases decodes : env.listed.mapM (decodePending b) with
  | error e =>
    rw [decodes] at restores
    cases restores
  | ok decoded =>
    have follows := follows_replay serialises (replayOrder decoded) env (.refl env)
    unfold FollowsAt at follows
    simp only [decodes] at restores
    cases replayed : replay (decryptMessageInner b · .none) (replayOrder decoded) env with
    | error e last =>
      rw [replayed] at restores
      cases restores
    | ok results last =>
      rw [replayed] at follows
      exact ⟨decoded, decodes, results, last.seat, follows.1⟩

/-! ### A valid commit -/

/-- The replay that follows a merged commit. -/
def restoring (b : Backend) : Op b (Option (List (BufferedDecryptedMessage b))) :=
  restoreAndClearPendingMessages (decryptMessageInner b · .none)

/-- The message is a commit that OpenMLS stages in the group of the handle and then merges. -/
structure ValidCommit (b : Backend) (env : Env b) (message : MlsMessageIn) where
  parsed : ParsedMessage
  processed : ProcessedMessage b.K
  staging : b.Group
  commit : StagedCommit b.K
  identity : b.Identity
  merged : b.Group
  parses : parseMessage b env.group message = .ok parsed
  processes : processOnGroup b parsed env.group = (.ok processed, staging)
  stages : processed.content = .stagedCommitMessage commit
  identifies : b.extractIdentity processed.credential env.configuration.cipherSuite = .ok identity
  merges : b.mergeStagedCommit staging.setPersisted commit = (.ok (), merged)

namespace ValidCommit

variable {env : Env b} {message : MlsMessageIn}

/-- The handle once the commit is merged, before anything is replayed. -/
def mergedEnv (valid : ValidCommit b env message) : Env b :=
  (env.written valid.staging).written valid.merged

/-- What remains to be done then, given how the buffered messages are restored. -/
def afterMerge (valid : ValidCommit b env message)
    (restore : Op b (Option (List (BufferedDecryptedMessage b)))) : Op b (DecryptedMessage b) := do
  let bufferedMessages ← restore
  queueEpochChanged b (← get).id valid.commit.epoch
  return (commitAnswer b valid.identity valid.merged.setPersisted).withBuffered bufferedMessages

theorem receive_eq (valid : ValidCommit b env message) (serialises : Serialises b)
    (retry : Bytes → Op b (DecryptedMessage b))
    (restore : Op b (Option (List (BufferedDecryptedMessage b)))) :
    receive retry restore .asNecessary message env =
      valid.afterMerge restore valid.mergedEnv := by
  have processes : processMessage b valid.parsed env =
      .ok valid.processed (env.written valid.staging) :=
    mutateGroup_ok serialises _ env valid.processed valid.staging valid.processes
  have merges : mergeStagedCommit b valid.commit (env.written valid.staging) =
      .ok () valid.mergedEnv := by
    refine mutateGroup_ok serialises _ _ () valid.merged ?_
    simp only [mergeStagedOnGroup, Env.written, valid.merges, Except.mapError]
  have identifies : b.extractIdentity valid.processed.credential
      (env.written valid.staging).configuration.cipherSuite = .ok valid.identity :=
    valid.identifies
  simp only [receive, get, getThe, MonadStateOf.get, bind, EStateM.bind, EStateM.get,
    valid.parses, liftExcept, pure, EStateM.pure, attempt, processes, receiveContent, identifies,
    valid.stages, receiveCommit, merges, if_true]
  rfl

theorem decryptMessage_eq (valid : ValidCommit b env message) (serialises : Serialises b)
    {bytes : Bytes} (decodes : b.tlsDeserialize bytes = some message) :
    decryptMessage b bytes env =
      (attempt (valid.afterMerge (restoring b)) >>= settle b bytes) valid.mergedEnv := by
  have inner : decryptMessageInner b message .asNecessary env =
      valid.afterMerge (restoring b) valid.mergedEnv := valid.receive_eq serialises _ _
  simp only [decryptMessage, decodes, bind, EStateM.bind, attempt, inner]

end ValidCommit

/-! ### Wiping -/

/-- A pending proposal can be removed, and takes only itself away. -/
def RemovesProposals (b : Backend) : Prop :=
  ∀ (group : b.Group) (proposal : QueuedProposal) (rest : List QueuedProposal),
    group.pendingProposals = proposal :: rest →
    ∃ after, b.removePendingProposal group proposal.reference = (.ok (), after) ∧
      after.pendingProposals = rest

theorem removePendingProposals_ok (removes : RemovesProposals b) (group : b.Group) :
    ∃ after, removePendingProposals b (group.pendingProposals.map (·.reference)) group =
      (.ok (), after) := by
  generalize proposals : group.pendingProposals = pending
  induction pending generalizing group with
  | nil => exact ⟨group, rfl⟩
  | cons proposal rest ih =>
    obtain ⟨after, removed, remaining⟩ := removes group proposal rest proposals
    obtain ⟨last, removedRest⟩ := ih after remaining
    exact ⟨last, by simp only [List.map_cons, removePendingProposals, removed, removedRest]⟩

/-- The handle after its conversation was deleted. -/
def Env.wiped (env : Env b) : Env b :=
  { env with
    transaction := env.transaction.removeByEntityId (groupEntityId env.id)
    conversationCache := env.conversationCache.remove env.id }

theorem wipe_removed (serialises : Serialises b) {env : Env b} {group : b.Group}
    (removed : removePendingProposals b
      ((b.deletePreviousEpochKeypairs env.group).pendingProposals.map (·.reference))
      (b.deletePreviousEpochKeypairs env.group) = (.ok (), group)) :
    wipe b env = .ok () (env.written group).wiped := by
  have mutated := mutateGroup_ok serialises (fun group =>
    removePendingProposals b ((b.deletePreviousEpochKeypairs group).pendingProposals.map
      (·.reference)) (b.deletePreviousEpochKeypairs group)) env () group removed
  simp only [wipe, bind, EStateM.bind, mutated]
  rfl

theorem wipe_ok (serialises : Serialises b) (removes : RemovesProposals b) (env : Env b) :
    ∃ group, wipe b env = .ok () (env.written group).wiped := by
  obtain ⟨group, removed⟩ :=
    removePendingProposals_ok removes (b.deletePreviousEpochKeypairs env.group)
  exact ⟨group, wipe_removed serialises removed⟩

/-! ### The outcome of a valid commit -/

/-- None of the listed messages is stored once the transaction is committed. -/
def NoneStored (b : Backend) (rows : List (Entity b.State))
    (transaction : KeystoreTransaction b.State) (id : ConversationId) (listed : List Bytes) :
    Prop :=
  ∀ written, transaction.execute b.rt rows = .ok written →
    ∀ message ∈ listed, Entity.mlsPendingMessage id message ∉ written

theorem pendingMessages_eq_nil_iff {rows : List (Entity b.State)}
    {tx : KeystoreTransaction b.State} (keyed : tx.WellKeyed b.rt) (id : ConversationId) :
    pendingMessages b rows tx id = [] ↔
      tx.findPendingMessagesByConversationId b.rt id (storedFor rows id) = [] := by
  rw [pendingMessages, List.filterMap_eq_nil_iff]
  refine ⟨fun none => List.eq_nil_iff_forall_not_mem.mpr fun e found => ?_, fun empty e found => ?_⟩
  · have foreign := KeystoreTransaction.foreignId_of_listed keyed found
    have unreadable := none e found
    cases e <;> simp_all [Entity.foreignId?, pendingMessage?]
  · exact absurd (empty ▸ found) List.not_mem_nil

/-- What is done about the pending messages once they were replayed. -/
def drained (tx : KeystoreTransaction b.State) (id : ConversationId)
    (answer : Option (List (BufferedDecryptedMessage b))) : KeystoreTransaction b.State :=
  if answer.isSome then tx.removePendingMessagesByConversationId id else tx

/-- The buffer after a replay that started at `origin`: what was listed does not outlive the commit,
and until then it is empty if it could be cleared. -/
structure Emptied (b : Backend) (rows : List (Entity b.State)) (id : ConversationId)
    (origin tx : KeystoreTransaction b.State) : Prop where
  keyed : tx.WellKeyed b.rt
  deleted : pendingMessages b rows origin id ≠ [] →
    (⟨.mlsPendingMessage, id⟩ : EntityId) ∈ tx.deleted
  listing : pendingMessages b rows tx id = [] ↔ origin.Clearable b.rt rows id

namespace Emptied

variable {rows : List (Entity b.State)} {id : ConversationId}
  {origin tx tx' : KeystoreTransaction b.State}

theorem noneStored (emptied : Emptied b rows id origin tx) :
    NoneStored b rows tx id (pendingMessages b rows origin id) := by
  intro written ok message listed stored
  have kept := (KeystoreTransaction.mem_execute b.rt tx rows written ok
    (.mlsPendingMessage id message) id rfl).mp stored
  exact kept.2 (emptied.deleted (List.ne_nil_of_mem listed))

theorem later (emptied : Emptied b rows id origin tx)
    (writes : Writes b.rt (·.typ ≠ .mlsPendingMessage) tx tx') : Emptied b rows id origin tx' where
  keyed := writes.wellKeyed emptied.keyed
  deleted := fun found => (writes.mem_deleted _ (by simp)).mpr (emptied.deleted found)
  listing := by
    have same : (tx'.findPendingMessagesByConversationId b.rt id
          (storedFor rows id)).Perm
        (tx.findPendingMessagesByConversationId b.rt id
          (storedFor rows id)) :=
      writes.findPendingMessages_perm emptied.keyed (fun _ other => other)
        fun e stored => ((mem_storedFor _ _ _).mp stored).2
    rw [← emptied.listing, pendingMessages_eq_nil_iff emptied.keyed,
      pendingMessages_eq_nil_iff (writes.wellKeyed emptied.keyed), ← List.perm_nil, ← List.perm_nil,
      same.congr_left]

theorem of_removed (keyed : origin.WellKeyed b.rt)
    (writes : Writes b.rt (·.typ ≠ .mlsPendingMessage) origin tx) :
    Emptied b rows id origin (tx.removePendingMessagesByConversationId id) where
  keyed := KeystoreTransaction.wellKeyed_removePendingMessages b.rt _ _ (writes.wellKeyed keyed)
  deleted := fun _ => by simp [KeystoreTransaction.removePendingMessagesByConversationId]
  listing := by
    rw [pendingMessages_eq_nil_iff (KeystoreTransaction.wellKeyed_removePendingMessages b.rt _ _
        (writes.wellKeyed keyed)),
      KeystoreTransaction.listed_removed_eq_nil_iff (writes.wellKeyed keyed),
      KeystoreTransaction.Clearable.congr writes fun _ other => other]

/-- The messages are removed if there were any to replay. -/
theorem of_drained (keyed : origin.WellKeyed b.rt)
    (writes : Writes b.rt (·.typ ≠ .mlsPendingMessage) origin tx)
    {answer : Option (List (BufferedDecryptedMessage b))}
    (found : answer.isSome ↔ pendingMessages b rows origin id ≠ []) :
    Emptied b rows id origin (drained tx id answer) := by
  cases answer with
  | some results => exact .of_removed keyed writes
  | none =>
    have empty : pendingMessages b rows origin id = [] := by simpa using found
    have unlisted := (pendingMessages_eq_nil_iff keyed id).mp empty
    exact Emptied.later ⟨keyed, fun some => absurd empty some, fun _ =>
      KeystoreTransaction.clearable_of_listed_nil keyed unlisted, fun _ => empty⟩ writes

end Emptied

theorem Env.wiped_writes (env : Env b) :
    Writes b.rt (· = groupEntityId env.id) env.transaction env.wiped.transaction :=
  .remove _ rfl .refl

theorem restored_getD (results : List (BufferedDecryptedMessage b)) :
    (restored results).getD [] = results := by
  unfold restored
  cases results <;> rfl

/-- There are as many results as listed messages. -/
theorem restored_isSome_iff {seat : Seat b} (decodes : env.listed.mapM (decodePending b) = .ok decoded)
    (taken : Seat.absorbAll b env.configuration.cipherSuite (replayOrder decoded) env.seat =
      .ok results seat) : (restored results).isSome ↔ env.listed ≠ [] := by
  have lengths := length_absorbAll _ _ _ _ _ taken
  rw [length_replayOrder, (decodable_of_mapM _ _ decodes).2] at lengths
  rw [← List.length_pos_iff, ← lengths, List.length_pos_iff, restored]
  cases results <;> simp

theorem restoring_ok (serialises : Serialises b) {seat : Seat b}
    (decodes : env.listed.mapM (decodePending b) = .ok decoded)
    (taken : Seat.absorbAll b env.configuration.cipherSuite (replayOrder decoded) env.seat =
      .ok results seat) :
    ∃ env', SameHandle env env' ∧ restoring b env = .ok (restored results)
      { env' with transaction := drained env'.transaction env'.id (restored results) } := by
  obtain ⟨env', same, -, restores⟩ := restorePendingMessages_ok serialises decodes taken
  refine ⟨env', same, ?_⟩
  simp only [restoring, restoreAndClearPendingMessages, bind, EStateM.bind, restores]
  cases results <;> rfl

theorem settle_error (bytes : Bytes) (e : Error) (env : Env b) (decrypted : DecryptedMessage b)
    (env' : Env b) : settle b bytes (.error e) env ≠ .ok decrypted env' := by
  intro succeeded
  cases e <;> cases succeeded

theorem settle_ok (serialises : Serialises b) (removes : RemovesProposals b) (bytes : Bytes)
    (decrypted : DecryptedMessage b) (env : Env b) :
    ∃ env', settle b bytes (.ok decrypted) env = .ok decrypted env' ∧ SameHandle env env' ∧
      env'.pendingEpochChanges = env.pendingEpochChanges := by
  obtain ⟨group, wiped⟩ := wipe_ok serialises removes env
  cases active : decrypted.isActive with
  | true =>
    refine ⟨env, ?_, .refl env, rfl⟩
    simp only [settle, active]
    rfl
  | false =>
    have written := (SameHandle.refl env).written group
    refine ⟨(env.written group).wiped, ?_, ⟨rfl, rfl, rfl, written.writes.trans
      ((env.written group).wiped_writes.mono fun id isGroup => by simp [isGroup, groupEntityId])⟩, rfl⟩
    simp only [settle, active, bind, EStateM.bind, Bool.not_false, if_true, wiped]
    rfl

/-- The buffer of the handle can be cleared before the transaction is committed. -/
def Env.Clearable (env : Env b) : Prop := env.transaction.Clearable b.rt env.rows env.id

/-- What is expected of a valid commit: the call succeeds, returns the results of the buffered
messages that can be processed, empties the buffer and queues the epoch notification. -/
def Advances {env : Env b} {message : MlsMessageIn} (valid : ValidCommit b env message)
    (bytes : Bytes) : Prop :=
  ∃ decrypted env', decryptMessage b bytes env = .ok decrypted env' ∧
    Salvaged b env.configuration.cipherSuite valid.mergedEnv.seat
      (replayOrder (decodable b valid.mergedEnv.listed)) (decrypted.bufferedMessages.getD []) ∧
    env'.listed = [] ∧
    NoneStored b env'.rows env'.transaction env.id valid.mergedEnv.listed ∧
    (env.id, valid.commit.epoch) ∈ env'.pendingEpochChanges

/-- If the messages can be replayed, all of this holds but that the buffer is empty at once. -/
theorem answers_of_replayable (serialises : Serialises b) (removes : RemovesProposals b)
    {valid : ValidCommit b env message} (keyed : env.transaction.WellKeyed b.rt)
    (decodes : b.tlsDeserialize bytes = some message)
    (replayable : Replayable b env.configuration.cipherSuite valid.mergedEnv.seat
      valid.mergedEnv.listed) :
    ∃ decrypted env', decryptMessage b bytes env = .ok decrypted env' ∧
      Salvaged b env.configuration.cipherSuite valid.mergedEnv.seat
        (replayOrder (decodable b valid.mergedEnv.listed)) (decrypted.bufferedMessages.getD []) ∧
      (env'.listed = [] ↔ env.Clearable) ∧
      NoneStored b env'.rows env'.transaction env.id valid.mergedEnv.listed ∧
      (env.id, valid.commit.epoch) ∈ env'.pendingEpochChanges := by
  obtain ⟨decoded, listing, results, seat, taken⟩ := replayable
  obtain ⟨replayed, same, restores⟩ := restoring_ok serialises listing taken
  -- the replay is followed by queueing the notification and, for a removed client, by the wipe
  obtain ⟨env', settles, settled, queued⟩ := settle_ok serialises removes bytes
    ((commitAnswer b valid.identity valid.merged.setPersisted).withBuffered (restored results))
    { replayed with
      transaction := drained replayed.transaction replayed.id (restored results)
      pendingEpochChanges := replayed.pendingEpochChanges ++ [(replayed.id, valid.commit.epoch)] }
  have answers : decryptMessage b bytes env = .ok ((commitAnswer b valid.identity
      valid.merged.setPersisted).withBuffered (restored results)) env' := by
    rw [valid.decryptMessage_eq serialises decodes, ← settles]
    simp only [bind, EStateM.bind, attempt, ValidCommit.afterMerge, restores]
    rfl
  have merged : SameHandle env valid.mergedEnv :=
    ((SameHandle.refl env).written valid.staging).written valid.merged
  have sameId : replayed.id = env.id := same.sameId
  have sameRows : env'.rows = env.rows := settled.rows.trans same.rows
  have emptied : Emptied b env.rows env.id valid.mergedEnv.transaction env'.transaction := by
    refine Emptied.later (.of_drained (merged.writes.wellKeyed keyed) same.writes
      (restored_isSome_iff listing taken)) ?_
    rw [← sameId]
    exact settled.writes
  refine ⟨_, env', answers, ?_, ?_, sameRows ▸ emptied.noneStored, ?_⟩
  · rw [(decodable_of_mapM _ _ listing).1]
    simp only [DecryptedMessage.withBuffered, restored_getD]
    exact salvaged_of_absorbAll _ _ _ _ _ taken
  · rw [Env.listed, sameRows, settled.sameId.trans sameId, emptied.listing]
    exact KeystoreTransaction.Clearable.congr merged.writes (fun _ other => other) env.rows env.id
  · rw [queued, sameId]
    simp

theorem replayable_of_advances (serialises : Serialises b) {valid : ValidCommit b env message}
    (decodes : b.tlsDeserialize bytes = some message) (advances : Advances valid bytes) :
    Replayable b env.configuration.cipherSuite valid.mergedEnv.seat valid.mergedEnv.listed := by
  obtain ⟨decrypted, env', answers, -⟩ := advances
  rw [valid.decryptMessage_eq serialises decodes] at answers
  obtain ⟨result, last, attempted, settles⟩ := bind_eq_ok.mp answers
  cases result with
  | error e => exact absurd settles (settle_error bytes e last decrypted env')
  | ok inner =>
    obtain ⟨bufferedMessages, restoredEnv, restores, -⟩ :=
      bind_eq_ok.mp (eq_ok_of_attempt attempted)
    obtain ⟨answer, replayed, restores, -⟩ := bind_eq_ok.mp restores
    exact replayable_of_ok serialises restores

theorem advances_iff (serialises : Serialises b) (removes : RemovesProposals b)
    (valid : ValidCommit b env message) (keyed : env.transaction.WellKeyed b.rt)
    (decodes : b.tlsDeserialize bytes = some message) :
    Advances valid bytes ↔ Replayable b env.configuration.cipherSuite valid.mergedEnv.seat
      valid.mergedEnv.listed ∧ env.Clearable := by
  constructor
  · intro advances
    have replayable := replayable_of_advances serialises decodes advances
    obtain ⟨_, _, answers, -, cleared, -⟩ :=
      answers_of_replayable serialises removes keyed decodes replayable
    obtain ⟨_, _, answers', -, empty, -⟩ := advances
    cases answers.symm.trans answers'
    exact ⟨replayable, cleared.mp empty⟩
  · rintro ⟨replayable, clearable⟩
    obtain ⟨decrypted, env', answers, salvaged, cleared, rest⟩ :=
      answers_of_replayable serialises removes keyed decodes replayable
    exact ⟨decrypted, env', answers, salvaged, cleared.mpr clearable, rest⟩

/-! ### Joining -/

/-- The pending group can be brought to life under its id. -/
structure Joinable (b : Backend) (pending : PendingConversation b) where
  group : b.Group
  state : b.State
  custom : CustomConfiguration
  merges : PendingConversation.mergedGroup b "deserializing mls group" pending.state = .ok group
  serialised : b.ser group = .ok state
  configured : b.decodeCustom pending.customConfiguration = .ok custom
  sameId : group.groupId = pending.id

namespace Joinable

variable {pending : PendingConversation b} {scope : Scope b}

def configuration (joinable : Joinable b pending) : ConversationConfiguration :=
  ⟨joinable.group.ciphersuite, [], joinable.custom⟩

/-- The scope once the group is persisted and cached, before anything is replayed. -/
def joined (joinable : Joinable b pending) (scope : Scope b) : Scope b :=
  { scope with
    transaction := scope.transaction.save b.rt
      (.persistedMlsGroup joinable.group.groupId joinable.state none)
    heap := scope.heap ++
      [⟨joinable.group.groupId, joinable.group.setPersisted, joinable.configuration⟩]
    conversationCache :=
      scope.conversationCache.insert joinable.group.groupId scope.heap.length }

/-- The handle to the joined conversation. -/
def handle (joinable : Joinable b pending) (scope : Scope b) : Env b :=
  { id := joinable.group.groupId
    configuration := joinable.configuration
    group := joinable.group.setPersisted
    rows := scope.rows
    transaction := (joinable.joined scope).transaction
    conversationCache := (joinable.joined scope).conversationCache
    pendingEpochChanges := scope.pendingEpochChanges
    accepted := scope.accepted
    historyClients := scope.historyClients
    clock := scope.clock }

theorem focus_joined (joinable : Joinable b pending) (scope : Scope b) :
    (joinable.joined scope).focus scope.heap.length = some (joinable.handle scope) := by
  simp [Scope.focus, joined, handle]

/-- The group was joined before. -/
def Rejoins (scope : Scope b) (pending : PendingConversation b) : Prop :=
  (scope.row (groupEntityId pending.id)).isSome

instance (scope : Scope b) (pending : PendingConversation b) :
    Decidable (Rejoins scope pending) :=
  inferInstanceAs (Decidable (_ = true))

def policy (scope : Scope b) (pending : PendingConversation b) : MessageRestorePolicy :=
  if (scope.row (groupEntityId pending.id)).isSome then .clearOnly else .decryptAndClear

/-- What `merge` does after the replay. -/
def finished (pending : PendingConversation b)
    (answer : Option (List (BufferedDecryptedMessage b))) (scope : Scope b) : Scope b :=
  let transaction :=
    if answer.isSome then
      scope.transaction.removePendingMessagesByConversationId pending.id
    else scope.transaction
  { scope with transaction := transaction.removeByEntityId (pendingGroupEntityId pending.id) }

theorem merge_eq (joinable : Joinable b pending) (scope : Scope b) :
    pending.merge scope =
      match restorePendingMessages (decryptMessageInner b · .none) (policy scope pending)
        (joinable.handle scope) with
      | .ok answer env => .ok answer
          (finished pending answer ((joinable.joined scope).unfocus scope.heap.length env))
      | .error e env => .error (.conversation "restoring pending messages" e)
          ((joinable.joined scope).unfocus scope.heap.length env) := by
  have persisted : persistConversationFromMlsGroup b joinable.group joinable.configuration scope =
      .ok scope.heap.length (joinable.joined scope) := by
    simp only [persistConversationFromMlsGroup, joinable.serialised, liftScope, bind, EStateM.bind,
      pure, EStateM.pure]
    rfl
  have focused := joinable.focus_joined scope
  -- the policy is read before the group is persisted
  change (liftScope b (fun e => e)
    (PendingConversation.mergedGroup b "deserializing mls group" pending.state) >>= _) scope = _
  rw [joinable.merges]
  change (liftScope b (.openMls "deserializing mls custom configuration")
    (b.decodeCustom pending.customConfiguration) >>= _) scope = _
  rw [joinable.configured]
  change (persistConversationFromMlsGroup b joinable.group joinable.configuration >>= fun address =>
    PendingConversation.restore address (policy scope pending) >>= _) scope = _
  simp only [bind, EStateM.bind, persisted, PendingConversation.restore, withHandle, focused]
  cases restorePendingMessages (decryptMessageInner b · .none) (policy scope pending)
    (joinable.handle scope) with
  | error e env => rfl
  | ok answer env =>
    cases answer with
    | none => rfl
    | some results => rfl

/-- What is expected of merging the own join commit: it succeeds and removes the pending group
and the buffered messages. -/
def Joins (joinable : Joinable b pending) (scope : Scope b) : Prop :=
  ∃ answer scope', pending.merge scope = .ok answer scope' ∧
    scope'.row (pendingGroupEntityId pending.id) = none ∧
    pendingMessages b scope'.rows scope'.transaction pending.id = [] ∧
    NoneStored b scope'.rows scope'.transaction pending.id (joinable.handle scope).listed

theorem row_finished (answer : Option (List (BufferedDecryptedMessage b))) (scope : Scope b) :
    (finished pending answer scope).row (pendingGroupEntityId pending.id) = none := by
  simp [finished, Scope.row]

/-- If the messages are restored, all of this holds but that the buffer is empty at once. -/
theorem merges_of_restores (joinable : Joinable b pending)
    {answer : Option (List (BufferedDecryptedMessage b))} {env : Env b}
    (restores : restorePendingMessages (decryptMessageInner b · .none) (policy scope pending)
      (joinable.handle scope) = .ok answer env) (sameRows : env.rows = scope.rows)
    (emptied : Emptied b scope.rows pending.id (joinable.handle scope).transaction
      (drained env.transaction pending.id answer)) :
    ∃ answer scope', pending.merge scope = .ok answer scope' ∧
      scope'.row (pendingGroupEntityId pending.id) = none ∧
      (pendingMessages b scope'.rows scope'.transaction pending.id = [] ↔
        scope.transaction.Clearable b.rt scope.rows pending.id) ∧
      NoneStored b scope'.rows scope'.transaction pending.id (joinable.handle scope).listed := by
  refine ⟨answer, _, by rw [merge_eq joinable, restores], row_finished answer _, ?_⟩
  have sameId : (joinable.handle scope).id = pending.id := joinable.sameId
  have last := emptied.later (.remove (pendingGroupEntityId pending.id)
    (by simp [pendingGroupEntityId]) .refl)
  have saved : Writes b.rt (·.typ ≠ .mlsPendingMessage) scope.transaction
      (joinable.handle scope).transaction := .save _ (by simp [Runtime.fromEntity, Entity.typ]) .refl
  rw [Env.listed, sameId]
  change (pendingMessages b env.rows _ pending.id = [] ↔ _) ∧ NoneStored b env.rows _ _ _
  rw [sameRows, ← KeystoreTransaction.Clearable.congr saved fun _ other => other]
  exact ⟨last.listing, last.noneStored⟩

/-- What lets the pending group be joined, but for the messages that are stored. -/
def Admits (joinable : Joinable b pending) (scope : Scope b) : Prop :=
  Rejoins scope pending ∨ Replayable b joinable.group.ciphersuite (joinable.handle scope).seat
    (joinable.handle scope).listed

theorem restores_of_admits (serialises : Serialises b) (joinable : Joinable b pending)
    (keyed : scope.transaction.WellKeyed b.rt) (admits : joinable.Admits scope) :
    ∃ answer env, restorePendingMessages (decryptMessageInner b · .none) (policy scope pending)
        (joinable.handle scope) = .ok answer env ∧ env.rows = scope.rows ∧
      Emptied b scope.rows pending.id (joinable.handle scope).transaction
        (drained env.transaction pending.id answer) := by
  have keyedHandle : (joinable.handle scope).transaction.WellKeyed b.rt :=
    KeystoreTransaction.wellKeyed_save b.rt _ _ keyed
  have sameId : (joinable.handle scope).id = pending.id := joinable.sameId
  by_cases rejoins : Rejoins scope pending
  · have clearOnly : policy scope pending = .clearOnly := if_pos rejoins
    refine ⟨none, { joinable.handle scope with
      transaction := (joinable.handle scope).transaction.removePendingMessagesByConversationId
        (joinable.handle scope).id }, by rw [clearOnly]; rfl, rfl, ?_⟩
    rw [sameId]
    exact .of_removed keyedHandle .refl
  · obtain ⟨decoded, decodes, results, seat, taken⟩ := admits.resolve_left rejoins
    obtain ⟨env, same, -, restores⟩ := restorePendingMessages_ok serialises decodes taken
    have decryptAndClear : policy scope pending = .decryptAndClear := if_neg rejoins
    have found := restored_isSome_iff decodes taken
    rw [Env.listed, sameId] at found
    exact ⟨_, env, by rw [decryptAndClear, restores], same.rows,
      .of_drained keyedHandle same.writes found⟩

theorem admits_of_merges (serialises : Serialises b) (joinable : Joinable b pending)
    {answer : Option (List (BufferedDecryptedMessage b))} {scope scope' : Scope b}
    (merges : pending.merge scope = .ok answer scope') : joinable.Admits scope := by
  by_cases rejoins : Rejoins scope pending
  · exact .inl rejoins
  right
  have decryptAndClear : policy scope pending = .decryptAndClear := if_neg rejoins
  rw [merge_eq joinable, decryptAndClear] at merges
  cases restores : restorePendingMessages (decryptMessageInner b · .none) .decryptAndClear
      (joinable.handle scope) with
  | error e env =>
    rw [restores] at merges
    cases merges
  | ok answer env => exact replayable_of_ok serialises restores

theorem joins_iff (serialises : Serialises b) (joinable : Joinable b pending)
    (keyed : scope.transaction.WellKeyed b.rt) :
    joinable.Joins scope ↔ joinable.Admits scope ∧
      scope.transaction.Clearable b.rt scope.rows pending.id := by
  constructor
  · rintro ⟨answer, scope', merges, -, empty, -⟩
    have admits := joinable.admits_of_merges serialises merges
    obtain ⟨_, _, restores, sameRows, emptied⟩ :=
      joinable.restores_of_admits serialises keyed admits
    obtain ⟨_, _, merges', -, cleared, -⟩ := joinable.merges_of_restores restores sameRows emptied
    cases merges.symm.trans merges'
    exact ⟨admits, cleared.mp empty⟩
  · rintro ⟨admits, clearable⟩
    obtain ⟨_, _, restores, sameRows, emptied⟩ :=
      joinable.restores_of_admits serialises keyed admits
    obtain ⟨answer, scope', merges, gone, cleared, none⟩ :=
      joinable.merges_of_restores restores sameRows emptied
    exact ⟨answer, scope', merges, gone, cleared.mpr clearable, none⟩

end Joinable

/-- The scope after messages were handed to a pending conversation. -/
def handOver (pending : PendingConversation b) (scope : Scope b) (messages : List Bytes) :
    Scope b :=
  messages.foldl (fun scope message => finalState (pending.tryProcessOwnJoinCommit message) scope)
    scope

/-- **Buffered messages block a conversation exactly when one of them cannot be processed or was
stored earlier.**  A valid commit advances the conversation if and only if every buffered message can
be processed in the new epoch and none is left in the buffer by the removal.  A pending conversation
is joined if and only if it is a rejoin, which drops the buffered messages, or they can all be
processed in the joined group, and again none is left. -/
theorem advances_iff_replayable (serialises : Serialises b) (removes : RemovesProposals b) :
    (∀ (env : Env b) (bytes : Bytes) (message : MlsMessageIn) (valid : ValidCommit b env message),
      env.transaction.WellKeyed b.rt → b.tlsDeserialize bytes = some message →
      (Advances valid bytes ↔
        Replayable b env.configuration.cipherSuite valid.mergedEnv.seat valid.mergedEnv.listed ∧
        env.Clearable)) ∧
    (∀ (pending : PendingConversation b) (joinable : Joinable b pending) (scope : Scope b)
      (messages : List Bytes), (handOver pending scope messages).transaction.WellKeyed b.rt →
      (joinable.Joins (handOver pending scope messages) ↔
        joinable.Admits (handOver pending scope messages) ∧
        (handOver pending scope messages).transaction.Clearable b.rt
          (handOver pending scope messages).rows pending.id)) :=
  ⟨fun _ _ _ valid keyed decodes => advances_iff serialises removes valid keyed decodes,
    fun _ joinable _ _ keyed => joinable.joins_iff serialises keyed⟩

/-! ### On the sample backend -/

namespace Sample

theorem serialises (transport : Except Nat Unit) : Serialises (backend transport) :=
  fun group => ⟨group.setPersisted, rfl⟩

theorem removesProposals (transport : Except Nat Unit) : RemovesProposals (backend transport) := by
  intro group proposal rest pending
  refine ⟨changed { group with pendingProposals := rest }, ?_, rfl⟩
  simp [backend, pending]

/-- The commit of epoch 5 without proposals, received after the given messages. -/
def emptyCommit (messages : List Bytes)
    (sameEpoch : (received (.ok ()) messages).group = (handle (.ok ())).group) :
    ValidCommit (backend (.ok ())) (received (.ok ()) messages)
      (.publicMessage (publicCommit 5 (.member 1) [5])) where
  parsed := ⟨false, .publicMessage (publicCommit 5 (.member 1) [5]), .commit⟩
  processed := ⟨someone, 5, .stagedCommitMessage
    ⟨6, ⟨.member 1, [5]⟩, tagOf ⟨.member 1, [5]⟩, [], ()⟩⟩
  staging := (handle (.ok ())).group
  commit := ⟨6, ⟨.member 1, [5]⟩, tagOf ⟨.member 1, [5]⟩, [], ()⟩
  identity := ()
  merged := merge (handle (.ok ())).group.setPersisted
    ⟨6, ⟨.member 1, [5]⟩, tagOf ⟨.member 1, [5]⟩, [], ()⟩
  parses := by rw [sameEpoch]; rfl
  processes := by rw [sameEpoch]; rfl
  stages := rfl
  identifies := rfl
  merges := rfl

/-- The pending conversation that an external commit leaves. -/
def pendingJoin : PendingConversation (backend (.ok ())) :=
  ⟨[42], joining 0 [42] 1, []⟩

def joinable : Joinable (backend (.ok ())) pendingJoin where
  group := merge (joining 0 [42] 1) (stagedCommit 0 (newGroup [42] 1 0) .commitToPendingProposals)
  state := (merge (joining 0 [42] 1)
    (stagedCommit 0 (newGroup [42] 1 0) .commitToPendingProposals)).setPersisted
  custom := .default
  merges := rfl
  serialised := rfl
  configured := rfl
  sameId := rfl

/-- A client that is about to join. -/
def joiner : Scope (backend (.ok ())) :=
  { heap := []
    conversationCache := .empty
    rows := [.persistedMlsPendingGroup [42] (joining 0 [42] 1) none []]
    transaction := .new
    pendingEpochChanges := []
    accepted := []
    historyClients := []
    clock := 0 }

end Sample

theorem advances_iff_replayable_sample :
    Advances (Sample.emptyCommit [[0, 6, 9]] rfl) [3, 5] ∧
      Sample.joinable.Joins (handOver Sample.pendingJoin Sample.joiner [[0, 1, 9]]) := by
  have equivalence := advances_iff_replayable (Sample.serialises (.ok ()))
    (Sample.removesProposals (.ok ()))
  have buffered (message : Bytes) := KeystoreTransaction.wellKeyed_save (Sample.backend (.ok ())).rt
    .new (.mlsPendingMessage [42] message) (KeystoreTransaction.wellKeyed_new _)
  refine ⟨(equivalence.1 _ _ _ _ (buffered [0, 6, 9]) rfl).mpr ⟨⟨_, rfl, _, _, rfl⟩, ?_⟩,
    (equivalence.2 Sample.pendingJoin Sample.joinable Sample.joiner [[0, 1, 9]]
      (buffered [0, 1, 9])).mpr
      ⟨.inr ⟨_, rfl, _, _, rfl⟩, ?_⟩⟩
  · exact fun e stored _ => absurd stored List.not_mem_nil
  · intro e stored foreign
    cases List.mem_singleton.mp stored
    cases foreign

/-- A message that claims the next epoch and cannot be decrypted is buffered.  The commit that
starts this epoch is then answered with its error, although it was merged, and the message
stays in the buffer; so does joining fail.  A message that an earlier transaction has stored is
replayed, and is still listed when the commit was answered. -/
theorem undecryptable_message_blocks_commit :
    ¬ Advances (Sample.emptyCommit [[5, 6]] rfl) [3, 5] ∧
      outcome (decryptMessage (Sample.backend (.ok ())) [3, 5])
        (Sample.received (.ok ()) [[5, 6]]) = .error .decryptionError ∧
      (Sample.received (.ok ()) [[5, 6], [3, 5]]).group.epoch = 6 ∧
      (Sample.received (.ok ()) [[5, 6], [3, 5]]).listed = [[5, 6]] ∧
      ¬ Sample.joinable.Joins (handOver Sample.pendingJoin Sample.joiner [[5, 1]]) ∧
      (finalState (decryptMessage (Sample.backend (.ok ())) [3, 5])
        { Sample.handle (.ok ()) with rows := [.mlsPendingMessage [42] [0, 6, 9]] }).listed =
          [[0, 6, 9]] := by
  refine ⟨?_, rfl, rfl, rfl, ?_, rfl⟩
  · rintro ⟨decrypted, env, answers, -⟩
    have failed : outcome (decryptMessage (Sample.backend (.ok ())) [3, 5])
        (Sample.received (.ok ()) [[5, 6]]) = .error .decryptionError := rfl
    rw [outcome, answers] at failed
    cases failed
  · rintro ⟨answer, scope, merges, -⟩
    have failed : outcome (Sample.pendingJoin.merge)
        (handOver Sample.pendingJoin Sample.joiner [[5, 1]]) =
          .error (.conversation "restoring pending messages" .decryptionError) := rfl
    rw [outcome, merges] at failed
    cases failed

end CoreCrypto.Conversation
