import CoreCrypto.Library.RwLocks
import CoreCrypto.Conversation.Decrypt

/-!
# The locks of a transaction context

What the operations on a `TransactionContext` lock, in which mode and for how long: a guard in a
`let … else` lives to the end of the function, one in a statement to the end of that statement.  An
operation is taken with the way it goes; errors end it early and drop its guards.
-/

namespace CoreCrypto.TransactionContext.Locks

open CoreCrypto.Library.RwLocks
open CoreCrypto.Conversation (RecursionPolicy MessageRestorePolicy)

/-- `C` are the conversations in memory; two of them may have the same id, if the cache was cleared
in between, and then they have locks of their own. -/
inductive ContextLock (C : Type) where
  | context
  | session
  | conversationCache
  | proteus
  | group (conversation : C)
  deriving DecidableEq, Repr

variable {C : Type}

/-! ### Access to the context -/

/-- `TransactionContext::database`. -/
def database : List (Command (ContextLock C)) :=
  [.acquire .context .read, .release .context]

/-- `TransactionContext::pki_environment`. -/
def pkiEnvironment : List (Command (ContextLock C)) := database

/-- `TransactionContext::queue_epoch_changed`. -/
def queueEpochChanged : List (Command (ContextLock C)) := database

/-- `TransactionContext::session`. -/
def session : List (Command (ContextLock C)) :=
  [.acquire .context .read, .acquire .session .read, .release .session, .release .context]

/-- `TransactionContext::crypto_provider`. -/
def cryptoProvider : List (Command (ContextLock C)) := session

/-- `TransactionContext::mls_groups`, which returns the guard of the cache. -/
def mlsGroups : List (Command (ContextLock C)) :=
  [.acquire .context .read, .acquire .session .read, .release .session,
    .acquire .conversationCache .write, .release .context]

/-- `Conversation::group`, in a statement. -/
def readGroup (c : C) : List (Command (ContextLock C)) :=
  [.acquire (.group c) .read, .release (.group c)]

def computeNextCommitDelay (c : C) : List (Command (ContextLock C)) := readGroup c

def mutateGroup (c : C) : List (Command (ContextLock C)) :=
  database ++ [.acquire (.group c) .write, .release (.group c)]

/-! ### Conversations -/

/-- What `ConversationCache::get_or_fetch` finds. -/
inductive Fetched (C : Type) where
  | cached
  | loaded (conversation : C)
  /-- Loaded, and found to be one that the client was removed from. -/
  | inactive (conversation : C)
  | absent

def getOrFetch : Fetched C → List (Command (ContextLock C))
  | .cached => []
  | .loaded c => readGroup c
  | .inactive c => readGroup c
  | .absent => []

/-- `TransactionContext::conversation`, which looks for a pending one in the end. -/
def conversation (fetched : Fetched C) : List (Command (ContextLock C)) :=
  database ++ session ++
    (mlsGroups ++ getOrFetch fetched ++ [.release .conversationCache]) ++
    match fetched with
    | .cached | .loaded _ => []
    | .inactive _ | .absent => database

def conversationExists : List (Command (ContextLock C)) :=
  database ++ (mlsGroups ++ [.release .conversationCache])

/-- `ConversationMut::wipe`: the guard of the cache is in scope to the end. -/
def wipe (c : C) : List (Command (ContextLock C)) :=
  cryptoProvider ++ (mlsGroups ++ mutateGroup c ++ [.release .conversationCache])

/-! ### Receiving messages -/

/-- A message, and what becomes of it in `decrypt_message_inner`. -/
inductive Received where
  /-- `process_message` fails. -/
  | refused (isPublic : Bool)
  | application
  | proposal (isPublic : Bool)
  /-- A proposal, and the buffered commit that is tried after it. -/
  | retrying (isPublic : Bool) (commit : Received)
  /-- A commit, and the messages for its epoch that have been buffered. -/
  | commit (isPublic : Bool) (restored : List Received)
  | externalJoinProposal
  | ownCommit (restored : List Received)

/-- `parse_message`: public commits and proposals are compared with the group. -/
def parseMessage (c : C) (isPublic : Bool) : List (Command (ContextLock C)) :=
  if isPublic then readGroup c else []

def processMessage (c : C) : List (Command (ContextLock C)) :=
  cryptoProvider ++ mutateGroup c

def commitAccepted (c : C) : List (Command (ContextLock C)) :=
  cryptoProvider ++ mutateGroup c

/-- What both `merge_pending_commit` and `merge_and_restore_messages` do last: `group` stays in
scope while the identity is extracted and the group is read two more times.  The two differ in how
they get at the PKI environment and in which field of the message comes first. -/
def ownIdentity (c : C) (environment fields : List (Command (ContextLock C))) :
    List (Command (ContextLock C)) :=
  .acquire (.group c) .read :: (environment ++ fields ++ [.release (.group c)])

def mergePendingCommit (c : C) : List (Command (ContextLock C)) :=
  commitAccepted c ++ ownIdentity c cryptoProvider (computeNextCommitDelay c ++ readGroup c)

def handleOwnCommit (c : C) : List (Command (ContextLock C)) :=
  readGroup c ++ mergePendingCommit c

/-- `restore_and_clear_pending_messages`, if the policy asks for it, with what the messages do. -/
def restoreAndClearPendingMessages (policy : RecursionPolicy) (restored : List Received)
    (replayed : List (Command (ContextLock C))) : List (Command (ContextLock C)) :=
  match policy with
  | .none => []
  | .asNecessary => database ++ replayed ++ if restored.isEmpty then [] else database

mutual

def decryptMessageInner (c : C) (policy : RecursionPolicy) :
    Received → List (Command (ContextLock C))
  | .refused isPublic => cryptoProvider ++ parseMessage c isPublic ++ processMessage c
  | .application => cryptoProvider ++ processMessage c
  | .proposal isPublic =>
    cryptoProvider ++ parseMessage c isPublic ++ processMessage c ++ mutateGroup c ++ database ++
      computeNextCommitDelay c
  | .retrying isPublic commit =>
    cryptoProvider ++ parseMessage c isPublic ++ processMessage c ++ mutateGroup c ++ database ++
      decryptMessageInner c policy commit ++
      match commit with
      | .refused _ => computeNextCommitDelay c
      | _ => database
  | .commit isPublic restored =>
    cryptoProvider ++ parseMessage c isPublic ++ processMessage c ++ cryptoProvider ++
      mutateGroup c ++ computeNextCommitDelay c ++
      restoreAndClearPendingMessages policy restored (replay c restored) ++ queueEpochChanged
  | .externalJoinProposal =>
    cryptoProvider ++ parseMessage c true ++ processMessage c ++ mutateGroup c ++
      computeNextCommitDelay c
  | .ownCommit restored =>
    cryptoProvider ++ parseMessage c true ++ processMessage c ++ readGroup c ++ handleOwnCommit c ++
      restoreAndClearPendingMessages policy restored (replay c restored)

/-- The loop of `restore_pending_messages`. -/
def replay (c : C) : List Received → List (Command (ContextLock C))
  | [] => []
  | received :: rest => decryptMessageInner c .none received ++ replay c rest

end

/-- What `decrypt_message` does with the result. -/
inductive Aftermath where
  | returned
  | bufferedFutureMessage
  | bufferedCommit
  | inactive
  deriving DecidableEq, Repr

def decryptMessage (c : C) (received : Received) (aftermath : Aftermath) :
    List (Command (ContextLock C)) :=
  decryptMessageInner c .asNecessary received ++
    match aftermath with
    | .returned => []
    | .bufferedFutureMessage => database
    | .bufferedCommit => cryptoProvider
    | .inactive => wipe c

/-! ### Pending conversations -/

def persistConversationFromMlsGroup : List (Command (ContextLock C)) :=
  session ++ database ++ (mlsGroups ++ [.release .conversationCache])

def restorePendingMessages (c : C) (policy : MessageRestorePolicy) (restored : List Received) :
    List (Command (ContextLock C)) :=
  database ++
    match policy with
    | .clearOnly => database
    | .decryptAndClear => replay c restored

/-- `PendingConversation::merge`, which creates the conversation. -/
def merge (created : C) (policy : MessageRestorePolicy) (restored : List Received) :
    List (Command (ContextLock C)) :=
  cryptoProvider ++ persistConversationFromMlsGroup ++
    restorePendingMessages created policy restored ++
    (if policy = .decryptAndClear ∧ ¬ restored.isEmpty then database else []) ++ database

/-- What `try_process_own_join_commit` makes of a message. -/
inductive JoinMessage (C : Type) where
  | buffered
  /-- It is the own commit: the conversation is created, and looked up again. -/
  | accepted (created : C) (policy : MessageRestorePolicy) (restored : List Received)
      (fetched : Fetched C) (found : C)

def mergeAndRestoreMessages (created : C) (policy : MessageRestorePolicy)
    (restored : List Received) (fetched : Fetched C) (found : C) :
    List (Command (ContextLock C)) :=
  merge created policy restored ++ conversation fetched ++
    ownIdentity found pkiEnvironment
      (.acquire (.group found) .read :: (computeNextCommitDelay found ++ [.release (.group found)]))

def tryProcessOwnJoinCommit : JoinMessage C → List (Command (ContextLock C))
  | .buffered => cryptoProvider ++ database ++ database
  | .accepted created policy restored fetched found =>
    cryptoProvider ++ database ++ mergeAndRestoreMessages created policy restored fetched found

/-! ### Proteus and the end of the context -/

/-- `proteus_fingerprint`, and the last part of `proteus_init`. -/
def proteusFingerprint : List (Command (ContextLock C)) :=
  [.acquire .context .read, .acquire .proteus .write, .release .proteus, .release .context]

def proteusInit : List (Command (ContextLock C)) :=
  database ++ proteusFingerprint

/-- The other Proteus operations ask for the database while they have the guard of the context. -/
def proteusOperation : List (Command (ContextLock C)) :=
  [.acquire .context .read, .acquire .proteus .write, .acquire .context .read, .release .context,
    .release .proteus, .release .context]

/-- `finish`: the cache is cleared if the commit has failed. -/
def finish (committed : Bool) : List (Command (ContextLock C)) :=
  if committed then
    [.acquire .context .write, .acquire .session .read, .release .session, .release .context]
  else
    [.acquire .context .write, .acquire .session .read, .acquire .conversationCache .write,
      .release .conversationCache, .release .session, .release .context]

def abort : List (Command (ContextLock C)) := finish false

inductive ContextCall (C : Type) where
  | conversation (fetched : Fetched C)
  | conversationExists
  | decryptMessage (c : C) (received : Received) (aftermath : Aftermath)
  | wipe (c : C)
  | merge (created : C) (policy : MessageRestorePolicy) (restored : List Received)
  | tryProcessOwnJoinCommit (message : JoinMessage C)
  | proteusInit
  | proteusFingerprint
  | proteusOperation
  | finish (committed : Bool)
  | abort

def ContextCall.commands : ContextCall C → List (Command (ContextLock C))
  | conversation fetched => Locks.conversation fetched
  | conversationExists => Locks.conversationExists
  | decryptMessage c received aftermath => Locks.decryptMessage c received aftermath
  | wipe c => Locks.wipe c
  | merge created policy restored => Locks.merge created policy restored
  | tryProcessOwnJoinCommit message => Locks.tryProcessOwnJoinCommit message
  | proteusInit => Locks.proteusInit
  | proteusFingerprint => Locks.proteusFingerprint
  | proteusOperation => Locks.proteusOperation
  | finish committed => Locks.finish committed
  | abort => Locks.abort

/-! ### What matters of a call -/

mutual

/-- An own commit is merged, for the message itself or for one that is replayed. -/
def Received.mergesOwnCommit (policy : RecursionPolicy) : Received → Bool
  | .refused _ => false
  | .application => false
  | .proposal _ => false
  | .retrying _ commit => commit.mergesOwnCommit policy
  | .commit _ restored => policy = .asNecessary && replayMergesOwnCommit restored
  | .externalJoinProposal => false
  | .ownCommit _ => true

def replayMergesOwnCommit : List Received → Bool
  | [] => false
  | received :: rest => received.mergesOwnCommit .none || replayMergesOwnCommit rest

end

namespace ContextCall

/-- `finish` and `abort` write the context. -/
def endsContext : ContextCall C → Bool
  | finish _ | abort => true
  | _ => false

def clearsCache : ContextCall C → Bool
  | finish committed => !committed
  | abort => true
  | _ => false

/-- The call asks for the context for reading while it has a read guard of it. -/
def rereadsContext : ContextCall C → Bool
  | proteusOperation => true
  | _ => false

/-- The call asks for the context while it has the cache. -/
def wipes : ContextCall C → Bool
  | wipe _ | decryptMessage _ _ .inactive => true
  | _ => false

/-- The call takes the cache for itself. -/
def takesCache : ContextCall C → Bool
  | conversation _ | conversationExists | merge _ _ _ | tryProcessOwnJoinCommit (.accepted ..) => true
  | call => call.wipes

/-- The call asks for a group for reading while it has a read guard of it. -/
def RereadsGroup (c : C) : ContextCall C → Prop
  | decryptMessage d received _ => d = c ∧ received.mergesOwnCommit .asNecessary = true
  | merge created policy restored =>
    created = c ∧ policy = .decryptAndClear ∧ replayMergesOwnCommit restored = true
  | tryProcessOwnJoinCommit (.accepted created policy restored _ found) =>
    found = c ∨ created = c ∧ policy = .decryptAndClear ∧ replayMergesOwnCommit restored = true
  | _ => False

def WritesGroup (c : C) : ContextCall C → Prop
  | decryptMessage d _ _ | wipe d => d = c
  | merge created policy restored
  | tryProcessOwnJoinCommit (.accepted created policy restored _ _) =>
    created = c ∧ policy = .decryptAndClear ∧ restored ≠ []
  | _ => False

/-- The locks that the call asks for while it holds others. -/
def Nested (call : ContextCall C) : ContextLock C × Mode → ContextLock C × Mode → Prop
  | (.session, _), (.session, _) => False
  | _, (.session, .read) => True
  | (.context, .read), (.conversationCache, .write) => call.takesCache = true
  | (.context, .read), (.proteus, .write) => True
  | (.context, .read), (.context, .read) | (.proteus, .write), (.context, .read) =>
    call.rereadsContext = true
  | (.context, .write), (.conversationCache, .write)
  | (.session, .read), (.conversationCache, .write) => call.clearsCache = true
  | (.conversationCache, .write), (.context, .read) => call.wipes = true
  | (.conversationCache, .write), (.group _, _) => True
  | (.group c, .read), (.context, .read) => call.RereadsGroup c
  | (.group c, .read), (.group d, .read) => d = c ∧ call.RereadsGroup c
  | _, _ => False

/-- The locks that the call acquires. -/
def Taken (call : ContextCall C) : ContextLock C × Mode → Prop
  | (.context, .write) => call.endsContext = true
  | (.conversationCache, .write) => call.takesCache = true ∨ call.clearsCache = true
  | (.group c, .write) => call.WritesGroup c
  | (.context, .read) | (.session, .read) | (.proteus, .write) | (.group _, .read) => True
  | _ => False

end ContextCall

section Usage

variable [DecidableEq C] (call : ContextCall C) {c : C}

/-- A part of the call. -/
def Part (commands : List (Command (ContextLock C))) : Prop :=
  Block call.Nested call.Taken commands

theorem part_database : Part call database := by
  refine ⟨rfl, ?_, ?_⟩ <;> simp [database, nests, acquires, ContextCall.Taken]

theorem part_session : Part call session := by
  refine ⟨rfl, ?_, ?_⟩ <;> simp [session, nests, acquires, ContextCall.Taken, ContextCall.Nested]

theorem part_readGroup (c : C) : Part call (readGroup c) := by
  refine ⟨by simp [readGroup, heldFrom, drop], ?_, ?_⟩ <;>
    simp [readGroup, nests, acquires, ContextCall.Taken]

theorem part_mutateGroup (writes : call.WritesGroup c) : Part call (mutateGroup c) := by
  refine (part_database call).append ⟨by simp [heldFrom, drop], ?_, ?_⟩ <;>
    simp [nests, acquires, ContextCall.Taken, writes]

theorem part_processMessage (writes : call.WritesGroup c) : Part call (processMessage c) :=
  (part_session call).append (part_mutateGroup call writes)

theorem part_parseMessage (c : C) (isPublic : Bool) : Part call (parseMessage c isPublic) := by
  cases isPublic
  · exact .nil
  · exact part_readGroup call c

theorem part_received (writes : call.WritesGroup c) (isPublic : Bool) :
    Part call (cryptoProvider ++ parseMessage c isPublic ++ processMessage c) :=
  ((part_session call).append (part_parseMessage call c isPublic)).append
    (part_processMessage call writes)

/-- The cache is taken under the guard of the context, and kept while a conversation is loaded. -/
theorem part_cache (takes : call.takesCache = true) (fetched : Fetched C) :
    Part call (mlsGroups ++ getOrFetch fetched ++ [.release .conversationCache]) := by
  cases fetched <;>
    refine ⟨by simp [mlsGroups, getOrFetch, readGroup, heldFrom, drop], ?_, ?_⟩ <;>
      simp [mlsGroups, getOrFetch, readGroup, nests, acquires, drop, ContextCall.Nested,
        ContextCall.Taken, takes]

theorem part_conversation (takes : call.takesCache = true) (fetched : Fetched C) :
    Part call (conversation fetched) := by
  have looked := ((part_database call).append (part_session call)).append
    (part_cache call takes fetched)
  cases fetched with
  | cached => exact looked.append .nil
  | loaded c => exact looked.append .nil
  | inactive c => exact looked.append (part_database call)
  | absent => exact looked.append (part_database call)

theorem part_wipe (takes : call.takesCache = true) (wipes : call.wipes = true)
    (writes : call.WritesGroup c) : Part call (wipe c) := by
  refine (part_session call).append
    ⟨by simp [mlsGroups, mutateGroup, database, heldFrom, drop], ?_, ?_⟩ <;>
      simp [mlsGroups, mutateGroup, database, nests, acquires, drop, ContextCall.Nested,
        ContextCall.Taken, takes, wipes, writes]

theorem part_ownIdentity_merge (rereads : call.RereadsGroup c) :
    Part call (ownIdentity c cryptoProvider (computeNextCommitDelay c ++ readGroup c)) := by
  refine ⟨by simp [ownIdentity, cryptoProvider, session, computeNextCommitDelay, readGroup, heldFrom,
    drop], ?_, ?_⟩ <;>
    simp [ownIdentity, cryptoProvider, session, computeNextCommitDelay, readGroup, nests, acquires,
      drop, ContextCall.Nested, ContextCall.Taken, rereads]

theorem part_ownIdentity_join (rereads : call.RereadsGroup c) :
    Part call (ownIdentity c pkiEnvironment
      (.acquire (.group c) .read :: (computeNextCommitDelay c ++ [.release (.group c)]))) := by
  refine ⟨by simp [ownIdentity, pkiEnvironment, database, computeNextCommitDelay, readGroup, heldFrom,
    drop], ?_, ?_⟩ <;>
    simp [ownIdentity, pkiEnvironment, database, computeNextCommitDelay, readGroup, nests, acquires,
      drop, ContextCall.Nested, ContextCall.Taken, rereads]

theorem part_handleOwnCommit (writes : call.WritesGroup c)
    (rereads : call.RereadsGroup c) : Part call (handleOwnCommit c) :=
  (part_readGroup call c).append
    ((part_processMessage call writes).append (part_ownIdentity_merge call rereads))

theorem part_restore (policy : RecursionPolicy) (restored : List Received)
    (replayed : List (Command (ContextLock C)))
    (part : policy = .asNecessary → Part call replayed) :
    Part call (restoreAndClearPendingMessages policy restored replayed) := by
  cases policy with
  | none => exact .nil
  | asNecessary =>
    refine ((part_database call).append (part rfl)).append ?_
    split
    · exact .nil
    · exact part_database call

mutual

theorem part_decryptMessageInner {c : C} (writes : call.WritesGroup c) (policy : RecursionPolicy) :
    ∀ received : Received,
      (received.mergesOwnCommit policy = true → call.RereadsGroup c) →
        Part call (decryptMessageInner c policy received)
  | .refused isPublic, _ => by
    simp only [decryptMessageInner]
    exact part_received call writes isPublic
  | .application, _ => by
    simp only [decryptMessageInner]
    exact (part_session call).append (part_processMessage call writes)
  | .proposal isPublic, _ => by
    simp only [decryptMessageInner]
    exact (((part_received call writes isPublic).append (part_mutateGroup call writes)).append
      (part_database call)).append (part_readGroup call c)
  | .retrying isPublic commit, rereads => by
    have retried := part_decryptMessageInner writes policy commit
      (by simpa only [Received.mergesOwnCommit] using rereads)
    simp only [decryptMessageInner]
    refine ((((part_received call writes isPublic).append (part_mutateGroup call writes)).append
      (part_database call)).append retried).append ?_
    split
    · exact part_readGroup call c
    · exact part_database call
  | .commit isPublic restored, rereads => by
    have restores := part_restore call policy restored (replay c restored) fun necessary =>
      part_replay writes restored (by simpa [Received.mergesOwnCommit, necessary] using rereads)
    simp only [decryptMessageInner]
    exact (((((part_received call writes isPublic).append (part_session call)).append
      (part_mutateGroup call writes)).append (part_readGroup call c)).append restores).append
      (part_database call)
  | .externalJoinProposal, _ => by
    simp only [decryptMessageInner]
    exact ((part_received call writes true).append (part_mutateGroup call writes)).append
      (part_readGroup call c)
  | .ownCommit restored, rereads => by
    have rereads := rereads (by simp only [Received.mergesOwnCommit])
    have restores := part_restore call policy restored (replay c restored) fun _ =>
      part_replay writes restored fun _ => rereads
    simp only [decryptMessageInner]
    exact (((part_received call writes true).append (part_readGroup call c)).append
      (part_handleOwnCommit call writes rereads)).append restores

theorem part_replay {c : C} (writes : call.WritesGroup c) :
    ∀ restored : List Received, (replayMergesOwnCommit restored = true → call.RereadsGroup c) →
      Part call (replay c restored)
  | [], _ => by
    simp only [replay]
    exact .nil
  | received :: rest, rereads => by
    simp only [replayMergesOwnCommit, Bool.or_eq_true] at rereads
    simp only [replay]
    exact (part_decryptMessageInner writes .none received fun merges => rereads (.inl merges)).append
      (part_replay writes rest fun merges => rereads (.inr merges))

end

theorem part_restorePendingMessages (policy : MessageRestorePolicy) (restored : List Received)
    (writes : policy = .decryptAndClear → restored ≠ [] → call.WritesGroup c)
    (rereads : policy = .decryptAndClear → replayMergesOwnCommit restored = true →
      call.RereadsGroup c) : Part call (restorePendingMessages c policy restored) := by
  refine (part_database call).append ?_
  cases policy with
  | clearOnly => exact part_database call
  | decryptAndClear =>
    cases restored with
    | nil =>
      simp only [replay]
      exact .nil
    | cons received rest =>
      exact part_replay call (writes rfl (List.cons_ne_nil _ _)) _ (rereads rfl)

theorem part_merge (takes : call.takesCache = true) (policy : MessageRestorePolicy)
    (restored : List Received)
    (writes : policy = .decryptAndClear → restored ≠ [] → call.WritesGroup c)
    (rereads : policy = .decryptAndClear → replayMergesOwnCommit restored = true →
      call.RereadsGroup c) : Part call (merge c policy restored) := by
  have persists : Part call persistConversationFromMlsGroup :=
    ((part_session call).append (part_database call)).append (part_cache call takes .cached)
  refine ((((part_session call).append persists).append
    (part_restorePendingMessages call policy restored writes rereads)).append ?_).append
    (part_database call)
  split
  · exact part_database call
  · exact .nil

theorem part_proteusFingerprint : Part call proteusFingerprint := by
  refine ⟨rfl, ?_, ?_⟩ <;>
    simp [proteusFingerprint, nests, acquires, ContextCall.Nested, ContextCall.Taken]

theorem part_proteusOperation (rereads : call.rereadsContext = true) :
    Part call proteusOperation := by
  refine ⟨rfl, ?_, ?_⟩ <;>
    simp [proteusOperation, nests, acquires, ContextCall.Nested, ContextCall.Taken, rereads]

theorem part_finish (committed : Bool) (ends : call.endsContext = true)
    (clears : committed = false → call.clearsCache = true) : Part call (finish committed) := by
  cases committed with
  | true =>
    refine ⟨rfl, ?_, ?_⟩ <;>
      simp [finish, nests, acquires, ContextCall.Nested, ContextCall.Taken, ends]
  | false =>
    refine ⟨rfl, ?_, ?_⟩ <;>
      simp [finish, nests, acquires, ContextCall.Nested, ContextCall.Taken, ends, clears]

/-- The conversation is merged and looked up before its group is read. -/
theorem part_joined (created : C) (policy : MessageRestorePolicy) (restored : List Received)
    (fetched : Fetched C) (found : C) :
    Part (.tryProcessOwnJoinCommit (.accepted created policy restored fetched found))
      (merge created policy restored ++ conversation fetched) := by
  have merged : Part (.tryProcessOwnJoinCommit (.accepted created policy restored fetched found))
      (merge created policy restored) :=
    part_merge _ rfl policy restored (fun clears some => ⟨rfl, clears, some⟩)
      fun clears merges => .inr ⟨rfl, clears, merges⟩
  exact merged.append (part_conversation _ rfl fetched)

/-- **The table holds** of every call. -/
theorem part_commands : Part call call.commands := by
  cases call with
  | conversation fetched => exact part_conversation _ rfl fetched
  | conversationExists => exact (part_database _).append (part_cache _ rfl .cached)
  | decryptMessage c received aftermath =>
    have inner : Part (.decryptMessage c received aftermath)
        (decryptMessageInner c .asNecessary received) :=
      part_decryptMessageInner (.decryptMessage c received aftermath) rfl .asNecessary received
        fun merges => ⟨rfl, merges⟩
    refine inner.append ?_
    cases aftermath with
    | returned => exact .nil
    | bufferedFutureMessage => exact part_database _
    | bufferedCommit => exact part_session _
    | inactive => exact part_wipe _ rfl rfl rfl
  | wipe c => exact part_wipe _ rfl rfl rfl
  | merge created policy restored =>
    exact part_merge _ rfl policy restored (fun clears some => ⟨rfl, clears, some⟩)
      fun clears merges => ⟨rfl, clears, merges⟩
  | tryProcessOwnJoinCommit message =>
    cases message with
    | buffered => exact ((part_session _).append (part_database _)).append (part_database _)
    | accepted created policy restored fetched found =>
      exact ((part_session _).append (part_database _)).append
        ((part_joined created policy restored fetched found).append
          (part_ownIdentity_join _ (.inl rfl)))
  | proteusInit => exact (part_database _).append (part_proteusFingerprint _)
  | proteusFingerprint => exact part_proteusFingerprint _
  | proteusOperation => exact part_proteusOperation _ rfl
  | finish committed => exact part_finish _ committed rfl (by rintro rfl; rfl)
  | abort => exact part_finish _ false rfl fun _ => rfl

end Usage

end CoreCrypto.TransactionContext.Locks
