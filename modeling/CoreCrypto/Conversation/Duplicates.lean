import CoreCrypto.Conversation.SampleLaws

/-!
# Duplicate messages

`decrypt_message` drops a handshake message that it has already taken.  It tells a commit by its
confirmation tag and a proposal by its body, so the same change proposed by a second member is
dropped too.
-/

namespace CoreCrypto.Conversation

open Keystore Library

variable {b : Backend}

/-! ### What has been taken already -/

/-- The message was taken before: a pending proposal has its sender and its body, or the epoch
was created by its commit. -/
def AlreadyAccepted (group : b.Group) (message : PublicMessageIn) : Prop :=
  match message.body with
  | .proposal proposal => ∃ pending ∈ group.pendingProposals,
      pending.sender = message.sender ∧ pending.proposal = proposal
  | .commit content => group.epochCommit = some ⟨message.sender, content⟩
  | .application _ => False

/-- What is used of OpenMLS here.  `Confirms framed tag` says that `tag` is the confirmation tag
of the commit with this sender and content; a tag confirms no other commit.  Generations are
counted for private messages only. -/
structure DuplicateLaws (b : Backend) (Confirms : Framed → Bytes → Prop) : Prop where
  confirmed : ∀ (group : b.Group) framed tag, b.computeConfirmationTag group = .ok tag →
    Confirms framed tag → group.epochCommit = some framed
  generations : ∀ group message after,
    b.processMessage group (.publicMessage message) ≠ (.error .generationOutOfBound, after)
  queued : ∀ group proposal, proposal ∈ (b.storePendingProposal group proposal).pendingProposals

/-- The message can be told from all others by what `is_duplicate_message` looks at, and if it is
a commit, the buffered messages can be replayed after it. -/
structure Distinct (b : Backend) (Confirms : Framed → Bytes → Prop) (env : Env b)
    (message : PublicMessageIn) : Prop where
  proposals : ∀ proposal, message.body = .proposal proposal →
    ∀ pending ∈ env.group.pendingProposals, pending.proposal = proposal →
      pending.sender = message.sender
  commits : ∀ content tag, message.body = .commit content → message.confirmationTag = some tag →
    Confirms ⟨message.sender, content⟩ tag
  replays : ∀ merged answer queued, Merges b env (.publicMessage message) merged answer queued →
    Replayable b merged.configuration.cipherSuite merged.seat merged.listed

/-! ### The verdict -/

/-- What the verdict that a message is a duplicate rests on. -/
theorem isDuplicateMessage_true {group : b.Group} {message : PublicMessageIn}
    (verdict : isDuplicateMessage b group message = .ok true) :
    (∃ proposal, message.body = .proposal proposal ∧
      ∃ pending ∈ group.pendingProposals, pending.proposal = proposal) ∨
    (∃ content tag, message.body = .commit content ∧ message.confirmationTag = some tag ∧
      b.computeConfirmationTag group = .ok tag) := by
  unfold isDuplicateMessage at verdict
  split at verdict
  case h_1 content index body sender =>
    right
    split at verdict
    next => cases verdict
    next messageTag carried =>
      split at verdict
      next => cases verdict
      next groupTag computed =>
        simp only [Except.ok.injEq, decide_eq_true_eq] at verdict
        subst verdict
        exact ⟨content, messageTag, body, carried, computed⟩
  case h_2 content body sender =>
    right
    split at verdict
    next => cases verdict
    next messageTag carried =>
      split at verdict
      next => cases verdict
      next groupTag computed =>
        simp only [Except.ok.injEq, decide_eq_true_eq] at verdict
        subst verdict
        exact ⟨content, messageTag, body, carried, computed⟩
  case h_3 proposal index body sender =>
    left
    simp only [Except.ok.injEq, List.any_eq_true, decide_eq_true_eq] at verdict
    exact ⟨proposal, body, verdict⟩
  case h_4 proposal body sender =>
    left
    simp only [Except.ok.injEq, List.any_eq_true, decide_eq_true_eq] at verdict
    exact ⟨proposal, body, verdict⟩
  case h_5 => cases verdict

section Verdict

variable {Confirms : Framed → Bytes → Prop} {env : Env b} {message : PublicMessageIn}
  {bytes : Bytes} {env' : Env b} {e : Error}

theorem alreadyAccepted_of_isDuplicate (laws : DuplicateLaws b Confirms)
    (distinct : Distinct b Confirms env message)
    (verdict : isDuplicateMessage b env.group message = .ok true) :
    AlreadyAccepted env.group message := by
  rcases isDuplicateMessage_true verdict with
    ⟨proposal, body, pending, member, same⟩ | ⟨content, tag, body, carried, computed⟩
  · simp only [AlreadyAccepted, body]
    exact ⟨pending, member, distinct.proposals proposal body pending member same, same⟩
  · simp only [AlreadyAccepted, body]
    exact laws.confirmed env.group _ tag computed (distinct.commits content tag body carried)

theorem isDuplicate_of_refused (laws : DuplicateLaws b Confirms) {parsed : ParsedMessage}
    {after : b.Group} (parses : parseMessage b env.group (.publicMessage message) = .ok parsed)
    (refused : processOnGroup b parsed env.group = (.error .duplicateMessage, after)) :
    isDuplicateMessage b env.group message = .ok true := by
  simp only [parseMessage, bind, Except.bind] at parses
  cases verdict : isDuplicateMessage b env.group message with
  | error e => rw [verdict] at parses; cases parses
  | ok isDuplicate =>
    rw [verdict] at parses
    cases parses
    cases isDuplicate with
    | true => rfl
    | false =>
      -- without the verdict only a generation out of bound would give this error
      unfold processOnGroup at refused
      rcases called : b.processMessage env.group (.publicMessage message) with ⟨result, later⟩
      simp only [called] at refused
      cases result with
      | ok processed => cases refused
      | error source =>
        cases source with
        | generationOutOfBound => exact absurd called (laws.generations _ _ _)
        | wrongEpoch =>
          simp only [processError, wrongEpochError, Bool.false_eq_true, if_false] at refused
          split at refused
          next => cases refused
          next =>
            split at refused
            next => split at refused <;> cases refused
            next => cases refused
        | _ => cases refused

/-- **A message answered as a duplicate is one.** -/
theorem alreadyAccepted_of_answer (serialises : Serialises b) (epochs : EpochLaws b)
    (laws : DuplicateLaws b Confirms) (distinct : Distinct b Confirms env message)
    (answers : decryptMessageInner b (.publicMessage message) .asNecessary env =
      .error .duplicateMessage env') : AlreadyAccepted env.group message := by
  have went := receives serialises epochs recursionDepth env (.publicMessage message)
  have inner : decryptAsNecessary b recursionDepth (.publicMessage message) env =
      .error .duplicateMessage env' := answers
  rw [inner] at went
  cases went with
  | refused quiet answer =>
    obtain ⟨parsed, after, parses, refused⟩ := answer.duplicate rfl
    exact alreadyAccepted_of_isDuplicate laws distinct (isDuplicate_of_refused laws parses refused)
  | unanswered echo fails => exact absurd rfl (error_of_ownAnswer fails).duplicate
  | blocked merges fails =>
    obtain ⟨decoded, decodes, results, seat, taken⟩ := distinct.replays _ _ _ merges
    obtain ⟨restoredEnv, -, restores⟩ :=
      restoring_ok serialises decodes taken
    rw [fails] at restores
    cases restores

theorem removePendingProposals_error {references : List Bytes} {group after : b.Group}
    (fails : removePendingProposals b references group = (.error e, after)) :
    ∃ code, e = .openMls "removing pending proposal" code := by
  induction references generalizing group with
  | nil => cases fails
  | cons reference rest ih =>
    rcases called : b.removePendingProposal group reference with ⟨result, later⟩
    simp only [removePendingProposals, called] at fails
    cases result with
    | ok _ => exact ih fails
    | error code =>
      cases fails
      exact ⟨code, rfl⟩

theorem wipe_error (serialises : Serialises b) (fails : wipe b env = .error e env') :
    ∃ code, e = .openMls "removing pending proposal" code := by
  rcases removed : removePendingProposals b ((b.deletePreviousEpochKeypairs env.group).pendingProposals.map
    (·.reference)) (b.deletePreviousEpochKeypairs env.group) with ⟨result, after⟩
  cases result with
  | error cause =>
    have mutated := mutateGroup_error (fun group =>
      removePendingProposals b ((b.deletePreviousEpochKeypairs group).pendingProposals.map
        (·.reference)) (b.deletePreviousEpochKeypairs group)) env cause after removed
    simp only [wipe, bind, EStateM.bind, mutated] at fails
    cases fails
    exact removePendingProposals_error removed
  | ok _ =>
    have mutated := mutateGroup_ok serialises (fun group =>
      removePendingProposals b ((b.deletePreviousEpochKeypairs group).pendingProposals.map
        (·.reference)) (b.deletePreviousEpochKeypairs group)) env () after removed
    simp only [wipe, bind, EStateM.bind, mutated] at fails
    cases fails

/-- The outermost call does not make an answer a duplicate. -/
theorem inner_of_duplicate (serialises : Serialises b) {messageIn : MlsMessageIn}
    (decodes : b.tlsDeserialize bytes = some messageIn)
    (answers : decryptMessage b bytes env = .error .duplicateMessage env') :
    ∃ inner, decryptMessageInner b messageIn .asNecessary env = .error .duplicateMessage inner := by
  simp only [decryptMessage, decodes, bind, EStateM.bind, attempt] at answers
  cases called : decryptMessageInner b messageIn .asNecessary env with
  | error e inner =>
    simp only [called] at answers
    cases e <;> first
      | exact ⟨inner, rfl⟩
      | cases answers
  | ok decrypted inner =>
    simp only [called, settle, bind] at answers
    cases active : decrypted.isActive with
    | true =>
      rw [active] at answers
      cases answers
    | false =>
      rw [active] at answers
      cases wiped : wipe b inner with
      | ok _ last =>
        simp only [Bool.not_false, if_true, EStateM.bind, wiped] at answers
        cases answers
      | error e last =>
        simp only [Bool.not_false, if_true, EStateM.bind, wiped] at answers
        cases answers
        obtain ⟨code, impossible⟩ := wipe_error serialises wiped
        cases impossible

/-! ### A proposal becomes pending -/

/-- OpenMLS takes the message as the proposal `queued`. -/
structure Proposes (b : Backend) (env : Env b) (message : PublicMessageIn)
    (queued : QueuedProposal) : Prop where
  body : ∃ proposal, message.body = .proposal proposal
  processes : ∃ processed staging,
    b.processMessage env.group (.publicMessage message) = (.ok processed, staging) ∧
    (processed.content = .proposalMessage queued ∨
      processed.content = .externalJoinProposalMessage queued) ∧
    ∃ identity,
      b.extractIdentity processed.credential env.configuration.cipherSuite = .ok identity

theorem isDuplicateMessage_proposal (group : b.Group) {proposal : Proposal}
    (body : message.body = .proposal proposal) :
    ∃ isDuplicate, isDuplicateMessage b group message = .ok isDuplicate := by
  unfold isDuplicateMessage
  cases sender : message.sender <;> simp [body]

theorem receiveContent_proposal (serialises : Serialises b)
    (retry : Bytes → Op b (DecryptedMessage b))
    (restore : Op b (Option (List (BufferedDecryptedMessage b)))) (policy : RecursionPolicy)
    {processed : ProcessedMessage b.K} {queued : QueuedProposal} {identity : b.Identity}
    (content : processed.content = .proposalMessage queued ∨
      processed.content = .externalJoinProposalMessage queued)
    (identifies : b.extractIdentity processed.credential env.configuration.cipherSuite =
      .ok identity) (quiet : env.seat.buffered = none) :
    receiveContent retry restore policy processed env =
      .ok (proposalAnswer b identity (b.storePendingProposal env.group queued).setPersisted)
        (env.written (b.storePendingProposal env.group queued)) := by
  have stores : storeProposal b queued env =
      .ok () (env.written (b.storePendingProposal env.group queued)) :=
    mutateGroup_ok serialises _ env () _ rfl
  have retrieves : retrieveBufferedCommit b (env.written (b.storePendingProposal env.group queued)) =
      .ok none (env.written (b.storePendingProposal env.group queued)) := by
    have waiting := congrArg Seat.buffered (seat_written env (b.storePendingProposal env.group queued))
    rw [quiet] at waiting
    change EStateM.Result.ok (Env.seat _).buffered _ = _
    rw [waiting]
  rcases content with content | content
  · simp only [receiveContent, get, getThe, MonadStateOf.get, bind, EStateM.bind, EStateM.get,
      identifies, liftExcept, pure, EStateM.pure, content, receiveProposal, stores, retrieves]
    rfl
  · simp only [receiveContent, get, getThe, MonadStateOf.get, bind, EStateM.bind, EStateM.get,
      identifies, liftExcept, pure, EStateM.pure, content, stores]
    rfl

/-- A proposal that was not taken before is pending once it was received, unless it goes to a
commit that waits for it. -/
theorem pending_of_proposes (serialises : Serialises b) (laws : DuplicateLaws b Confirms)
    (distinct : Distinct b Confirms env message)
    (decodes : b.tlsDeserialize bytes = some (.publicMessage message)) {queued : QueuedProposal}
    (proposes : Proposes b env message queued) (quiet : env.seat.buffered = none)
    (fresh : ¬ AlreadyAccepted env.group message) :
    queued ∈ (finalState (decryptMessage b bytes) env).group.pendingProposals := by
  obtain ⟨⟨proposal, body⟩, processed, staging, called, content, identity, identifies⟩ := proposes
  obtain ⟨isDuplicate, verdict⟩ := isDuplicateMessage_proposal env.group body
  cases isDuplicate with
  | true => exact absurd (alreadyAccepted_of_isDuplicate laws distinct verdict) fresh
  | false =>
    have parses : parseMessage b env.group (.publicMessage message) =
        .ok ⟨false, .publicMessage message, message.body.contentType⟩ := by
      simp only [parseMessage, verdict]
      rfl
    have processes : processOnGroup b ⟨false, .publicMessage message, message.body.contentType⟩
        env.group = (.ok processed, staging) := by
      simp only [processOnGroup, called, Bool.false_eq_true, if_false]
    have waiting : (env.written staging).seat.buffered = none := by
      rw [seat_written]
      exact quiet
    have inner : decryptMessageInner b (.publicMessage message) .asNecessary env =
        .ok (proposalAnswer b identity
            (b.storePendingProposal (env.written staging).group queued).setPersisted)
          ((env.written staging).written
            (b.storePendingProposal (env.written staging).group queued)) :=
      (receive_processed serialises _ _ _ parses processes).trans
        (receiveContent_proposal serialises _ _ _ content identifies
          waiting)
    have answers : finalState (decryptMessage b bytes) env = (env.written staging).written
        (b.storePendingProposal (env.written staging).group queued) := by
      simp only [finalState, decryptMessage, decodes, bind, EStateM.bind, attempt, inner]
      rfl
    rw [answers]
    exact laws.queued _ queued

end Verdict

/-! ### Runs of a handle -/

/-- What a client does with a conversation. -/
inductive HandleStep where
  | decryptMessage (message : Bytes)
  | commit (call : CommittingCall)
  | encryptMessage (message : Bytes)
  deriving DecidableEq, Repr

/-- The handle after a step, whether it has succeeded or not. -/
def HandleStep.perform (b : Backend) (env : Env b) : HandleStep → Env b
  | .decryptMessage message => finalState (Conversation.decryptMessage b message) env
  | .commit call => finalState (call.perform b) env
  | .encryptMessage message => finalState (Conversation.encryptMessage b message) env

/-- A delivered public message is distinct from the messages that were taken. -/
def Distinguished (b : Backend) (Confirms : Framed → Bytes → Prop) (env : Env b) :
    HandleStep → Prop
  | .decryptMessage bytes => ∀ message, b.tlsDeserialize bytes = some (.publicMessage message) →
      Distinct b Confirms env message
  | _ => True

/-- A delivered proposal or commit is answered as a duplicate only if it was taken before, and a
proposal that was not becomes pending. -/
def DroppedOnlyIfAccepted (b : Backend) (env : Env b) : HandleStep → Prop
  | .decryptMessage bytes => ∀ message, b.tlsDeserialize bytes = some (.publicMessage message) →
      (∀ env', decryptMessage b bytes env = .error .duplicateMessage env' →
        AlreadyAccepted env.group message) ∧
      (∀ queued, Proposes b env message queued → env.seat.buffered = none →
        ¬ AlreadyAccepted env.group message →
        queued ∈ (finalState (decryptMessage b bytes) env).group.pendingProposals)
  | _ => True

/-- **Duplicates.** In every run in which the delivered handshake messages can be told apart by
what `is_duplicate_message` looks at, only messages that were taken before are dropped as
duplicates, and every other proposal becomes pending. -/
theorem duplicate_dropped_only_if_accepted (Confirms : Framed → Bytes → Prop)
    (serialises : Serialises b) (epochs : EpochLaws b) (laws : DuplicateLaws b Confirms)
    (env : Env b) (steps : List HandleStep)
    (distinguished : Guarded (HandleStep.perform b) (Distinguished b Confirms) env steps) :
    Guarded (HandleStep.perform b) (DroppedOnlyIfAccepted b) env steps := by
  refine guarded_mono _ _ _ ?_ env steps distinguished
  intro env step distinguished
  cases step with
  | commit call => trivial
  | encryptMessage message => trivial
  | decryptMessage bytes =>
    intro message decodes
    have distinct := distinguished message decodes
    constructor
    · intro env' answers
      obtain ⟨inner, dropped⟩ := inner_of_duplicate serialises decodes answers
      exact alreadyAccepted_of_answer serialises epochs laws distinct dropped
    · intro queued proposes quiet fresh
      exact pending_of_proposes serialises laws distinct decodes proposes quiet fresh

/-! ### On the sample backend -/

namespace Sample

theorem replicate_append_inj (i j : Nat) (xs ys : Bytes)
    (same : List.replicate i 1 ++ 0 :: xs = List.replicate j 1 ++ 0 :: ys) : i = j ∧ xs = ys := by
  induction i generalizing j with
  | zero => cases j with
    | zero => exact ⟨rfl, (List.cons.inj same).2⟩
    | succ j => exact absurd (List.cons.inj same).1 (by decide)
  | succ i ih => cases j with
    | zero => exact absurd (List.cons.inj same).1 (by decide)
    | succ j =>
      obtain ⟨indices, rest⟩ := ih j (List.cons.inj same).2
      exact ⟨congrArg _ indices, rest⟩

theorem tagOf_injective {first second : Framed} (same : tagOf first = tagOf second) :
    first = second := by
  obtain ⟨sender, content⟩ := first
  obtain ⟨sender', content'⟩ := second
  cases sender <;> cases sender' <;> simp only [tagOf, List.cons.injEq] at same <;>
    first
    | exact absurd same.1 (by decide)
    | (obtain ⟨rfl, rfl⟩ := replicate_append_inj _ _ _ _ same.2
       rfl)
    | (obtain ⟨-, rfl⟩ := same
       rfl)

theorem duplicateLaws (transport : Except Nat Unit) :
    DuplicateLaws (backend transport) (fun framed tag => tag = tagOf framed) where
  confirmed := by
    intro group framed tag computed confirms
    simp only [backend, Except.ok.injEq] at computed
    subst computed
    cases commit : group.epochCommit with
    | none =>
      rw [commit] at confirms
      cases sender : framed.sender <;> simp [tagOf, sender] at confirms
    | some created =>
      rw [commit] at confirms
      exact congrArg some (tagOf_injective confirms)
  generations := by
    intro group message after refused
    have content := congrArg Prod.fst refused
    simp only [backend, processMessage, processPublic] at content
    split at content
    next => simp [Except.map] at content
    next =>
      split at content
      next => simp [Except.map] at content
      next => split at content <;> simp [Except.map] at content
      next =>
        split at content
        next => simp [Except.map] at content
        next => split at content <;> simp [Except.map] at content
  queued := by
    intro group proposal
    simp [backend, changed]

end Sample

/-- A proposal that is delivered twice is dropped, and it is pending. -/
theorem duplicate_dropped_only_if_accepted_sample :
    outcome (decryptMessage (Sample.backend (.ok ())) [1, 5, 1, 2])
        (Sample.received (.ok ()) [[1, 5, 1, 2]]) = .error .duplicateMessage ∧
      Guarded (HandleStep.perform (Sample.backend (.ok ())))
        (DroppedOnlyIfAccepted (Sample.backend (.ok ()))) (Sample.handle (.ok ()))
        [.decryptMessage [1, 5, 1, 2], .encryptMessage [7], .decryptMessage [1, 5, 1, 2]] := by
  refine ⟨rfl, duplicate_dropped_only_if_accepted (fun framed tag => tag = Sample.tagOf framed)
    (Sample.serialises (.ok ())) (Sample.epochLaws (.ok ())) (Sample.duplicateLaws (.ok ())) _ _
    ⟨?_, trivial, ?_, trivial⟩⟩
  · intro message decodes
    cases decodes
    refine ⟨?_, ?_, ?_⟩
    · intro proposal body pending member
      cases member
    · intro content tag body
      cases body
    · intro merged answer queued merges
      refine absurd merges (Sample.not_merges rfl rfl ?_ ?_)
      · intro own
        cases own
      · intro processed commit taken
        cases taken
        simp
  · intro message decodes
    cases decodes
    refine ⟨?_, ?_, ?_⟩
    · intro proposal body pending member same
      cases member with
      | head => rfl
      | tail _ rest => cases rest
    · intro content tag body
      cases body
    · intro merged answer queued merges
      refine absurd merges (Sample.not_merges rfl rfl ?_ ?_)
      · intro own
        cases own
      · intro processed commit taken
        cases taken

/-- Members 1 and 2 propose the same change.  The proposal of member 2 is dropped as a duplicate
although no pending proposal is theirs, and the commit that refers to it waits for it. -/
theorem same_change_of_second_member_dropped :
    outcome (decryptMessage (Sample.backend (.ok ())) [1, 5, 2, 2])
        (Sample.received (.ok ()) [[1, 5, 1, 2]]) = .error .duplicateMessage ∧
      ¬ DroppedOnlyIfAccepted (Sample.backend (.ok ())) (Sample.received (.ok ()) [[1, 5, 1, 2]])
        (.decryptMessage [1, 5, 2, 2]) ∧
      (Sample.received (.ok ()) [[1, 5, 1, 2], [1, 5, 2, 2]]).group.pendingProposals =
        [⟨[18], .member 1, .remove 2⟩] ∧
      outcome (decryptMessage (Sample.backend (.ok ())) [3, 5, 34])
        (Sample.received (.ok ()) [[1, 5, 1, 2], [1, 5, 2, 2]]) = .error .bufferedCommit := by
  refine ⟨rfl, ?_, rfl, rfl⟩
  intro dropped
  obtain ⟨pending, member, sender, -⟩ := (dropped _ rfl).1 _ rfl
  cases member with
  | head => cases sender
  | tail _ rest => cases rest

end CoreCrypto.Conversation
