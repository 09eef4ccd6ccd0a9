import CoreCrypto.Conversation.Activity
import CoreCrypto.Conversation.Committing

/-!
# The sample backend keeps the laws

What the results assume of OpenMLS holds of the stand-in that the model is evaluated on, so the
assumptions can be met together.
-/

namespace CoreCrypto.Conversation.Sample

open Keystore Library

variable (transport : Except Nat Unit)

theorem epochLaws : EpochLaws (backend transport) where
  processed := fun group message => .refl group
  stored := fun group proposal => ⟨rfl, rfl, rfl, rfl⟩
  stagedMerged := by
    intro group commit after merged
    cases merged
    exact ⟨rfl, rfl, rfl, rfl⟩
  stagedFailed := by
    intro group commit code after failed
    cases failed
  pendingMerged := by
    intro group after merged
    simp only [backend] at merged
    split at merged
    next => cases merged; exact ⟨rfl, rfl, rfl, rfl⟩
    next => cases merged
  pendingFailed := by
    intro group code after failed
    simp only [backend] at failed
    split at failed
    next => cases failed
    next => cases failed; exact .refl group
  missing := by
    intro group message after missing
    have content := congrArg Prod.fst missing
    cases message with
    | publicMessage message =>
      by_contra other
      have wrong : processPublic group message = .error .wrongEpoch := if_pos other
      simp [backend, processMessage, wrong, Except.map] at content
    | privateMessage message =>
      simp only [backend, processMessage, processPrivate] at content
      split at content
      next => simp [Except.map] at content
      next => split at content <;> simp [Except.map] at content

theorem roundTrips : RoundTrips (backend transport) := by
  intro group state serialised
  cases serialised
  rfl

theorem activityLaws : ActivityLaws (backend transport) where
  ownCommit := by
    intro group after merged
    simp only [backend] at merged
    split at merged
    next => cases merged; rfl
    next => cases merged
  keysDeleted := fun group => .refl group
  proposalRemoved := by
    intro group reference
    simp only [backend]
    split
    next => exact ⟨rfl, rfl, rfl, rfl⟩
    next => exact .refl group

theorem committingLaws : CommittingLaws (backend transport) where
  epochs := epochLaws transport
  created := fun _ _ _ _ => ⟨rfl, rfl, rfl, rfl⟩
  proposedAdd := fun _ _ _ _ => ⟨rfl, rfl, rfl, rfl⟩
  proposedRemove := fun _ _ _ _ => ⟨rfl, rfl, rfl, rfl⟩
  encrypted := fun _ _ _ _ => ⟨rfl, rfl, rfl, rfl⟩
  cleared := fun _ => ⟨rfl, rfl, rfl, rfl⟩
  ownCommit := (activityLaws transport).ownCommit

/-- A message that OpenMLS takes as something else than a commit has none merged. -/
theorem not_merges {env merged : Env (backend (.ok ()))} {message : MlsMessageIn}
    {answer : DecryptedMessage (backend (.ok ()))} {queued : Option Nat} {parsed : ParsedMessage}
    {result : Except Error (ProcessedMessage Unit)} {staging : Group}
    (parses : parseMessage (backend (.ok ())) env.group message = .ok parsed)
    (processes : processOnGroup (backend (.ok ())) parsed env.group = (result, staging))
    (foreign : result ≠ .error (.processing .ownCommit))
    (other : ∀ processed commit, result = .ok processed →
      processed.content ≠ .stagedCommitMessage commit) :
    ¬ Merges (backend (.ok ())) env message merged answer queued := by
  intro merges
  cases merges with
  | foreign valid =>
    have same := valid.parses
    rw [parses] at same
    cases same
    exact other valid.processed valid.commit
      (congrArg Prod.fst (processes.symm.trans valid.processes)) valid.stages
  | own echo answers =>
    have same := echo.parses
    rw [parses] at same
    cases same
    exact foreign (congrArg Prod.fst (processes.symm.trans echo.processes))

/-- A commit of another member is not taken for an own one. -/
theorem foreign_of_sender {transport : Except Nat Unit} {env : Env (backend transport)}
    {message : PublicMessageIn} (other : message.sender ≠ .member env.group.ownLeafIndex) :
    IsEmpty (OwnEcho (backend transport) env (.publicMessage message)) := by
  refine ⟨fun echo => ?_⟩
  obtain ⟨verdict, called, -⟩ := processOnGroup_called echo.processes
  have unchanged : env.group = echo.staging := congrArg Prod.snd called
  have tagged := echo.tagged
  rw [← unchanged] at tagged
  simp only [extractConfirmationTagFromOwnCommit] at tagged
  split at tagged
  next own => exact other own.2
  next => cases tagged

end CoreCrypto.Conversation.Sample
