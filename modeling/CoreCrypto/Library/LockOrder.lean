import Mathlib.Logic.Relation

/-!
# Waiting in a circle

Tasks that hold locks and ask for more.  If every task asks only for locks that come after
those it holds, in some order, no tasks wait for each other in a circle.
-/

namespace CoreCrypto.Library

variable {ι κ : Type} (asks holds : ι → κ → Prop) {i : ι}

/-- The first task asks for a lock that the second one holds. -/
def Blocks (i j : ι) : Prop :=
  ∃ lock, asks i lock ∧ holds j lock

/-- Some tasks wait for each other in a circle. -/
def Deadlocked : Prop :=
  ∃ i, Relation.TransGen (Blocks asks holds) i i

variable {asks holds}

/-- Along a chain of waiting tasks the locks only go up. -/
theorem rank_le_of_chain {rank : κ → Nat}
    (ordered : ∀ i lock held, asks i lock → holds i held → rank held < rank lock) {k : ι}
    (chain : Relation.TransGen (Blocks asks holds) i k) :
    ∃ lock held, asks i lock ∧ holds k held ∧ rank lock ≤ rank held := by
  induction chain with
  | single blocks =>
    obtain ⟨lock, asked, held⟩ := blocks
    exact ⟨lock, lock, asked, held, Nat.le_refl _⟩
  | tail _ blocks ih =>
    obtain ⟨lock, held, asked, holdsHeld, below⟩ := ih
    obtain ⟨next, asksNext, holdsNext⟩ := blocks
    have above := ordered _ next held asksNext holdsHeld
    exact ⟨lock, next, asked, holdsNext, by omega⟩

/-- **Lock order.** -/
theorem not_deadlocked_of_rank {rank : κ → Nat}
    (ordered : ∀ i lock held, asks i lock → holds i held → rank held < rank lock) :
    ¬ Deadlocked asks holds := by
  rintro ⟨i, circle⟩
  obtain ⟨lock, held, asked, holdsHeld, below⟩ := rank_le_of_chain ordered circle
  have above := ordered i lock held asked holdsHeld
  omega

theorem deadlocked_of_pair {j : ι} {first second : κ} (asksFirst : asks i first)
    (holdsFirst : holds j first) (asksSecond : asks j second) (holdsSecond : holds i second) :
    Deadlocked asks holds :=
  ⟨i, .tail (.single ⟨first, asksFirst, holdsFirst⟩) ⟨second, asksSecond, holdsSecond⟩⟩

end CoreCrypto.Library
