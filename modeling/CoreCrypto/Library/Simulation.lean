import CoreCrypto.Library.Hoare

/-!
# Simulation between stateful operations that can fail

An operation on a detailed state follows one on an abstract state when both have the same
outcome and a view of the state the first leaves is the state the second leaves.  What the
view needs of the detailed state is an invariant of the first.
-/

namespace CoreCrypto.Library

variable {ε σ τ α β : Type}

/-- From `s` on, `op` has the outcome of `abs` and leaves its state, seen through `view`. -/
def FollowsAt (view : σ → τ) (inv : σ → Prop) (s : σ) (op : EStateM ε σ α)
    (abs : EStateM ε τ α) : Prop :=
  match op s with
  | .ok a t => abs (view s) = .ok a (view t) ∧ inv t
  | .error e t => abs (view s) = .error e (view t) ∧ inv t

/-- `op` follows `abs` from every state with the invariant. -/
def Follows (view : σ → τ) (inv : σ → Prop) (op : EStateM ε σ α) (abs : EStateM ε τ α) : Prop :=
  ∀ s, inv s → FollowsAt view inv s op abs

section Rules

variable {view : σ → τ} {inv : σ → Prop} {s : σ} {abs : EStateM ε τ α} {f : σ → EStateM ε σ α}

theorem follows_pure (a : α) (holds : inv s) :
    FollowsAt view inv s (pure a : EStateM ε σ α) (pure a) := ⟨rfl, holds⟩

theorem follows_throw (e : ε) (holds : inv s) :
    FollowsAt view inv s (throw e : EStateM ε σ α) (throw e) := ⟨rfl, holds⟩

theorem follows_bind {op : EStateM ε σ α} {f : α → EStateM ε σ β} {g : α → EStateM ε τ β}
    (first : FollowsAt view inv s op abs) (rest : ∀ a t, inv t → FollowsAt view inv t (f a) (g a)) :
    FollowsAt view inv s (op >>= f) (abs >>= g) := by
  unfold FollowsAt at first ⊢
  simp only [bind, EStateM.bind]
  cases called : op s with
  | ok a t =>
    rw [called] at first
    simp only [first.1]
    exact rest a t first.2
  | error e t =>
    rw [called] at first
    simp only [first.1]
    exact ⟨trivial, first.2⟩

/-- Both sides read their state: it is enough to follow from the states they have read. -/
theorem follows_get_bind {g : τ → EStateM ε τ α} (rest : FollowsAt view inv s (f s) (g (view s))) :
    FollowsAt view inv s (get >>= f) (get >>= g) := rest

/-- Only the detailed side reads its state. -/
theorem follows_get_left
    (rest : FollowsAt view inv s (f s) abs) : FollowsAt view inv s (get >>= f) abs := rest

theorem follows_attempt {op : EStateM ε σ α} (first : FollowsAt view inv s op abs) :
    FollowsAt view inv s (attempt op : EStateM ε σ (Except ε α)) (attempt abs) := by
  unfold FollowsAt attempt at *
  cases called : op s with
  | ok a t =>
    rw [called] at first
    simp only [first.1]
    exact ⟨trivial, first.2⟩
  | error e t =>
    rw [called] at first
    simp only [first.1]
    exact ⟨trivial, first.2⟩

/-- The state a followed operation leaves, seen through the view. -/
theorem FollowsAt.view_finalState {op : EStateM ε σ α} (follows : FollowsAt view inv s op abs) :
    view (finalState op s) = finalState abs (view s) := by
  unfold FollowsAt at follows
  unfold finalState
  cases called : op s with
  | ok a t =>
    rw [called] at follows
    rw [follows.1]
  | error e t =>
    rw [called] at follows
    rw [follows.1]

end Rules

end CoreCrypto.Library
