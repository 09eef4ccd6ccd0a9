import Mathlib.Logic.Basic
import Std.Internal.Do

/-!
# Triples for stateful operations that can fail

An operation of `EStateM` keeps the state it has reached when it throws.  A triple states
what holds of the state after a result and what holds of it after an error.
-/

namespace CoreCrypto.Library

variable {ε ε' σ α β : Type} {a : α} {f : α → EStateM ε σ β} {y : β} {s t : σ}

/-- From a state with `pre`, a result leaves `post` and an error leaves `err`. -/
def Triple (pre : σ → Prop) (op : EStateM ε σ α) (post : α → σ → Prop) (err : ε → σ → Prop) :
    Prop :=
  ∀ s, pre s → match op s with
    | .ok a t => post a t
    | .error e t => err e t

/-- The state an operation leaves, whether it fails or not. -/
def finalState (op : EStateM ε σ α) (s : σ) : σ :=
  match op s with
  | .ok _ t => t
  | .error _ t => t

/-- What an operation returns, apart from the state it leaves. -/
def outcome (op : EStateM ε σ α) (s : σ) : Except ε α :=
  match op s with
  | .ok a _ => .ok a
  | .error e _ => .error e

theorem run_of_outcome {op : EStateM ε σ α} (ok : outcome op s = .ok a) :
    op s = .ok a (finalState op s) := by
  simp only [outcome, finalState] at ok ⊢
  cases called : op s with
  | ok result t =>
    rw [called] at ok
    cases ok
    rfl
  | error e t =>
    rw [called] at ok
    cases ok

/-- Runs an operation and hands its outcome, error or not, to the caller. -/
def attempt (op : EStateM ε σ α) : EStateM ε' σ (Except ε α) := fun s =>
  match op s with
  | .ok a t => .ok (.ok a) t
  | .error e t => .ok (.error e) t

theorem bind_eq_ok {op : EStateM ε σ α} :
    (op >>= f) s = .ok y t ↔ ∃ x u, op s = .ok x u ∧ f x u = .ok y t := by
  simp only [bind, EStateM.bind]
  constructor
  · intro succeeded
    cases called : op s with
    | ok x u =>
      rw [called] at succeeded
      exact ⟨x, u, rfl, succeeded⟩
    | error e u =>
      rw [called] at succeeded
      cases succeeded
  · rintro ⟨x, u, first, second⟩
    rw [first]
    exact second

theorem run_bind_ok {op : EStateM ε σ α} (ok : op s = .ok a t) : (op >>= f) s = f a t := by
  simp only [bind, EStateM.bind, ok]

theorem run_bind_error {op : EStateM ε σ α} {e : ε}
    (failed : op s = .error e t) : (op >>= f) s = .error e t := by
  simp only [bind, EStateM.bind, failed]

theorem eq_ok_of_attempt {op : EStateM ε σ α}
    (attempted : (attempt op : EStateM ε' σ (Except ε α)) s = .ok (.ok a) t) : op s = .ok a t := by
  unfold attempt at attempted
  cases called : op s with
  | ok x u =>
    rw [called] at attempted
    cases attempted
    rfl
  | error e u =>
    rw [called] at attempted
    cases attempted

theorem finalState_discard (op : EStateM ε σ α) (result : β) (s : σ) :
    finalState (discard op >>= fun _ => pure result) s = finalState op s := by
  simp only [finalState, bind, EStateM.bind, discard, Functor.discard, Functor.mapConst,
    Function.comp, EStateM.map]
  cases op s <;> rfl

theorem finalState_adaptExcept (wrap : ε → ε') (op : EStateM ε σ α) (s : σ) :
    finalState (EStateM.adaptExcept wrap op) s = finalState op s := by
  simp only [finalState, EStateM.adaptExcept]
  cases op s <;> rfl

theorem finalState_bind_pure {op : EStateM ε σ α} (unchanged : ∀ a s, finalState (f a) s = s)
    (s : σ) : finalState (op >>= f) s = finalState op s := by
  cases called : op s with
  | ok a t =>
    have rest := unchanged a t
    simp only [finalState, run_bind_ok called, called] at rest ⊢
    exact rest
  | error e t => simp only [finalState, run_bind_error called, called]

theorem outcome_of_bind {op : EStateM ε σ α}
    (ok : outcome (op >>= f) s = .ok y) : ∃ a, outcome op s = .ok a := by
  cases called : op s with
  | ok a t => exact ⟨a, by simp [outcome, called]⟩
  | error e t => simp [outcome, run_bind_error called] at ok

theorem outcome_adaptExcept_ok {wrap : ε → ε'} {op : EStateM ε σ α}
    (ok : outcome (EStateM.adaptExcept wrap op) s = .ok a) : outcome op s = .ok a := by
  simp only [outcome, EStateM.adaptExcept] at ok ⊢
  cases called : op s with
  | ok result t =>
    rw [called] at ok
    cases ok
    rfl
  | error e t =>
    rw [called] at ok
    cases ok

section Rules

variable {pre : σ → Prop} {err : ε → σ → Prop} {op : EStateM ε σ α} {post : α → σ → Prop}
  {f : σ → EStateM ε σ α} {inv : σ → Prop}

theorem triple_pure {a : α} (now : ∀ s, pre s → post a s) :
    Triple pre (pure a : EStateM ε σ α) post err := now

theorem triple_throw {e : ε} (now : ∀ s, pre s → err e s) :
    Triple pre (throw e : EStateM ε σ α) post err := now

theorem triple_modify {f : σ → σ} {post : PUnit → σ → Prop} (now : ∀ s, pre s → post ⟨⟩ (f s)) :
    Triple pre (modify f : EStateM ε σ PUnit) post err := now

theorem triple_bind (mid : α → σ → Prop) {f : α → EStateM ε σ β} {post : β → σ → Prop}
    (first : Triple pre op mid err) (rest : ∀ a, Triple (mid a) (f a) post err) :
    Triple pre (op >>= f) post err := by
  intro s holds
  have middle := first s holds
  simp only [bind, EStateM.bind]
  cases called : op s with
  | ok a t =>
    rw [called] at middle
    exact rest a t middle
  | error e t =>
    rw [called] at middle
    exact middle

/-- The state is read at the start: the rest may assume what held of it. -/
theorem triple_get_bind (rest : ∀ s, pre s → Triple (fun t => t = s ∧ pre t) (f s) post err) :
    Triple pre (get >>= f) post err := by
  intro s holds
  exact rest s holds s ⟨rfl, holds⟩

/-- The state is read, and the rest does not need to know it. -/
theorem triple_read (rest : ∀ s, Triple pre (f s) post err) : Triple pre (get >>= f) post err :=
  fun s holds => rest s s holds

theorem triple_weaken {pre' : σ → Prop} {post' : α → σ → Prop} {err' : ε → σ → Prop}
    (triple : Triple pre' op post' err') (before : ∀ s, pre s → pre' s)
    (after : ∀ a s, post' a s → post a s) (failed : ∀ e s, err' e s → err e s) :
    Triple pre op post err := by
  intro s holds
  have result := triple s (before s holds)
  cases called : op s with
  | ok a t =>
    rw [called] at result
    exact after a t result
  | error e t =>
    rw [called] at result
    exact failed e t result

theorem triple_of_pre {pre' : σ → Prop} (triple : Triple pre' op post err)
    (before : ∀ s, pre s → pre' s) : Triple pre op post err :=
  fun s holds => triple s (before s holds)

theorem triple_attempt {err' : ε' → σ → Prop} (triple : Triple pre op post err) :
    Triple pre (attempt op)
      (fun outcome s => match outcome with
        | .ok a => post a s
        | .error e => err e s) err' := by
  intro s holds
  have result := triple s holds
  simp only [attempt]
  cases called : op s with
  | ok a t =>
    rw [called] at result
    exact result
  | error e t =>
    rw [called] at result
    exact result

theorem triple_discard {after : σ → Prop} (triple : Triple pre op (fun _ => after) err) :
    Triple pre (discard op) (fun _ => after) err := by
  intro s holds
  have result := triple s holds
  simp only [discard, Functor.discard, Functor.mapConst]
  cases called : op s with
  | ok a t =>
    rw [called] at result
    simpa [EStateM.map, called] using result
  | error e t =>
    rw [called] at result
    simpa [EStateM.map, called] using result

theorem triple_forM {γ : Type} {xs : List γ} {body : γ → EStateM ε σ PUnit}
    (round : ∀ x ∈ xs, Triple inv (body x) (fun _ => inv) err) :
    Triple inv (xs.forM body) (fun _ => inv) err := by
  induction xs with
  | nil => exact triple_pure (fun _ holds => holds)
  | cons x rest ih =>
    change Triple inv (body x >>= fun _ => rest.forM body) _ _
    apply triple_bind (fun _ => inv) (round x List.mem_cons_self)
    intro _
    exact ih (fun y member => round y (List.mem_cons_of_mem _ member))

/-- What a triple says of the state an operation leaves, when it says the same of both
outcomes. -/
theorem triple_finalState (triple : Triple pre op (fun _ => inv) (fun _ => inv)) {s : σ}
    (holds : pre s) : inv (finalState op s) := by
  have result := triple s holds
  unfold finalState
  cases called : op s with
  | ok a t =>
    rw [called] at result
    exact result
  | error e t =>
    rw [called] at result
    exact result

end Rules

end CoreCrypto.Library
