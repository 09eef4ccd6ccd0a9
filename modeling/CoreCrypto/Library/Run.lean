import Mathlib.Data.List.Basic

/-!
# Runs of a deterministic step function

A system that takes one labelled step after another, together with a condition on each
step that is judged in the state before it.  An invariant that every step meeting the
condition preserves holds at the end of every run whose steps all meet it.
-/

namespace CoreCrypto.Library

variable {σ α : Type}

/-- The state after the steps `labels`, taken from `s`. -/
def run (step : σ → α → σ) (s : σ) (labels : List α) : σ :=
  labels.foldl step s

/-- Every step of the run meets `cond` in the state it is taken in. -/
def Guarded (step : σ → α → σ) (cond : σ → α → Prop) : σ → List α → Prop
  | _, [] => True
  | s, a :: rest => cond s a ∧ Guarded step cond (step s a) rest

@[simp] theorem run_nil (step : σ → α → σ) (s : σ) : run step s [] = s := rfl

@[simp] theorem run_cons (step : σ → α → σ) (s : σ) (a : α) (rest : List α) :
    run step s (a :: rest) = run step (step s a) rest := rfl

@[simp] theorem guarded_nil (step : σ → α → σ) (cond : σ → α → Prop) (s : σ) :
    Guarded step cond s [] := trivial

@[simp] theorem guarded_cons (step : σ → α → σ) (cond : σ → α → Prop) (s : σ) (a : α)
    (rest : List α) :
    Guarded step cond s (a :: rest) ↔ cond s a ∧ Guarded step cond (step s a) rest := Iff.rfl

instance decidableGuarded (step : σ → α → σ) (cond : σ → α → Prop)
    [∀ s a, Decidable (cond s a)] : ∀ s labels, Decidable (Guarded step cond s labels)
  | _, [] => .isTrue trivial
  | s, a :: rest =>
    have := decidableGuarded step cond (step s a) rest
    inferInstanceAs (Decidable (cond s a ∧ Guarded step cond (step s a) rest))

@[simp] theorem run_append (step : σ → α → σ) (s : σ) (first second : List α) :
    run step s (first ++ second) = run step (run step s first) second :=
  List.foldl_append

theorem guarded_of_forall (step : σ → α → σ) (cond : σ → α → Prop) (always : ∀ s a, cond s a)
    (s : σ) (labels : List α) : Guarded step cond s labels := by
  induction labels generalizing s with
  | nil => trivial
  | cons a rest ih => exact ⟨always s a, ih _⟩

theorem guarded_of_forall_mem (step : σ → α → σ) (cond : α → Prop) (s : σ) (labels : List α)
    (each : ∀ a ∈ labels, cond a) : Guarded step (fun _ a => cond a) s labels := by
  induction labels generalizing s with
  | nil => trivial
  | cons a rest ih => exact ⟨each a (by simp), ih _ fun b inRest => each b (by simp [inRest])⟩

theorem guarded_mono (step : σ → α → σ) (cond prop : σ → α → Prop)
    (implies : ∀ s a, cond s a → prop s a) (s : σ) (labels : List α)
    (guarded : Guarded step cond s labels) : Guarded step prop s labels := by
  induction labels generalizing s with
  | nil => trivial
  | cons a rest ih => exact ⟨implies s a guarded.1, ih _ guarded.2⟩

/-- **Invariant rule.** What each guarded step preserves, a guarded run preserves. -/
theorem run_invariant (step : σ → α → σ) (cond : σ → α → Prop) (inv : σ → Prop)
    (preserved : ∀ s a, inv s → cond s a → inv (step s a)) (s : σ) (labels : List α)
    (initial : inv s) (guarded : Guarded step cond s labels) : inv (run step s labels) := by
  induction labels generalizing s with
  | nil => exact initial
  | cons a rest ih => exact ih _ (preserved s a initial guarded.1) guarded.2

/-- What follows from an invariant and the condition on a step, holds at every step of a guarded
run. -/
theorem guarded_of_invariant (step : σ → α → σ) (cond prop : σ → α → Prop) (inv : σ → Prop)
    (preserved : ∀ s a, inv s → cond s a → inv (step s a))
    (implies : ∀ s a, inv s → cond s a → prop s a) (s : σ) (labels : List α)
    (initial : inv s) (guarded : Guarded step cond s labels) : Guarded step prop s labels := by
  induction labels generalizing s with
  | nil => trivial
  | cons a rest ih =>
    exact ⟨implies s a initial guarded.1, ih _ (preserved s a initial guarded.1) guarded.2⟩

end CoreCrypto.Library
