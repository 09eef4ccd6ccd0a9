import Mathlib.Data.List.Forall2
import Mathlib.Data.List.Lattice

/-!
# Computations that can fail

Taking computations of `Except` apart.
-/

namespace CoreCrypto.Library.Fallible

variable {ε α β : Type} {x : Except ε α} {xs : List α} {ys : List β} {f : α → Except ε β}

@[simp] theorem ok_bind (a : α) (k : α → Except ε β) : (Except.ok a >>= k) = k a := rfl

@[simp] theorem error_bind (e : ε) (k : α → Except ε β) :
    ((Except.error e : Except ε α) >>= k) = .error e := rfl

theorem bind_eq_ok {k : α → Except ε β} {b : β}
    (ok : x >>= k = .ok b) : ∃ a, x = .ok a ∧ k a = .ok b := by
  cases x with
  | error e => cases ok
  | ok a => exact ⟨a, rfl, ok⟩

theorem mapM_eq_ok (each : ∀ x ∈ xs, ∃ y, f x = .ok y) :
    ∃ ys, xs.mapM f = .ok ys ∧ ∀ y, y ∈ ys ↔ ∃ x ∈ xs, f x = .ok y := by
  induction xs with
  | nil => exact ⟨[], rfl, by simp⟩
  | cons x rest ih =>
    obtain ⟨y, first⟩ := each x (by simp)
    obtain ⟨ys, others, members⟩ := ih fun x member => each x (by simp [member])
    refine ⟨y :: ys, ?_, fun z => ?_⟩
    · rw [List.mapM_cons, first, others]
      rfl
    · simp only [List.mem_cons, members, exists_eq_or_imp, first, Except.ok.injEq]
      exact or_congr_left eq_comm

/-- A successful traversal relates the elements one by one. -/
theorem mapM_eq_ok_iff : xs.mapM f = .ok ys ↔ List.Forall₂ (fun x y => f x = .ok y) xs ys := by
  induction xs generalizing ys with
  | nil =>
    rw [List.forall₂_nil_left_iff]
    exact ⟨fun ok => (Except.ok.inj ok).symm, fun empty => congrArg Except.ok empty.symm⟩
  | cons x rest ih =>
    rw [List.mapM_cons, List.forall₂_cons_left_iff]
    constructor
    · intro ok
      obtain ⟨y, first, others⟩ := bind_eq_ok ok
      obtain ⟨tail, mapped, ⟨⟩⟩ := bind_eq_ok others
      exact ⟨y, tail, first, ih.mp mapped, rfl⟩
    · rintro ⟨y, tail, first, others, rfl⟩
      rw [first, ih.mpr others]
      rfl

theorem mapM_succeeds_iff : (∃ ys, xs.mapM f = .ok ys) ↔ ∀ x ∈ xs, ∃ y, f x = .ok y := by
  constructor
  · rintro ⟨ys, ok⟩ x member
    have related := mapM_eq_ok_iff.mp ok
    clear ok
    induction related with
    | nil => cases member
    | cons first _ ih =>
      rcases List.mem_cons.mp member with rfl | inRest
      · exact ⟨_, first⟩
      · exact ih inRest
  · intro each
    obtain ⟨ys, ok, -⟩ := mapM_eq_ok each
    exact ⟨ys, ok⟩

theorem mem_of_mapM (ok : xs.mapM f = .ok ys) (y : β) : y ∈ ys ↔ ∃ x ∈ xs, f x = .ok y := by
  obtain ⟨ys', ok', members⟩ := mapM_eq_ok (mapM_succeeds_iff.mp ⟨ys, ok⟩)
  rw [ok] at ok'
  cases ok'
  exact members y

theorem mapError_eq_ok {f : ε → β} {a : α} : x.mapError f = .ok a ↔ x = .ok a := by
  cases x <;> simp [Except.mapError]

/-- Where only one error can come up, one failing element makes it that error. -/
theorem mapM_eq_error {e : ε} (only : ∀ x e', f x = .error e' → e' = e)
    (failing : ∃ x ∈ xs, ∀ y, f x ≠ .ok y) : xs.mapM f = .error e := by
  induction xs with
  | nil => simp at failing
  | cons x rest ih =>
    rw [List.mapM_cons]
    cases first : f x with
    | error e' =>
      rw [only x e' first]
      rfl
    | ok y =>
      obtain ⟨z, member, fails⟩ := failing
      rcases List.mem_cons.mp member with rfl | inRest
      · exact absurd first (fails y)
      · rw [ih ⟨z, inRest, fails⟩]
        rfl

/-! ### Sets that are extended one element after the other -/

/-- When a computation of a set succeeds, and what is in the set then. -/
structure Yields (result : Except ε (List β)) (possible : Prop) (found : β → Prop) : Prop where
  succeeds_iff : (∃ set, result = .ok set) ↔ possible
  mem_iff : ∀ set, result = .ok set → ∀ b, b ∈ set ↔ found b

namespace Yields

variable {ε' : Type} {result : Except ε (List β)} {possible : Prop} {found : β → Prop}

theorem mapError (yields : Yields result possible found) (wrap : ε → ε') :
    Yields (result.mapError wrap) possible found where
  succeeds_iff := by
    rw [← yields.succeeds_iff]
    exact exists_congr fun set => mapError_eq_ok
  mem_iff set ok := yields.mem_iff set (mapError_eq_ok.mp ok)

theorem congr (yields : Yields result possible found) {possible' : Prop} {found' : β → Prop}
    (possible_iff : possible' ↔ possible) (found_iff : possible → ∀ b, found' b ↔ found b) :
    Yields result possible' found' where
  succeeds_iff := by rw [possible_iff, yields.succeeds_iff]
  mem_iff set ok b := by
    rw [yields.mem_iff set ok, found_iff (yields.succeeds_iff.mp ⟨set, ok⟩)]

end Yields

/-- Extends a set by what each element gives, up to the first element that fails. -/
def extendAll [DecidableEq β] (f : α → Except ε (List β)) (acc : List β) (xs : List α) :
    Except ε (List β) :=
  xs.foldlM (fun acc x => (f x).map fun found => found ∪ acc) acc

section ExtendAll

variable [DecidableEq β] {f : α → Except ε (List β)}

theorem extendAll_cons (acc : List β) (x : α) (rest : List α) :
    extendAll f acc (x :: rest) = f x >>= fun found => extendAll f (found ∪ acc) rest := by
  unfold extendAll
  rw [List.foldlM_cons]
  cases f x <;> rfl

/-- The set can be extended by all of them iff no element fails. -/
theorem extendAll_succeeds_iff (acc : List β) (xs : List α) :
    (∃ set, extendAll f acc xs = .ok set) ↔ ∀ x ∈ xs, ∃ found, f x = .ok found := by
  induction xs generalizing acc with
  | nil => exact ⟨fun _ x member => absurd member List.not_mem_nil, fun _ => ⟨acc, rfl⟩⟩
  | cons x rest ih =>
    rw [extendAll_cons, List.forall_mem_cons]
    cases first : f x with
    | error e => simp
    | ok found =>
      rw [ok_bind, ih]
      simp

theorem mem_extendAll {acc set : List β} {xs : List α} (extended : extendAll f acc xs = .ok set)
    (b : β) : b ∈ set ↔ b ∈ acc ∨ ∃ x ∈ xs, ∃ found, f x = .ok found ∧ b ∈ found := by
  induction xs generalizing acc with
  | nil =>
    cases extended
    simp
  | cons x rest ih =>
    rw [extendAll_cons] at extended
    obtain ⟨found, first, others⟩ := bind_eq_ok extended
    rw [ih others, List.mem_union_iff, List.exists_mem_cons_iff, first]
    simp only [Except.ok.injEq, exists_eq_left']
    tauto

namespace Yields

variable {result : Except ε (List β)} {possible : Prop} {found : β → Prop} {readable : α → Prop}
  {given : α → β → Prop}

/-- A set that is computed first and then extended by what each element gives. -/
theorem extendAll (yields : Yields result possible found)
    (each : ∀ x, Yields (f x) (readable x) (given x)) (xs : List α) :
    Yields (result >>= fun acc => Fallible.extendAll f acc xs) (possible ∧ ∀ x ∈ xs, readable x)
      (fun b => found b ∨ ∃ x ∈ xs, given x b) where
  succeeds_iff := by
    simp only [← yields.succeeds_iff, ← (each _).succeeds_iff]
    cases result with
    | error e => simp
    | ok acc =>
      rw [ok_bind, extendAll_succeeds_iff]
      simp
  mem_iff set ok b := by
    obtain ⟨acc, first, extended⟩ := bind_eq_ok ok
    have gave : ∀ x ∈ xs, ∃ set, f x = .ok set := (extendAll_succeeds_iff acc xs).mp ⟨set, extended⟩
    rw [mem_extendAll extended, yields.mem_iff acc first]
    refine or_congr_right (exists_congr fun x => and_congr_right fun member => ?_)
    obtain ⟨set, ok⟩ := gave x member
    rw [← (each x).mem_iff set ok, ok]
    simp

/-- A set that is extended from nothing. -/
theorem fromEmpty (each : ∀ x, Yields (f x) (readable x) (given x)) (xs : List α) :
    Yields (Fallible.extendAll f [] xs) (∀ x ∈ xs, readable x) (fun b => ∃ x ∈ xs, given x b) := by
  have empty : Yields (.ok [] : Except ε (List β)) True (fun _ => False) :=
    ⟨by simp, by rintro _ ⟨⟩ b; simp⟩
  refine (empty.extendAll each xs).congr ?_ fun _ b => ?_
  · simp
  · simp

end Yields

end ExtendAll

theorem foldlM_error {f : β → α → Except ε β} {p : ε → Prop}
    (each : ∀ b a e, f b a = .error e → p e) (xs : List α) (b : β) (e : ε)
    (failed : xs.foldlM f b = .error e) : p e := by
  induction xs generalizing b with
  | nil => cases failed
  | cons x rest ih =>
    rw [List.foldlM_cons] at failed
    cases first : f b x with
    | error e' =>
      rw [first] at failed
      cases failed
      exact each b x e first
    | ok b' =>
      rw [first] at failed
      exact ih b' failed

end CoreCrypto.Library.Fallible
