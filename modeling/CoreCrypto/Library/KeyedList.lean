import Mathlib.Data.List.Nodup
import Mathlib.Data.List.Induction
import Mathlib.Data.List.MinMax

/-!
# Lists of keyed elements

A table as the list of its rows, told apart by a key, and a log of writes of which the last
one to a key counts, or the one with the greatest rank.
-/

namespace CoreCrypto.Library

variable {α κ : Type} (key : α → κ) {xs : List α} {x : α} {k : κ}

/-- No two rows have one key. -/
def DistinctKeys (rows : List α) : Prop :=
  (rows.map key).Nodup

theorem length_eq_of_mem_iff {ys : List α} (distinctXs : DistinctKeys key xs)
    (distinctYs : DistinctKeys key ys) (same : ∀ x, x ∈ xs ↔ x ∈ ys) : xs.length = ys.length :=
  ((List.perm_ext_iff_of_nodup (.of_map _ distinctXs) (.of_map _ distinctYs)).mpr same).length_eq

theorem distinctKeys_snoc {rows : List α} {row : α} :
    DistinctKeys key (rows ++ [row]) ↔ DistinctKeys key rows ∧ key row ∉ rows.map key := by
  rw [DistinctKeys, List.map_append, List.map_singleton, ← List.concat_eq_append, List.nodup_concat]
  exact and_comm

variable [DecidableEq κ]

instance (rows : List α) : Decidable (DistinctKeys key rows) :=
  inferInstanceAs (Decidable (rows.map key).Nodup)

theorem find?_key_iff {rows : List α} (distinct : DistinctKeys key rows) (k : κ) (row : α) :
    rows.find? (fun e => key e = k) = some row ↔ row ∈ rows ∧ key row = k := by
  constructor
  · intro found
    exact ⟨List.mem_of_find?_eq_some found, by simpa using List.find?_some found⟩
  · rintro ⟨member, rfl⟩
    cases found : rows.find? (fun e => key e = key row) with
    | none =>
      have none := List.find?_eq_none.mp found row member
      simp at none
    | some other =>
      have sameKey : key other = key row := by simpa using List.find?_some found
      rw [List.inj_on_of_nodup_map distinct (List.mem_of_find?_eq_some found) member sameKey]

/-! ### The last element with a key -/

def lastBy (xs : List α) (k : κ) : Option α :=
  (xs.filter (fun x => key x = k)).getLast?

@[simp] theorem lastBy_nil (k : κ) : lastBy key [] k = none := rfl

@[simp] theorem lastBy_append_self (xs : List α) (x : α) :
    lastBy key (xs ++ [x]) (key x) = some x := by
  simp [lastBy, List.filter_append]

theorem lastBy_append_other (xs : List α) (other : key x ≠ k) :
    lastBy key (xs ++ [x]) k = lastBy key xs k := by
  simp [lastBy, List.filter_append, other]

theorem lastBy_eq_none : lastBy key xs k = none ↔ ∀ x ∈ xs, key x ≠ k := by
  simp [lastBy]

theorem mem_of_lastBy (last : lastBy key xs k = some x) : x ∈ xs ∧ key x = k := by
  simpa using List.mem_filter.mp (List.mem_of_getLast? last)

/-! ### The first element of greatest rank -/

omit [DecidableEq κ] in
/-- `argmax` keeps the first of the elements of greatest rank: those before it rank lower, those
after it do not rank higher. -/
theorem argmax_eq_some_iff_split [LinearOrder κ] {xs : List α} {x : α} :
    xs.argmax key = some x ↔
      ∃ before after, xs = before ++ x :: after ∧ (∀ y ∈ before, key y < key x) ∧
        ∀ y ∈ after, key y ≤ key x := by
  induction xs generalizing x with
  | nil => simp
  | cons first rest ih =>
    constructor
    · intro greatest
      rw [List.argmax_cons] at greatest
      cases best : rest.argmax key with
      | none =>
        rw [best] at greatest
        obtain rfl : first = x := by simpa using greatest
        rw [List.argmax_eq_none] at best
        exact ⟨[], [], by rw [best]; rfl, by simp, by simp⟩
      | some z =>
        rw [best] at greatest
        simp only at greatest
        split at greatest
        next higher =>
          obtain rfl : z = x := by simpa using greatest
          obtain ⟨before, after, rfl, lower, noHigher⟩ := ih.mp best
          refine ⟨first :: before, after, rfl, ?_, noHigher⟩
          intro y inBefore
          rcases List.mem_cons.mp inBefore with rfl | inBefore
          · exact higher
          · exact lower y inBefore
        next notHigher =>
          obtain rfl : first = x := by simpa using greatest
          refine ⟨[], rest, rfl, by simp, fun y inRest => ?_⟩
          exact (List.le_of_mem_argmax inRest best).trans (not_lt.mp notHigher)
    · rintro ⟨before, after, split, lower, noHigher⟩
      rw [List.argmax_cons]
      cases before with
      | nil =>
        obtain ⟨rfl, rfl⟩ : first = x ∧ rest = after := by simpa using split
        cases best : rest.argmax key with
        | none => rfl
        | some z =>
          have notHigher := noHigher z (List.argmax_mem best)
          simp [not_lt.mpr notHigher]
      | cons head before =>
        obtain ⟨rfl, rfl⟩ : first = head ∧ rest = before ++ x :: after := by simpa using split
        have best := ih.mpr ⟨before, after, rfl, fun y inBefore => lower y (by simp [inBefore]),
          noHigher⟩
        rw [best]
        simp [lower first (by simp)]

end CoreCrypto.Library
