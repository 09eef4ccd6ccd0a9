import Mathlib.Data.List.Perm.Subperm
import Mathlib.Data.List.Range
import Mathlib.Data.Nat.ModEq

/-!
# Occupied places

A strictly increasing list of numbers as the occupied places of a row, with gaps between them:
how many places below a given one are free, and what its first so many entries are.  And the
numbers of a rotation: `n` different ones below `n` are all of them.
-/

namespace CoreCrypto.Library

theorem perm_range_of_nodup {xs : List Nat} (distinct : xs.Nodup)
    (bounded : ∀ x ∈ xs, x < xs.length) : xs.Perm (List.range xs.length) := by
  have subset : xs ⊆ List.range xs.length := fun x inXs => List.mem_range.mpr (bounded x inXs)
  exact (List.subperm_of_subset distinct subset).perm_of_length_le (by simp)

theorem mod_eq_of_rotated {n shift x y : Nat}
    (same : (shift % n + x % n) % n = (shift % n + y % n) % n) : x % n = y % n := by
  have congruent : shift % n + x % n ≡ shift % n + y % n [MOD n] := same
  simpa [Nat.ModEq] using Nat.ModEq.add_left_cancel' _ congruent

/-- The number of free places below `place`. -/
def gapsBelow (occupied : List Nat) (place : Nat) : Nat :=
  ((List.range place).filter (· ∉ occupied)).length

variable {occupied : List Nat}

theorem length_below_add_gapsBelow (increasing : occupied.Pairwise (· < ·)) (place : Nat) :
    (occupied.filter (· < place)).length + gapsBelow occupied place = place := by
  have same : (occupied.filter (· < place)).Perm ((List.range place).filter (· ∈ occupied)) := by
    rw [List.perm_ext_iff_of_nodup ((increasing.imp Nat.ne_of_lt).filter _)
      (List.nodup_range.filter _)]
    intro k
    simp [and_comm]
  have total := List.length_eq_length_filter_add (l := List.range place) (· ∈ occupied)
  rw [List.length_range] at total
  rw [same.length_eq, gapsBelow]
  simpa using total.symm

theorem below_append_above (increasing : occupied.Pairwise (· < ·)) (place : Nat) :
    occupied.filter (· < place) ++ occupied.filter (place ≤ ·) = occupied := by
  induction occupied with
  | nil => rfl
  | cons first rest ih =>
    obtain ⟨lowest, increasingRest⟩ := List.pairwise_cons.mp increasing
    by_cases below : first < place
    · have notAbove : ¬ place ≤ first := by omega
      simp [below, notAbove, ih increasingRest]
    · have noneBelow : rest.filter (· < place) = [] := by
        refine List.filter_eq_nil_iff.mpr fun k inRest => ?_
        have later := lowest k inRest
        simp only [decide_eq_true_eq]
        omega
      have allAbove : rest.filter (place ≤ ·) = rest := by
        refine List.filter_eq_self.mpr fun k inRest => ?_
        have later := lowest k inRest
        simp only [decide_eq_true_eq]
        omega
      simp [below, Nat.not_lt.mp below, noneBelow, allAbove]

/-- The first `place` entries are those below `place`, and as many of those above as there are
gaps below. -/
theorem take_place (increasing : occupied.Pairwise (· < ·)) (place : Nat) :
    occupied.take place =
      occupied.filter (· < place) ++
        (occupied.filter (place ≤ ·)).take (gapsBelow occupied place) := by
  have total := length_below_add_gapsBelow increasing place
  conv_lhs => rw [← below_append_above increasing place]
  rw [List.take_append, List.take_of_length_le (by omega)]
  congr 2
  omega

/-- A place, less the marked entries among the first so many: the unmarked entries below it and
the gaps below it, less the marked ones among the next entries that the gaps let in. -/
theorem place_sub_marked (increasing : occupied.Pairwise (· < ·)) (marked : Nat → Bool)
    (place : Nat) :
    place - ((occupied.take place).filter marked).length =
      ((occupied.filter (· < place)).filter (!marked ·)).length + gapsBelow occupied place -
        (((occupied.filter (place ≤ ·)).take (gapsBelow occupied place)).filter marked).length := by
  have total := length_below_add_gapsBelow increasing place
  have parts := List.length_eq_length_filter_add (l := occupied.filter (· < place)) marked
  have few : (((occupied.filter (place ≤ ·)).take (gapsBelow occupied place)).filter
      marked).length ≤ gapsBelow occupied place :=
    (List.length_filter_le ..).trans (List.length_take_le ..)
  rw [take_place increasing, List.filter_append, List.length_append]
  omega

end CoreCrypto.Library
