import Mathlib.Logic.Function.Basic
import Mathlib.Data.List.Basic

/-!
# A list in memory and the table it was decoded from

A table maps keys to encoded values.  The list is a replica of the table if it has the decoded
values of all rows and nothing else, in any order and any number of times.
-/

namespace CoreCrypto.Library

variable {κ β α : Type}

structure Replica (stored : κ → Option β) (decode : β → Option α) (held : List α) : Prop where
  same : ∀ a, a ∈ held ↔ ∃ key content, stored key = some content ∧ decode content = some a
  decodes : ∀ key content, stored key = some content → (decode content).isSome

variable {stored : κ → Option β} {decode : β → Option α} {held : List α}

namespace Replica

theorem empty (none : ∀ key, stored key = none) : Replica stored decode [] where
  same a := by simp [none]
  decodes key content found := by simp [none] at found

/-- A value is put under a key that was free, or that had the value already. -/
theorem put [DecidableEq κ] (replica : Replica stored decode held) {key : κ} {content : β} {a : α}
    (decoded : decode content = some a) (free : ∀ old, stored key = some old → decode old = some a) :
    Replica (Function.update stored key (some content)) decode (held ++ [a]) where
  same b := by
    rw [List.mem_append, List.mem_singleton, replica.same]
    constructor
    · rintro (⟨key', content', found, isB⟩ | rfl)
      · by_cases sameKey : key' = key
        · subst sameKey
          obtain rfl : b = a := Option.some.inj (isB.symm.trans (free content' found))
          exact ⟨key', content, Function.update_self .., decoded⟩
        · exact ⟨key', content', (Function.update_of_ne sameKey ..).trans found, isB⟩
      · exact ⟨key, content, Function.update_self .., decoded⟩
    · rintro ⟨key', content', found, isB⟩
      by_cases sameKey : key' = key
      · subst sameKey
        rw [Function.update_self] at found
        cases found
        exact .inr (Option.some.inj (isB.symm.trans decoded))
      · rw [Function.update_of_ne sameKey] at found
        exact .inl ⟨key', content', found, isB⟩
  decodes key' content' found := by
    by_cases sameKey : key' = key
    · subst sameKey
      rw [Function.update_self] at found
      cases found
      exact Option.isSome_iff_exists.mpr ⟨a, decoded⟩
    · rw [Function.update_of_ne sameKey] at found
      exact replica.decodes key' content' found

/-- The contents of a table, read in any order, decode to the replica. -/
theorem mem_filterMap (replica : Replica stored decode held) {contents : List β}
    (listed : ∀ content, content ∈ contents ↔ ∃ key, stored key = some content) (a : α) :
    a ∈ contents.filterMap decode ↔ a ∈ held := by
  rw [List.mem_filterMap, replica.same]
  constructor
  · rintro ⟨content, member, isA⟩
    obtain ⟨key, found⟩ := (listed content).mp member
    exact ⟨key, content, found, isA⟩
  · rintro ⟨key, content, found, isA⟩
    exact ⟨content, (listed content).mpr ⟨key, found⟩, isA⟩

theorem of_filterMap {contents : List β}
    (listed : ∀ content, content ∈ contents ↔ ∃ key, stored key = some content)
    (decodes : ∀ content ∈ contents, (decode content).isSome) :
    Replica stored decode (contents.filterMap decode) where
  same a := by
    rw [List.mem_filterMap]
    constructor
    · rintro ⟨content, member, isA⟩
      obtain ⟨key, found⟩ := (listed content).mp member
      exact ⟨key, content, found, isA⟩
    · rintro ⟨key, content, found, isA⟩
      exact ⟨content, (listed content).mpr ⟨key, found⟩, isA⟩
  decodes key content found := decodes content ((listed content).mpr ⟨key, found⟩)

end Replica

end CoreCrypto.Library
