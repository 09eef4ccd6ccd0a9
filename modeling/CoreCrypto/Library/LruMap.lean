import Mathlib.Data.Finmap

/-!
# Least-recently-used maps

A map of at most `capacity` entries, most recently used first.  Inserting into a full map
evicts the last entry, so of the other keys one can only say that what is still there was
there before.
-/

namespace CoreCrypto.Library

variable {κ ν : Type} [DecidableEq κ] {capacity : Nat}

structure LruMap (κ ν : Type) (capacity : Nat) where
  entries : AList (fun _ : κ => ν)
  bounded : entries.entries.length ≤ capacity

namespace LruMap

def empty : LruMap κ ν capacity := ⟨∅, Nat.zero_le _⟩

/-- The value of a key, without marking it as used. -/
def peek (m : LruMap κ ν capacity) (k : κ) : Option ν :=
  m.entries.lookup k

/-- Drops the last entry of a list of entries that is too long. -/
def evict (capacity : Nat) (s : AList (fun _ : κ => ν)) : AList (fun _ : κ => ν) :=
  if s.entries.length ≤ capacity then s
  else ⟨s.entries.dropLast, s.nodupKeys.sublist (List.dropLast_sublist _)⟩

theorem length_insert_le (k : κ) (v : ν) (s : AList (fun _ : κ => ν)) :
    (s.insert k v).entries.length ≤ s.entries.length + 1 := by
  rw [AList.entries_insert, List.length_cons, Nat.add_le_add_iff_right]
  simpa only [AList.erase] using (List.kerase_sublist k s.entries).length_le

def insert (m : LruMap κ ν capacity) (k : κ) (v : ν) : LruMap κ ν capacity :=
  { entries := evict capacity (m.entries.insert k v)
    bounded := by
      have grown := length_insert_le k v m.entries
      have small := m.bounded
      unfold evict
      split
      next fits => exact fits
      next => simp only [List.length_dropLast]; omega }

def remove (m : LruMap κ ν capacity) (k : κ) : LruMap κ ν capacity :=
  { entries := m.entries.erase k
    bounded := Nat.le_trans (List.kerase_sublist k m.entries.entries).length_le m.bounded }

/-- `get`: marks the key as most recently used. -/
def touch (m : LruMap κ ν capacity) (k : κ) : LruMap κ ν capacity :=
  match m.peek k with
  | some v => m.insert k v
  | none => m

@[simp] theorem peek_empty (k : κ) : (empty : LruMap κ ν capacity).peek k = none :=
  AList.lookup_empty k

variable {k : κ} {v : ν}

theorem lookup_of_lookup_evict {s : AList (fun _ : κ => ν)}
    (found : (evict capacity s).lookup k = some v) : s.lookup k = some v := by
  unfold evict at found
  split at found
  next => exact found
  next =>
    have member := List.of_mem_dlookup found
    exact (List.mem_dlookup_iff s.nodupKeys).mpr ((List.dropLast_sublist _).mem member)

theorem peek_insert_self (m : LruMap κ ν capacity) (k : κ) (v : ν) (room : 0 < capacity) :
    (m.insert k v).peek k = some v := by
  unfold insert peek evict
  simp only
  split
  next => exact AList.lookup_insert _
  next full =>
    rw [AList.entries_insert] at full
    -- an entry is dropped, so the new one is not the last
    simp only [AList.lookup, AList.entries_insert]
    cases rest : List.kerase k m.entries.entries with
    | nil => rw [rest, List.length_singleton] at full; omega
    | cons e es => simp [List.dropLast]

variable {m : LruMap κ ν capacity} {k' : κ} {w : ν}

theorem peek_of_peek_insert (other : k' ≠ k)
    (found : (m.insert k v).peek k' = some w) : m.peek k' = some w := by
  have inserted := lookup_of_lookup_evict found
  rwa [AList.lookup_insert_ne other] at inserted

@[simp] theorem peek_remove_self (m : LruMap κ ν capacity) (k : κ) :
    (m.remove k).peek k = none := AList.lookup_erase k m.entries

@[simp] theorem peek_remove_ne (m : LruMap κ ν capacity) (other : k' ≠ k) :
    (m.remove k).peek k' = m.peek k' := AList.lookup_erase_ne other

theorem peek_of_peek_touch (found : (m.touch k).peek k' = some w) : m.peek k' = some w := by
  unfold touch at found
  split at found
  next v held =>
    by_cases same : k' = k
    · subst same
      have inserted := lookup_of_lookup_evict found
      rw [AList.lookup_insert] at inserted
      rw [held, inserted]
    · exact peek_of_peek_insert same found
  next => exact found

end LruMap

end CoreCrypto.Library
