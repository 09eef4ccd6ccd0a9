import CoreCrypto.Conversation.SampleBackend
import CoreCrypto.Library.Places
import Mathlib.Data.List.Dedup

/-!
# Positions of the members in the order of commits

The position of a member is its leaf index, less the removed ones among the first so many members,
rotated by the epoch.  A leaf index counts the blank leaves to its left and the list of members does
not, so with blank leaves two members can come to the same position.
-/

namespace CoreCrypto.Conversation

open Library

variable {b : Backend}

/-- The position that `calculate_delay` starts from. -/
def commitPosition (selfIndex epoch nbMembers : Nat) : Nat :=
  if 0 < nbMembers then (epoch % nbMembers + selfIndex % nbMembers) % nbMembers + 1 else 1

def delayOfPosition (b : Backend) (position : Nat) : Nat :=
  if 1 ≤ position ∧ position ≤ 3 then (position - 1) * 15 else b.rampUp position - 106

def leaves (group : b.Group) : List Nat :=
  group.members.map (·.index)

def removedLeaves (group : b.Group) : List Nat :=
  (group.pendingProposals.filterMap (·.proposal.removed?)).dedup

/-- The leaves of the members that no pending proposal removes. -/
def survivors (group : b.Group) : List Nat :=
  (leaves group).filter (· ∉ removedLeaves group)

/-- The position that `compute_next_commit_delay` comes to. -/
def nextCommitPosition (group : b.Group) : Option Nat :=
  if group.pendingProposals.isEmpty then none
  else if group.ownLeafIndex ∈ removedLeaves group then none
  else
    let leftTreeDiff :=
      (((leaves group).take group.ownLeafIndex).filter (· ∈ removedLeaves group)).length
    some (commitPosition (group.ownLeafIndex - leftTreeDiff) group.epoch
      ((leaves group).length - (removedLeaves group).length))

theorem computeNextCommitDelay_eq (group : b.Group) :
    computeNextCommitDelay b group = (nextCommitPosition group).map (delayOfPosition b) := by
  have counted : ((group.members.take group.ownLeafIndex).filter
      (·.index ∈ removedLeaves group)).length =
      (((leaves group).take group.ownLeafIndex).filter (· ∈ removedLeaves group)).length := by
    rw [leaves, ← List.map_take, List.filter_map, List.length_map]
    rfl
  have unfolded : computeNextCommitDelay b group =
      if group.pendingProposals.isEmpty then none
      else if group.ownLeafIndex ∈ removedLeaves group then none
      else some (calculateDelay b
        (group.ownLeafIndex - ((group.members.take group.ownLeafIndex).filter
          (·.index ∈ removedLeaves group)).length)
        group.epoch (group.members.length - (removedLeaves group).length)) := rfl
  rw [unfolded, counted, nextCommitPosition, leaves, List.length_map]
  split
  next => rfl
  next =>
    split
    next => rfl
    next => rfl

/-- The group as the member with this leaf sees it. -/
def seenFrom (group : b.Group) (leaf : Nat) : b.Group :=
  { group with ownLeafIndex := leaf }

theorem computeNextCommitDelay_none (group : b.Group) (leaf : Nat) :
    computeNextCommitDelay b (seenFrom group leaf) = none ↔
      group.pendingProposals = [] ∨ leaf ∈ removedLeaves group := by
  rw [computeNextCommitDelay_eq, Option.map_eq_none_iff, nextCommitPosition]
  change (if group.pendingProposals.isEmpty then none
    else if leaf ∈ removedLeaves group then none else some _) = none ↔ _
  by_cases empty : group.pendingProposals = []
  · simp [empty]
  · by_cases removed : leaf ∈ removedLeaves group
    · simp [removed]
    · simp [empty, removed]

/-! ### Counting the members that stay -/

theorem length_survivors_add_removed (group : b.Group) :
    (survivors group).length + ((leaves group).filter (· ∈ removedLeaves group)).length =
      (leaves group).length := by
  have parts := List.length_eq_length_filter_add (l := leaves group) (· ∈ removedLeaves group)
  simp only [survivors, decide_not]
  omega

theorem removedLeaves_nodup (group : b.Group) : (removedLeaves group).Nodup :=
  List.nodup_dedup _

section Ordered

variable {group : b.Group} (ordered : (leaves group).Pairwise (· < ·))
include ordered

theorem removed_subperm :
    ((leaves group).filter (· ∈ removedLeaves group)).Subperm (removedLeaves group) := by
  refine List.subperm_of_subset ((ordered.imp Nat.ne_of_lt).filter _) ?_
  intro leaf inFilter
  simpa using (List.mem_filter.mp inFilter).2

theorem nbMembers_le :
    (leaves group).length - (removedLeaves group).length ≤ (survivors group).length := by
  have total := length_survivors_add_removed group
  have few := (removed_subperm ordered).length_le
  omega

theorem nbMembers_eq_iff (some : survivors group ≠ []) :
    (leaves group).length - (removedLeaves group).length = (survivors group).length ↔
      removedLeaves group ⊆ leaves group := by
  have total := length_survivors_add_removed group
  have subperm := removed_subperm ordered
  have few := subperm.length_le
  have positive : 0 < (survivors group).length := List.length_pos_iff.mpr some
  constructor
  · intro same leaf removed
    have perm := subperm.perm_of_length_le (by omega)
    exact (List.mem_filter.mp (perm.mem_iff.mpr removed)).1
  · intro subset
    have perm : ((leaves group).filter (· ∈ removedLeaves group)).Perm (removedLeaves group) := by
      rw [List.perm_ext_iff_of_nodup ((ordered.imp Nat.ne_of_lt).filter _)
        (removedLeaves_nodup group)]
      intro leaf
      simpa using fun removed => subset removed
    have equal := perm.length_eq
    omega

end Ordered

/-! ### Blank leaves -/

/-- Where a member that stays comes to stand before the rotation: behind the members that stay
to its left, and one further for each blank leaf to its left that no removed member among the
next ones makes up for. -/
def standing (group : b.Group) (leaf : Nat) : Nat :=
  let blanks := gapsBelow (leaves group) leaf
  (((leaves group).filter (· < leaf)).filter (· ∉ removedLeaves group)).length + blanks -
    ((((leaves group).filter (leaf ≤ ·)).take blanks).filter (· ∈ removedLeaves group)).length

/-- Only members are removed, and no two of those that stay come to stand in one place, modulo
their number. -/
def Spread (group : b.Group) : Prop :=
  ∀ leaf ∈ survivors group, ∀ other ∈ survivors group, leaf ≠ other →
    removedLeaves group ⊆ leaves group ∧
      standing group leaf % (survivors group).length ≠
        standing group other % (survivors group).length

instance (group : b.Group) : Decidable (Spread group) := by
  unfold Spread
  infer_instance

/-- The positions of the members that stay are those from 1 to their number. -/
def FillsPositions (group : b.Group) : Prop :=
  ((survivors group).map fun leaf => nextCommitPosition (seenFrom group leaf)).Perm
    ((List.range (survivors group).length).map fun k => some (k + 1))

theorem nextCommitPosition_seenFrom {group : b.Group} (ordered : (leaves group).Pairwise (· < ·))
    (pending : group.pendingProposals ≠ []) {leaf : Nat} (stays : leaf ∈ survivors group) :
    nextCommitPosition (seenFrom group leaf) =
      some (commitPosition (standing group leaf) group.epoch
        ((leaves group).length - (removedLeaves group).length)) := by
  have unfolded : nextCommitPosition (seenFrom group leaf) =
      if group.pendingProposals.isEmpty then none
      else if leaf ∈ removedLeaves group then none
      else some (commitPosition
        (leaf - (((leaves group).take leaf).filter (· ∈ removedLeaves group)).length) group.epoch
        ((leaves group).length - (removedLeaves group).length)) := rfl
  have kept : leaf ∉ removedLeaves group := by simpa using (List.mem_filter.mp stays).2
  rw [unfolded, if_neg (by simpa using pending), if_neg kept,
    place_sub_marked ordered (· ∈ removedLeaves group) leaf]
  simp only [standing, decide_not]

theorem commitPosition_pos (selfIndex epoch nbMembers : Nat) :
    commitPosition selfIndex epoch nbMembers = commitPosition selfIndex epoch nbMembers - 1 + 1 := by
  unfold commitPosition
  split <;> rfl

theorem commitPosition_le (selfIndex epoch nbMembers : Nat) :
    commitPosition selfIndex epoch nbMembers ≤ max nbMembers 1 := by
  unfold commitPosition
  split
  next positive =>
    have bound := Nat.mod_lt (epoch % nbMembers + selfIndex % nbMembers) positive
    omega
  next => omega

theorem commitPosition_inj (epoch : Nat) {first second nbMembers : Nat} (positive : 0 < nbMembers)
    (same : commitPosition first epoch nbMembers = commitPosition second epoch nbMembers) :
    first % nbMembers = second % nbMembers := by
  simp only [commitPosition, positive, if_true] at same
  exact mod_eq_of_rotated (Nat.succ.inj same)

section Fills

variable {group : b.Group} (ordered : (leaves group).Pairwise (· < ·))
  (pending : group.pendingProposals ≠ [])
include ordered pending

theorem spread_of_fillsPositions (fills : FillsPositions group) : Spread group := by
  intro leaf stays other otherStays different
  have several : 1 < (survivors group).length := by
    have both : [leaf, other].Subperm (survivors group) :=
      List.subperm_of_subset (by simpa using different) (by simp [stays, otherStays])
    exact both.length_le
  -- the last position is taken, so the members that stay were all counted
  have counted : (leaves group).length - (removedLeaves group).length =
      (survivors group).length := by
    have last : some ((survivors group).length - 1 + 1) ∈
        (survivors group).map fun leaf => nextCommitPosition (seenFrom group leaf) :=
      fills.mem_iff.mpr (List.mem_map.mpr ⟨_, List.mem_range.mpr (by omega), rfl⟩)
    obtain ⟨holder, holderStays, held⟩ := List.mem_map.mp last
    rw [nextCommitPosition_seenFrom ordered pending holderStays, Option.some.injEq] at held
    have bound := commitPosition_le (standing group holder) group.epoch
      ((leaves group).length - (removedLeaves group).length)
    have few := nbMembers_le ordered
    omega
  refine ⟨(nbMembers_eq_iff ordered (List.ne_nil_of_mem stays)).mp counted, fun same => ?_⟩
  have positions : ((survivors group).map fun leaf =>
      nextCommitPosition (seenFrom group leaf)).Nodup := by
    refine fills.nodup_iff.mpr (List.nodup_range.map fun j k equal => ?_)
    simpa using equal
  refine different (List.inj_on_of_nodup_map positions stays otherStays ?_)
  rw [nextCommitPosition_seenFrom ordered pending stays,
    nextCommitPosition_seenFrom ordered pending otherStays, counted]
  simp only [commitPosition, same]

theorem fillsPositions_of_spread (spread : Spread group) : FillsPositions group := by
  have distinct : (survivors group).Nodup := (ordered.imp Nat.ne_of_lt).filter _
  let nb := (leaves group).length - (removedLeaves group).length
  let place := fun leaf => commitPosition (standing group leaf) group.epoch nb - 1
  have position : ∀ leaf ∈ survivors group,
      nextCommitPosition (seenFrom group leaf) = some (place leaf + 1) := by
    intro leaf stays
    rw [nextCommitPosition_seenFrom ordered pending stays]
    exact congrArg some (commitPosition_pos ..)
  have places : ((survivors group).map place).Perm (List.range (survivors group).length) := by
    have length : ((survivors group).map place).length = (survivors group).length := by simp
    rw [← length]
    refine perm_range_of_nodup ((List.nodup_map_iff_inj_on distinct).mpr ?_) ?_
    · intro leaf stays other otherStays same
      by_contra different
      obtain ⟨subset, apart⟩ := spread leaf stays other otherStays different
      have counted := (nbMembers_eq_iff ordered (List.ne_nil_of_mem stays)).mpr subset
      have positive : 0 < (survivors group).length := List.length_pos_of_mem stays
      refine apart ?_
      rw [← counted] at positive ⊢
      refine commitPosition_inj group.epoch positive ?_
      rw [commitPosition_pos, commitPosition_pos (standing group other)]
      exact congrArg (· + 1) same
    · intro k inPlaces
      obtain ⟨leaf, stays, rfl⟩ := List.mem_map.mp inPlaces
      have positive : 0 < (survivors group).length := List.length_pos_of_mem stays
      have bound := commitPosition_le (standing group leaf) group.epoch nb
      have few := nbMembers_le ordered
      have positioned := commitPosition_pos (standing group leaf) group.epoch nb
      rw [length]
      show commitPosition (standing group leaf) group.epoch nb - 1 < _
      omega
  have renamed := places.map fun k => some (k + 1)
  rw [List.map_map] at renamed
  unfold FillsPositions
  rw [List.map_congr_left position]
  exact renamed

end Fills

/-- **Positions.** A member has no delay iff there is nothing to commit or it is being removed;
and the members that stay share out the positions from 1 to their number iff they are spread. -/
theorem positions_filled_iff_spread (group : b.Group) (ordered : (leaves group).Pairwise (· < ·)) :
    (∀ leaf, computeNextCommitDelay b (seenFrom group leaf) = none ↔
      group.pendingProposals = [] ∨ leaf ∈ removedLeaves group) ∧
    (group.pendingProposals ≠ [] → (FillsPositions group ↔ Spread group)) :=
  ⟨computeNextCommitDelay_none group, fun pending =>
    ⟨spread_of_fillsPositions ordered pending, fillsPositions_of_spread ordered pending⟩⟩

/-- A group of epoch 7 with these leaves, in which member 0 proposes these removals. -/
def sampleTree (occupied removed : List Nat) : (Sample.backend (.ok ())).Group :=
  { Sample.newGroup [9] 1 7 with
    members := occupied.map fun leaf => ⟨leaf, Sample.someone, []⟩
    pendingProposals := removed.map fun leaf => ⟨[], .member 0, .remove leaf⟩ }

/-- Four members without gaps, of which the second is removed. -/
theorem full_tree_fills_positions : FillsPositions (sampleTree [0, 1, 2, 3] [1]) :=
  ((positions_filled_iff_spread (sampleTree [0, 1, 2, 3] [1]) (by decide)).2 (by decide)).mpr
    (by decide)

/-- Members at leaves 0, 2 and 3, leaf 1 is blank; the member at leaf 3 is removed: the two that
stay come to the same position. -/
theorem blank_leaf_collides :
    survivors (sampleTree [0, 2, 3] [3]) = [0, 2] ∧
      nextCommitPosition (seenFrom (sampleTree [0, 2, 3] [3]) 0) = some 2 ∧
      nextCommitPosition (seenFrom (sampleTree [0, 2, 3] [3]) 2) = some 2 := by
  decide

end CoreCrypto.Conversation
