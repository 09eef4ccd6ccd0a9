import CoreCrypto.Library.Except
import CoreCrypto.Migrations.MetaMigrations

/-!
# Which ciphersuite a credential gets, and which of two credentials is kept

Version 18 chooses a ciphersuite for a signature scheme and version 19 deletes credentials that have
one public key.  Both count the groups that use a ciphersuite, and both decide by the same order:
the ciphersuite that more groups use comes first, and the lower number on a tie.
-/

namespace CoreCrypto.Migrations

open Keystore Library.Fallible

/-- The signature schemes of the registered ciphersuites. -/
def signatureAlgorithm : Nat → Option Nat
  | 1 | 3 => some 0x0807
  | 2 => some 0x0403
  | 4 | 6 => some 0x0808
  | 5 => some 0x0603
  | 7 => some 0x0503
  | _ => none

/-- A ciphersuite whose signature scheme is that of another one as well. -/
def Ambiguous (c : Nat) : Prop :=
  ∃ d s, d ≠ c ∧ signatureAlgorithm c = some s ∧ signatureAlgorithm d = some s

/-- The number of groups that use a ciphersuite. -/
def usedBy (parse : Parsers) (groups : List Bytes) (ciphersuite : Nat) : Nat :=
  groups.countP fun state => parse.groupCiphersuite state = .ok ciphersuite

/-- The first ciphersuite is used by more groups than the second one, or by as many and has the lower
number. -/
def Outranks (used : Nat → Nat) (c d : Nat) : Prop :=
  used d < used c ∨ used c = used d ∧ c < d

instance (used : Nat → Nat) (c d : Nat) : Decidable (Outranks used c d) :=
  inferInstanceAs (Decidable (_ ∨ _))

/-! ### Counting -/

/-- The pairs of ciphersuites with one signature scheme. -/
theorem pair_cases {a b s : Nat} (different : a ≠ b) (first : signatureAlgorithm a = some s)
    (second : signatureAlgorithm b = some s) :
    s = 0x0807 ∧ (a = 1 ∧ b = 3 ∨ a = 3 ∧ b = 1) ∨ s = 0x0808 ∧ (a = 4 ∧ b = 6 ∨ a = 6 ∧ b = 4) := by
  unfold signatureAlgorithm at first second
  split at first <;> split at second <;> simp only [Option.some.injEq, reduceCtorEq] at first second <;>
    omega

theorem ambiguous_iff {c : Nat} : Ambiguous c ↔ c = 1 ∨ c = 3 ∨ c = 4 ∨ c = 6 := by
  constructor
  · rintro ⟨d, s, different, first, second⟩
    have := pair_cases different.symm first second
    omega
  · rintro (rfl | rfl | rfl | rfl)
    exacts [⟨3, 0x0807, by decide⟩, ⟨1, 0x0807, by decide⟩, ⟨6, 0x0808, by decide⟩,
      ⟨4, 0x0808, by decide⟩]

instance (c : Nat) : Decidable (Ambiguous c) :=
  decidable_of_iff _ ambiguous_iff.symm

variable {parse : Parsers} {groups : List Bytes}

theorem of_count (occurences : CiphersuiteOccurences) (c d : Nat) :
    (occurences.count d).of c = (occurences.of c).map (· + if d = c then 1 else 0) := by
  unfold CiphersuiteOccurences.count CiphersuiteOccurences.of
  split <;> split <;> simp_all

theorem of_countCiphersuiteOccurences {occurences : CiphersuiteOccurences}
    (counted : countCiphersuiteOccurences parse groups = .ok occurences) (c : Nat) :
    occurences.of c = if Ambiguous c then some (usedBy parse groups c) else none := by
  have zero (used : Nat) : (CiphersuiteOccurences.of ⟨0, 0, 0, 0⟩ c).map (· + used) =
      if Ambiguous c then some used else none := by
    simp only [ambiguous_iff, CiphersuiteOccurences.of]
    split <;> simp_all
  rw [← zero]
  -- what is counted so far is added to what the remaining groups use
  unfold countCiphersuiteOccurences at counted
  generalize (⟨0, 0, 0, 0⟩ : CiphersuiteOccurences) = start at counted ⊢
  clear zero
  induction groups generalizing start with
  | nil =>
    cases counted
    simp [usedBy]
  | cons state rest ih =>
    rw [List.foldlM_cons] at counted
    obtain ⟨next, step, others⟩ := bind_eq_ok counted
    cases parsed : parse.groupCiphersuite state with
    | error e =>
      rw [parsed] at step
      cases step
    | ok d =>
      rw [parsed] at step
      cases step
      rw [ih _ others, of_count, Option.map_map]
      congr 1
      funext n
      simp only [Function.comp_apply, usedBy, List.countP_cons, parsed, Except.ok.injEq,
        decide_eq_true_eq]
      omega

/-! ### The two choices -/

/-- What `least_used_ciphersuite` answers, in terms of the groups. -/
theorem leastUsed_eq {least : Nat → Nat → Option Nat}
    (makes : makeLeastUsedCiphersuite parse groups = .ok least) (a b : Nat) :
    least a b = if Ambiguous a ∧ Ambiguous b ∧ (usedBy parse groups a ≠ 0 ∨ usedBy parse groups b ≠ 0)
      then some (if Outranks (usedBy parse groups) a b then b else a) else none := by
  obtain ⟨occurences, counted, made⟩ := bind_eq_ok makes
  cases made
  have first := of_countCiphersuiteOccurences counted a
  have second := of_countCiphersuiteOccurences counted b
  simp only [Outranks]
  split <;> simp_all
  grind

/-- What `ciphersuite_for_signature_scheme` answers for a scheme of two ciphersuites. -/
theorem ciphersuiteFor_eq {ciphersuiteFor : Nat → Option Nat}
    (makes : makeCiphersuiteForSignatureScheme parse groups = .ok ciphersuiteFor) {a b s : Nat}
    (different : a ≠ b) (first : signatureAlgorithm a = some s)
    (second : signatureAlgorithm b = some s) :
    ciphersuiteFor s = if usedBy parse groups a ≠ 0 ∨ usedBy parse groups b ≠ 0
      then some (if Outranks (usedBy parse groups) a b then a else b) else none := by
  obtain ⟨occurences, counted, made⟩ := bind_eq_ok makes
  cases made
  have count (c : Nat) (ambiguous : Ambiguous c) : occurences.of c = some (usedBy parse groups c) := by
    rw [of_countCiphersuiteOccurences counted, if_pos ambiguous]
  have aes := Option.some.inj (count 1 (by decide))
  have chacha := Option.some.inj (count 3 (by decide))
  have aes448 := Option.some.inj (count 4 (by decide))
  have chacha448 := Option.some.inj (count 6 (by decide))
  obtain ⟨rfl, ⟨rfl, rfl⟩ | ⟨rfl, rfl⟩⟩ | ⟨rfl, ⟨rfl, rfl⟩ | ⟨rfl, rfl⟩⟩ :=
    pair_cases different first second
  all_goals
    simp only [mostUsed, aes, chacha, aes448, chacha448, Outranks]
    grind

theorem signatureAlgorithm_of_ciphersuiteFor {ciphersuiteFor : Nat → Option Nat}
    (makes : makeCiphersuiteForSignatureScheme parse groups = .ok ciphersuiteFor) {s c : Nat}
    (chosen : ciphersuiteFor s = some c) : signatureAlgorithm c = some s := by
  obtain ⟨occurences, -, made⟩ := bind_eq_ok makes
  cases made
  have one {x y n m : Nat} (used : mostUsed x y n m = some c) : c = x ∨ c = y := by
    unfold mostUsed at used
    grind
  dsimp only at chosen
  split at chosen
  · cases chosen
    rfl
  · cases chosen
    rfl
  · cases chosen
    rfl
  · obtain rfl | rfl := one chosen <;> rfl
  · obtain rfl | rfl := one chosen <;> rfl
  · cases chosen

/-- **The choices agree**: of two ciphersuites with one signature scheme, the one that outranks the
other is chosen for the scheme and the other one is the least used; neither function answers if no
group uses one of them; and a ciphersuite that is chosen for a scheme has that scheme. -/
theorem ciphersuite_choices_agree (parse : Parsers) (groups : List Bytes)
    (ciphersuiteFor : Nat → Option Nat)
    (makes : makeCiphersuiteForSignatureScheme parse groups = .ok ciphersuiteFor) :
    ∃ least, makeLeastUsedCiphersuite parse groups = .ok least ∧
      (∀ a b s, a ≠ b → signatureAlgorithm a = some s → signatureAlgorithm b = some s →
        (usedBy parse groups a ≠ 0 ∨ usedBy parse groups b ≠ 0 →
          ∃ kept other, (kept = a ∧ other = b ∨ kept = b ∧ other = a) ∧
            Outranks (usedBy parse groups) kept other ∧ ciphersuiteFor s = some kept ∧
            least a b = some other ∧ least b a = some other) ∧
        (usedBy parse groups a = 0 ∧ usedBy parse groups b = 0 →
          ciphersuiteFor s = none ∧ least a b = none ∧ least b a = none)) ∧
      ∀ s c, ciphersuiteFor s = some c → signatureAlgorithm c = some s := by
  obtain ⟨occurences, counted, -⟩ := bind_eq_ok makes
  obtain ⟨least, made⟩ : ∃ least, makeLeastUsedCiphersuite parse groups = .ok least := by
    rw [makeLeastUsedCiphersuite, counted]
    exact ⟨_, rfl⟩
  refine ⟨least, made, fun a b s different first second => ?_, fun s c chosen =>
    signatureAlgorithm_of_ciphersuiteFor makes chosen⟩
  have ambA : Ambiguous a := ⟨b, s, different.symm, first, second⟩
  have ambB : Ambiguous b := ⟨a, s, different, second, first⟩
  rw [ciphersuiteFor_eq makes different first second, leastUsed_eq made a b, leastUsed_eq made b a]
  refine ⟨fun used => ?_, fun unused => by simp [unused]⟩
  simp only [ambA, ambB, used, used.symm, true_and, if_true]
  -- exactly one of the two outranks the other
  by_cases outranks : Outranks (usedBy parse groups) a b
  · have not : ¬ Outranks (usedBy parse groups) b a := by
      unfold Outranks at *
      omega
    exact ⟨a, b, by simp [outranks, not]⟩
  · have outranked : Outranks (usedBy parse groups) b a := by
      unfold Outranks at *
      omega
    exact ⟨b, a, by simp [outranks, outranked]⟩

/-- A parser under which the state of a group is the number of its ciphersuite. -/
def oneByteGroups : Parsers where
  signatureKeyPair _ := .error ""
  credential _ := .error ""
  certificate _ := .error ""
  groupCiphersuite
    | [c] => .ok c.toNat
    | _ => .error "group"

theorem ciphersuite_choices_agree_sample :
    ∃ least, makeLeastUsedCiphersuite oneByteGroups [[1], [3], [3], [2]] = .ok least ∧
      least 1 3 = some 1 ∧ least 3 1 = some 1 := by
  obtain ⟨least, made, pairs, -⟩ := ciphersuite_choices_agree oneByteGroups [[1], [3], [3], [2]] _ rfl
  obtain ⟨kept, other, which, outranks, -, forth, back⟩ :=
    (pairs 1 3 0x0807 (by decide) rfl rfl).1 (by decide)
  obtain ⟨rfl, rfl⟩ | ⟨rfl, rfl⟩ := which
  · exact absurd outranks (by decide)
  · exact ⟨least, made, forth, back⟩

/-! ### Credentials with one public key -/

/-- The rows with a public key. -/
def rowsOf (publicKey : Bytes) (rows : List StoredCredential) : List StoredCredential :=
  rows.filter (·.publicKey = publicKey)

/-- One row of the public key is left, and its ciphersuite is the one that most groups use. -/
def KeepsMostUsed (used : Nat → Nat) (before after : List StoredCredential) (publicKey : Bytes) :
    Prop :=
  ∃ row, rowsOf publicKey after = [row] ∧ ∀ other ∈ rowsOf publicKey before,
    other.ciphersuite = row.ciphersuite ∨ Outranks used row.ciphersuite other.ciphersuite

/-- Ciphersuites of which one is kept: all are ambiguous, no two are unused, and the most used one
occurs once. -/
structure OneMostUsed (used : Nat → Nat) (ciphersuites : List Nat) : Prop where
  once : ∃ c, ciphersuites.count c = 1 ∧ ∀ d ∈ ciphersuites, d = c ∨ Outranks used c d
  ambiguous : ∀ c ∈ ciphersuites, Ambiguous c
  inUse : ciphersuites.Pairwise fun c d => used c ≠ 0 ∨ used d ≠ 0

/-- Two rows with ciphersuites `a` and `b` leave one of their public key with this ciphersuite. -/
def spares (least : Nat → Nat → Option Nat) (ciphersuite a b : Nat) : Bool :=
  (least a b).any (ciphersuite ≠ ·)

theorem forall_duplicates_iff {P : StoredCredential → StoredCredential → Prop}
    {rows : List StoredCredential} :
    (∀ pair ∈ detectDuplicateCredentials rows, P pair.1 pair.2) ↔
      rows.Pairwise fun a b => a.publicKey = b.publicKey → P a b := by
  induction rows with
  | nil => simp [detectDuplicateCredentials]
  | cons a rest ih =>
    rw [List.pairwise_cons, ← ih, detectDuplicateCredentials, List.forall_mem_append]
    refine and_congr_left fun _ => ?_
    simp only [List.forall_mem_map, List.mem_filter, and_imp, decide_eq_true_eq]

theorem foldl_filter {α β : Type} {delete : List α → β → List α} {p : β → α → Bool}
    (each : ∀ rows step, delete rows step = rows.filter (p step)) (steps : List β) (rows : List α) :
    steps.foldl delete rows = rows.filter fun row => steps.all (p · row) := by
  induction steps generalizing rows with
  | nil => simp
  | cons step rest ih =>
    rw [List.foldl_cons, ih, each, List.filter_filter]
    simp [Bool.and_comm]

variable {before after : List StoredCredential}

/-- A row is left exactly if every two rows with its public key spare its ciphersuite. -/
theorem metaV19_eq (migrated : metaV19 parse groups before = .ok after) :
    ∃ least, makeLeastUsedCiphersuite parse groups = .ok least ∧
      after = before.filter fun row => ((rowsOf row.publicKey before).map
        StoredCredential.ciphersuite).Pairwise (spares least row.ciphersuite · ·) := by
  obtain ⟨least, makes, deleted⟩ := bind_eq_ok migrated
  refine ⟨least, makes, ?_⟩
  cases deleted
  rw [foldl_filter (p := fun pair row => row.publicKey = pair.1.publicKey →
    spares least row.ciphersuite pair.1.ciphersuite pair.2.ciphersuite)]
  · refine List.filter_congr fun row _ => Bool.eq_iff_iff.mpr ?_
    simp only [List.all_eq_true, decide_eq_true_eq]
    rw [forall_duplicates_iff (P := fun a b => row.publicKey = a.publicKey →
      spares least row.ciphersuite a.ciphersuite b.ciphersuite), List.pairwise_map, rowsOf,
      List.pairwise_filter]
    refine List.Pairwise.iff fun a b => ?_
    simp only [decide_eq_true_eq]
    grind
  · rintro rows ⟨a, b⟩
    dsimp only
    cases told : least a.ciphersuite b.ciphersuite with
    | none => simp [spares, told]
    | some c => simp [spares, told, not_and]

section Pairs

variable {least : Nat → Nat → Option Nat} {ciphersuites : List Nat} {c d : Nat}

/-- A pair in use removes the one of its ciphersuites that the other one outranks. -/
theorem spares_iff (makes : makeLeastUsedCiphersuite parse groups = .ok least) (kept : Nat) :
    spares least kept c d ↔ Ambiguous c ∧ Ambiguous d ∧
      (usedBy parse groups c ≠ 0 ∨ usedBy parse groups d ≠ 0) ∧
      kept ≠ if Outranks (usedBy parse groups) c d then d else c := by
  rw [spares, leastUsed_eq makes]
  split <;> simp_all

theorem spares_symm (makes : makeLeastUsedCiphersuite parse groups = .ok least) (kept : Nat) :
    Std.Symm fun c d => spares least kept c d = true := by
  refine ⟨fun c d spared => ?_⟩
  rw [spares_iff makes] at spared ⊢
  unfold Outranks at *
  grind

/-- Where a ciphersuite is spared that outranks the others, the rows are such that one is kept. -/
theorem OneMostUsed.of_spared (makes : makeLeastUsedCiphersuite parse groups = .ok least)
    (several : 2 ≤ ciphersuites.length) (member : c ∈ ciphersuites)
    (most : ∀ d ∈ ciphersuites, d = c ∨ Outranks (usedBy parse groups) c d)
    (spared : ciphersuites.Pairwise (spares least c · ·)) :
    OneMostUsed (usedBy parse groups) ciphersuites := by
  simp only [spares_iff makes] at spared
  refine ⟨⟨c, le_antisymm ?_ (List.count_pos_iff.mpr member), most⟩, ?_,
    spared.imp fun pair => pair.2.2.1⟩
  · -- two rows with the ciphersuite would both be removed
    by_contra more
    have twice := spared.sublist (List.replicate_sublist_iff.mpr (not_le.mp more))
    simp at twice
  · -- each row is in a pair
    obtain ⟨a, b, rest, rfl⟩ : ∃ a b rest, ciphersuites = a :: b :: rest := by
      rcases ciphersuites with - | ⟨a, - | ⟨b, rest⟩⟩ <;> simp_all
    have first := (List.pairwise_cons.mp spared).1
    intro d isMember
    rcases List.mem_cons.mp isMember with rfl | later
    · exact (first b (by simp)).1
    · exact (first d later).2.1

/-- Where one ciphersuite is the most used, it is the only one that is spared. -/
theorem OneMostUsed.spared_iff (makes : makeLeastUsedCiphersuite parse groups = .ok least)
    (one : OneMostUsed (usedBy parse groups) ciphersuites) :
    ∃ c, ciphersuites.count c = 1 ∧ (∀ d ∈ ciphersuites, d = c ∨ Outranks (usedBy parse groups) c d) ∧
      ∀ d ∈ ciphersuites, ciphersuites.Pairwise (spares least d · ·) ↔ d = c := by
  obtain ⟨⟨c, once, most⟩, ambiguous, inUse⟩ := one
  refine ⟨c, once, most, fun d member => ⟨fun spared => ?_, ?_⟩⟩
  · by_contra other
    have isMember : c ∈ ciphersuites := List.count_pos_iff.mp (once ▸ Nat.one_pos)
    have := spares_symm makes d
    have pair := List.Pairwise.forall spared isMember member (Ne.symm other)
    rw [spares_iff makes, if_pos ((most d member).resolve_left other)] at pair
    exact pair.2.2.2 rfl
  · rintro rfl
    refine List.pairwise_iff_forall_sublist.mpr fun {a b} pair => ?_
    have first : a ∈ ciphersuites := pair.subset (by simp)
    have second : b ∈ ciphersuites := pair.subset (by simp)
    have notBoth : ¬ (a = d ∧ b = d) := by
      rintro ⟨rfl, rfl⟩
      have := List.replicate_sublist_iff.mp (show (List.replicate 2 _).Sublist _ from pair)
      omega
    refine (spares_iff makes d).mpr ⟨ambiguous a first, ambiguous b second,
      List.pairwise_iff_forall_sublist.mp inUse pair, ?_⟩
    have outrankedA := most a first
    have outrankedB := most b second
    unfold Outranks at *
    grind

end Pairs

theorem rowsOf_metaV19 {least : Nat → Nat → Option Nat} (publicKey : Bytes) :
    rowsOf publicKey (before.filter fun row => ((rowsOf row.publicKey before).map
        StoredCredential.ciphersuite).Pairwise (spares least row.ciphersuite · ·)) =
      (rowsOf publicKey before).filter fun row => ((rowsOf publicKey before).map
        StoredCredential.ciphersuite).Pairwise (spares least row.ciphersuite · ·) := by
  rw [rowsOf, List.filter_comm]
  refine List.filter_congr fun row member => ?_
  rw [of_decide_eq_true (List.mem_filter.mp member).2]

/-- **De-duplication**: the migration deletes rows, leaves at most one row of a public key and every
row whose public key no other row has.  Of two or more rows with one public key it leaves exactly one,
the one whose ciphersuite most groups use, if and only if the ciphersuites of the rows are all
ambiguous, no two of the rows are unused, and the most used ciphersuite is that of one row only. -/
theorem metaV19_keepsMostUsed_iff (parse : Parsers) (groups : List Bytes)
    (before after : List StoredCredential) (migrated : metaV19 parse groups before = .ok after) :
    after.Sublist before ∧ (after.map StoredCredential.publicKey).Nodup ∧
      (∀ row, rowsOf row.publicKey before = [row] → row ∈ after) ∧
      ∀ publicKey, 2 ≤ (rowsOf publicKey before).length →
        (KeepsMostUsed (usedBy parse groups) before after publicKey ↔ OneMostUsed
          (usedBy parse groups) ((rowsOf publicKey before).map StoredCredential.ciphersuite)) := by
  obtain ⟨least, makes, rfl⟩ := metaV19_eq migrated
  refine ⟨List.filter_sublist, ?_, ?_, fun publicKey several => ?_⟩
  · rw [List.Nodup, List.pairwise_map]
    refine List.pairwise_iff_forall_sublist.mpr fun {a b} pair same => ?_
    -- the pair removes one of the two
    have both : [a.ciphersuite, b.ciphersuite].Sublist
        ((rowsOf a.publicKey before).map StoredCredential.ciphersuite) := by
      have rows := (pair.trans List.filter_sublist).filter (·.publicKey = a.publicKey)
      simp only [List.filter_cons, same, decide_true, if_true] at rows
      exact same ▸ rows.map StoredCredential.ciphersuite
    have sparedA := of_decide_eq_true (List.mem_filter.mp (pair.subset (by simp : a ∈ [a, b]))).2
    have sparedB := of_decide_eq_true (List.mem_filter.mp (pair.subset (by simp : b ∈ [a, b]))).2
    rw [← same] at sparedB
    have first := List.pairwise_iff_forall_sublist.mp sparedA both
    have second := List.pairwise_iff_forall_sublist.mp sparedB both
    rw [spares_iff makes] at first second
    split at first <;> simp_all
  · intro row alone
    have member : row ∈ rowsOf row.publicKey before := by simp [alone]
    refine List.mem_filter.mpr ⟨(List.mem_filter.mp member).1, ?_⟩
    simp [alone]
  · rw [KeepsMostUsed, rowsOf_metaV19]
    constructor
    · rintro ⟨row, alone, most⟩
      obtain ⟨member, spared⟩ := List.mem_filter.mp (alone ▸ List.mem_singleton_self row)
      refine .of_spared makes (by simpa using several) (List.mem_map_of_mem member) ?_
        (of_decide_eq_true spared)
      simpa using most
    · intro one
      obtain ⟨c, once, most, spared⟩ := one.spared_iff makes
      have kept : (rowsOf publicKey before).filter (fun row => ((rowsOf publicKey before).map
          StoredCredential.ciphersuite).Pairwise (spares least row.ciphersuite · ·)) =
          (rowsOf publicKey before).filter (·.ciphersuite = c) :=
        List.filter_congr fun row member =>
          decide_eq_decide.mpr (spared _ (List.mem_map_of_mem member))
      rw [List.count, List.countP_map, List.countP_eq_length_filter] at once
      obtain ⟨row, alone⟩ := List.length_eq_one_iff.mp once
      have isKept : row.ciphersuite = c := by
        have member := (List.mem_filter.mp (alone ▸ List.mem_singleton_self row)).2
        exact beq_iff_eq.mp member
      refine ⟨row, kept.trans alone, fun other member => ?_⟩
      rw [isKept]
      exact most _ (List.mem_map_of_mem member)

/-- A row with this ciphersuite and the public key [7]. -/
def sampleRow (session : UInt8) (ciphersuite : Nat) : StoredCredential :=
  ⟨[session], [], 0, ciphersuite, [7], []⟩

theorem metaV19_keepsMostUsed_iff_sample :
    KeepsMostUsed (usedBy oneByteGroups [[1], [3], [3]]) [sampleRow 0 1, sampleRow 1 3]
      [sampleRow 1 3] [7] := by
  refine ((metaV19_keepsMostUsed_iff oneByteGroups [[1], [3], [3]] [sampleRow 0 1, sampleRow 1 3]
    [sampleRow 1 3] (by rfl)).2.2.2 [7] (by decide)).mpr ⟨⟨3, ?_⟩, ?_, ?_⟩
  all_goals decide

/-- Two credentials with one public key and the ciphersuite that the only group uses are both
deleted. -/
theorem both_credentials_deleted :
    metaV19 oneByteGroups [[1]] [sampleRow 0 1, sampleRow 1 1] = .ok [] ∧
      usedBy oneByteGroups [[1]] 1 = 1 ∧ Ambiguous 1 ∧
      ¬ KeepsMostUsed (usedBy oneByteGroups [[1]]) [sampleRow 0 1, sampleRow 1 1] [] [7] := by
  refine ⟨by rfl, by decide, by decide, ?_⟩
  rintro ⟨row, left, -⟩
  cases left

end CoreCrypto.Migrations
