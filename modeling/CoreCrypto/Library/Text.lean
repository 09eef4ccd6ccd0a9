import Mathlib.Data.Nat.Digits.Lemmas

/-!
# Texts as byte strings

Text is the list of its UTF-8 bytes.  Splitting at a delimiter, groups joined by dashes,
hexadecimal digits of byte strings and of numbers: each with a lemma that says which texts are
accepted, and which of the accepted ones are those that are printed.
-/

namespace CoreCrypto.Library.Text

/-! ### Delimiters -/

section Delimiters

variable {α : Type} [DecidableEq α] (delimiter : α) {text left right : List α}

/-- `split_once`. -/
def splitOnce : List α → Option (List α × List α)
  | [] => none
  | a :: rest =>
    if a = delimiter then some ([], rest)
    else (splitOnce rest).map fun parts => (a :: parts.1, parts.2)

theorem splitOnce_eq_some_iff :
    splitOnce delimiter text = some (left, right) ↔
      text = left ++ delimiter :: right ∧ delimiter ∉ left := by
  induction text generalizing left with
  | nil => simp [splitOnce]
  | cons a rest ih =>
    by_cases found : a = delimiter
    · subst found
      cases left with
      | nil => simp [splitOnce, eq_comm]
      | cons first left =>
        simp only [splitOnce, if_true, Option.some.injEq, Prod.mk.injEq, List.cons_append,
          List.cons.injEq, List.mem_cons, not_or]
        constructor
        · rintro ⟨clash, -⟩
          cases clash
        · rintro ⟨⟨rfl, -⟩, different, -⟩
          exact absurd rfl different
    · cases left with
      | nil => simp [splitOnce, found]
      | cons first left =>
        simp only [splitOnce, found, if_false, Option.map_eq_some_iff, Prod.mk.injEq,
          List.cons.injEq, List.cons_append, List.mem_cons, not_or, Prod.exists]
        constructor
        · rintro ⟨l, r, parts, ⟨rfl, rfl⟩, rfl⟩
          obtain ⟨rfl, absent⟩ := ih.mp parts
          exact ⟨⟨rfl, rfl⟩, Ne.symm found, absent⟩
        · rintro ⟨⟨rfl, rfl⟩, -, absent⟩
          exact ⟨left, right, ih.mpr ⟨rfl, absent⟩, ⟨rfl, rfl⟩, rfl⟩

theorem splitOnce_eq_none_iff : splitOnce delimiter text = none ↔ delimiter ∉ text := by
  induction text with
  | nil => simp [splitOnce]
  | cons a rest ih =>
    by_cases found : a = delimiter
    · simp [splitOnce, found]
    · simp [splitOnce, found, ih, Ne.symm found]

/-- What comes before the first delimiter, and what comes after it, are told by the text. -/
theorem delimited_inj {left' right' : List α} (absent : delimiter ∉ left)
    (absent' : delimiter ∉ left') :
    left ++ delimiter :: right = left' ++ delimiter :: right' ↔ left = left' ∧ right = right' := by
  constructor
  · intro same
    have first : splitOnce delimiter (left ++ delimiter :: right) = some (left, right) :=
      (splitOnce_eq_some_iff delimiter).mpr ⟨rfl, absent⟩
    have second := (splitOnce_eq_some_iff delimiter).mpr ⟨same, absent'⟩
    simpa using first.symm.trans second
  · rintro ⟨rfl, rfl⟩
    rfl

/-- `split`: the parts between the delimiters. -/
def split : List α → List (List α)
  | [] => [[]]
  | a :: rest =>
    if a = delimiter then [] :: split rest
    else
      match split rest with
      | [] => [[a]]
      | first :: more => (a :: first) :: more

theorem split_eq (text : List α) :
    split delimiter text =
      match splitOnce delimiter text with
      | none => [text]
      | some (left, right) => left :: split delimiter right := by
  induction text with
  | nil => rfl
  | cons a rest ih =>
    by_cases found : a = delimiter
    · simp [split, splitOnce, found]
    · rw [split, splitOnce, if_neg found, if_neg found, ih]
      cases splitOnce delimiter rest with
      | none => rfl
      | some parts => rfl

/-- There are two parts iff there is one delimiter. -/
theorem split_eq_pair_iff :
    split delimiter text = [left, right] ↔
      text = left ++ delimiter :: right ∧ delimiter ∉ left ∧ delimiter ∉ right := by
  have single : ∀ rest : List α, split delimiter rest = [right] ↔
      rest = right ∧ delimiter ∉ right := by
    intro rest
    rw [split_eq]
    cases parts : splitOnce delimiter rest with
    | none =>
      rw [splitOnce_eq_none_iff] at parts
      simp only [List.cons.injEq, and_true]
      exact ⟨fun same => ⟨same, same ▸ parts⟩, And.left⟩
    | some pair =>
      obtain ⟨l, r⟩ := pair
      obtain ⟨rfl, -⟩ := (splitOnce_eq_some_iff delimiter).mp parts
      constructor
      · intro clash
        have more : split delimiter r ≠ [] := by
          rw [split_eq]
          split <;> simp
        simp [more] at clash
      · rintro ⟨rfl, absent⟩
        simp at absent
  rw [split_eq]
  cases parts : splitOnce delimiter text with
  | none =>
    rw [splitOnce_eq_none_iff] at parts
    simp only [List.cons.injEq, and_false, reduceCtorEq, false_iff]
    rintro ⟨rfl, -⟩
    simp at parts
  | some pair =>
    obtain ⟨l, r⟩ := pair
    obtain ⟨rfl, absent⟩ := (splitOnce_eq_some_iff delimiter).mp parts
    simp only [List.cons.injEq, single]
    constructor
    · rintro ⟨rfl, rfl, free⟩
      exact ⟨rfl, absent, free⟩
    · rintro ⟨same, absentLeft, free⟩
      have again := (splitOnce_eq_some_iff delimiter).mpr ⟨same, absentLeft⟩
      rw [parts] at again
      obtain ⟨rfl, rfl⟩ : l = left ∧ r = right := by simpa using again
      exact ⟨rfl, rfl, free⟩

end Delimiters

/-! ### Groups joined by dashes -/

section Groups

variable {α : Type} [DecidableEq α] (dash : α)

/-- The text with a dash behind each group of the given lengths. -/
def joinGroups : List Nat → List α → List α
  | [], text => text
  | length :: rest, text => text.take length ++ dash :: joinGroups rest (text.drop length)

/-- The text without the dashes, if they are where the groups of the given lengths end. -/
def splitGroups : List Nat → List α → Option (List α)
  | [], text => some text
  | length :: rest, text =>
    match text.drop length with
    | [] => none
    | a :: tail => if a = dash then (splitGroups rest tail).map (text.take length ++ ·) else none

theorem splitGroups_joinGroups (lengths : List Nat) (text : List α)
    (long : lengths.sum ≤ text.length) :
    splitGroups dash lengths (joinGroups dash lengths text) = some text := by
  induction lengths generalizing text with
  | nil => rfl
  | cons length rest ih =>
    rw [List.sum_cons] at long
    have first : (text.take length).length = length := by simp; omega
    have dropped : (joinGroups dash (length :: rest) text).drop length =
        dash :: joinGroups dash rest (text.drop length) := by
      rw [joinGroups, List.drop_left' first]
    have taken : (joinGroups dash (length :: rest) text).take length = text.take length := by
      rw [joinGroups, List.take_left' first]
    rw [splitGroups, dropped]
    simp only [if_true]
    rw [ih (text.drop length) (by simp; omega), taken]
    simp

theorem joinGroups_of_splitGroups (lengths : List Nat) (text content : List α)
    (accepted : splitGroups dash lengths text = some content) :
    joinGroups dash lengths content = text ∧ text.length = content.length + lengths.length := by
  induction lengths generalizing text content with
  | nil => simp_all [splitGroups, joinGroups]
  | cons length rest ih =>
    rw [splitGroups] at accepted
    cases tailEq : text.drop length with
    | nil => simp [tailEq] at accepted
    | cons a tail =>
      rw [tailEq] at accepted
      simp only at accepted
      split at accepted
      next same =>
        obtain ⟨inner, innerEq, rfl⟩ := Option.map_eq_some_iff.mp accepted
        obtain ⟨joined, lengthEq⟩ := ih tail inner innerEq
        have long : length < text.length := by
          by_contra short
          rw [List.drop_eq_nil_of_le (by omega)] at tailEq
          cases tailEq
        have first : (text.take length).length = length := by simp; omega
        have whole : text = text.take length ++ a :: tail := by
          rw [← tailEq, List.take_append_drop]
        constructor
        · rw [joinGroups, List.take_left' first, List.drop_left' first, joined, ← same, ← whole]
        · have counted := congrArg List.length whole
          simp only [List.length_append, List.length_cons] at counted ⊢
          omega
      next => cases accepted

omit [DecidableEq α] in
theorem mem_joinGroups {lengths : List Nat} {text : List α} {a : α}
    (member : a ∈ joinGroups dash lengths text) : a ∈ text ∨ a = dash := by
  induction lengths generalizing text with
  | nil => exact .inl member
  | cons length rest ih =>
    rw [joinGroups, List.mem_append, List.mem_cons] at member
    rcases member with inFirst | rfl | inRest
    · exact .inl (List.mem_of_mem_take inFirst)
    · exact .inr rfl
    · rcases ih inRest with inText | same
      · exact .inl (List.mem_of_mem_drop inText)
      · exact .inr same

omit [DecidableEq α] in
theorem subset_joinGroups (lengths : List Nat) (text : List α) :
    text ⊆ joinGroups dash lengths text := by
  induction lengths generalizing text with
  | nil => exact fun _ member => member
  | cons length rest ih =>
    intro a member
    rw [← List.take_append_drop length text, List.mem_append] at member
    rw [joinGroups, List.mem_append, List.mem_cons]
    rcases member with inFirst | inRest
    · exact .inl inFirst
    · exact .inr (.inr (ih _ inRest))

omit [DecidableEq α] in
theorem length_joinGroups (lengths : List Nat) (text : List α) :
    (joinGroups dash lengths text).length = text.length + lengths.length := by
  induction lengths generalizing text with
  | nil => rfl
  | cons length rest ih =>
    simp only [joinGroups, List.length_append, List.length_cons, ih, List.length_take,
      List.length_drop]
    omega

end Groups

/-! ### Hexadecimal digits -/

/-- The digit that is printed. -/
def hexDigit (n : Nat) : UInt8 :=
  if n < 10 then UInt8.ofNat (48 + n) else UInt8.ofNat (87 + n)

/-- The value of a digit; capital letters are read as well. -/
def hexVal (b : UInt8) : Option Nat :=
  if 48 ≤ b ∧ b ≤ 57 then some (b.toNat - 48)
  else if 97 ≤ b ∧ b ≤ 102 then some (b.toNat - 87)
  else if 65 ≤ b ∧ b ≤ 70 then some (b.toNat - 55)
  else none

def IsCapital (b : UInt8) : Prop := 65 ≤ b ∧ b ≤ 90

instance (b : UInt8) : Decidable (IsCapital b) :=
  inferInstanceAs (Decidable (_ ∧ _))

theorem forall_byte {p : UInt8 → Prop} (each : ∀ n : Fin 256, p (UInt8.ofNat n)) (b : UInt8) :
    p b := by
  have this := each ⟨b.toNat, b.toNat_lt⟩
  simpa using this

variable {n : Nat}

theorem hexVal_hexDigit (small : n < 16) : hexVal (hexDigit n) = some n := by
  have each : ∀ k : Fin 16, hexVal (hexDigit k) = some k.val := by decide
  exact each ⟨n, small⟩

variable {b : UInt8}

theorem hexVal_lt (value : hexVal b = some n) : n < 16 := by
  have each : ∀ b : UInt8, ∀ m ∈ hexVal b, m < 16 := fun b =>
    forall_byte (p := fun b => ∀ m ∈ hexVal b, m < 16) (by decide +kernel) b
  exact each b n value

theorem hexDigit_eq_iff (value : hexVal b = some n) : hexDigit n = b ↔ ¬ IsCapital b := by
  have each : ∀ b : UInt8, ∀ m ∈ hexVal b, (hexDigit m = b ↔ ¬ IsCapital b) := fun b =>
    forall_byte (p := fun b => ∀ m ∈ hexVal b, (hexDigit m = b ↔ ¬ IsCapital b))
      (by decide +kernel) b
  exact each b n value

theorem hexVal_ascii (value : hexVal b = some n) : b < 128 := by
  have each : ∀ b : UInt8, ∀ m ∈ hexVal b, b < 128 := fun b =>
    forall_byte (p := fun b => ∀ m ∈ hexVal b, b < 128) (by decide +kernel) b
  exact each b n value

theorem hexVal_delimiter (other : b = 58 ∨ b = 64 ∨ b = 43 ∨ b = 45) : hexVal b = none := by
  rcases other with rfl | rfl | rfl | rfl <;> rfl

def hexVals : List UInt8 → Option (List Nat)
  | [] => some []
  | b :: rest =>
    match hexVal b, hexVals rest with
    | some v, some vs => some (v :: vs)
    | _, _ => none

theorem hexVals_cons {rest : List UInt8} {values : List Nat} :
    hexVals (b :: rest) = some values ↔
      ∃ v vs, hexVal b = some v ∧ hexVals rest = some vs ∧ values = v :: vs := by
  rw [hexVals]
  cases hexVal b with
  | none => simp
  | some v =>
    cases hexVals rest with
    | none => simp
    | some vs => simp [eq_comm]

theorem hexVals_map_hexDigit {values : List Nat} (small : ∀ v ∈ values, v < 16) :
    hexVals (values.map hexDigit) = some values := by
  induction values with
  | nil => rfl
  | cons v vs ih =>
    rw [List.map_cons, hexVals_cons]
    exact ⟨v, vs, hexVal_hexDigit (small v (by simp)), ih fun u inVs => small u (by simp [inVs]),
      rfl⟩

variable {text : List UInt8}

theorem hexVals_values {values : List Nat} (accepted : hexVals text = some values) :
    (∀ v ∈ values, v < 16) ∧ (∀ b ∈ text, (hexVal b).isSome) ∧ values.length = text.length := by
  induction text generalizing values with
  | nil =>
    obtain rfl : [] = values := by simpa [hexVals] using accepted
    simp
  | cons b rest ih =>
    obtain ⟨v, vs, value, others, rfl⟩ := hexVals_cons.mp accepted
    obtain ⟨small, each, length⟩ := ih others
    refine ⟨?_, ?_, by simp [length]⟩
    · intro u member
      rcases List.mem_cons.mp member with rfl | inVs
      · exact hexVal_lt value
      · exact small u inVs
    · intro c member
      rcases List.mem_cons.mp member with rfl | inRest
      · rw [value]; rfl
      · exact each c inRest

/-- The digits that are printed for the values are the text iff it has no capital letter. -/
theorem map_hexDigit_eq_iff {values : List Nat} (accepted : hexVals text = some values) :
    values.map hexDigit = text ↔ ∀ b ∈ text, ¬ IsCapital b := by
  induction text generalizing values with
  | nil =>
    obtain rfl : [] = values := by simpa [hexVals] using accepted
    simp
  | cons b rest ih =>
    obtain ⟨v, vs, value, others, rfl⟩ := hexVals_cons.mp accepted
    simp [hexDigit_eq_iff value, ih others]

theorem hexVal_of_mem {values : List Nat} (accepted : hexVals text = some values)
    (member : b ∈ text) : hexVal b ≠ none := by
  have isSome := (hexVals_values accepted).2.1 b member
  intro none
  rw [none] at isSome
  cases isSome

/-! ### Byte strings in hexadecimal digits -/

def encodeHex (bytes : List UInt8) : List UInt8 :=
  bytes.flatMap fun byte => [hexDigit (byte.toNat / 16), hexDigit (byte.toNat % 16)]

/-- The bytes whose digits come in pairs. -/
def pairUp : List Nat → Option (List UInt8)
  | [] => some []
  | [_] => none
  | high :: low :: rest => (pairUp rest).map (UInt8.ofNat (16 * high + low) :: ·)

def decodeHex (text : List UInt8) : Option (List UInt8) :=
  (hexVals text).bind pairUp

def halves (bytes : List UInt8) : List Nat :=
  bytes.flatMap fun byte => [byte.toNat / 16, byte.toNat % 16]

theorem encodeHex_eq (bytes : List UInt8) : encodeHex bytes = (halves bytes).map hexDigit := by
  simp [encodeHex, halves, List.map_flatMap]

theorem halves_lt (bytes : List UInt8) : ∀ v ∈ halves bytes, v < 16 := by
  intro v member
  obtain ⟨byte, -, inPair⟩ := List.mem_flatMap.mp member
  have bound := byte.toNat_lt
  simp only [List.mem_cons, List.not_mem_nil, or_false] at inPair
  omega

theorem pairUp_halves (bytes : List UInt8) : pairUp (halves bytes) = some bytes := by
  induction bytes with
  | nil => rfl
  | cons byte rest ih =>
    have whole : UInt8.ofNat (16 * (byte.toNat / 16) + byte.toNat % 16) = byte := by
      rw [Nat.div_add_mod]
      exact UInt8.ofNat_toNat
    change (pairUp (halves rest)).map _ = _
    rw [ih, Option.map_some, whole]

variable {bytes : List UInt8}

theorem halves_of_pairUp {values : List Nat} (small : ∀ v ∈ values, v < 16)
    (paired : pairUp values = some bytes) : halves bytes = values := by
  induction values using pairUp.induct generalizing bytes with
  | case1 =>
    obtain rfl : [] = bytes := by simpa [pairUp] using paired
    rfl
  | case2 => simp [pairUp] at paired
  | case3 high low rest ih =>
    obtain ⟨others, pairedRest, rfl⟩ := Option.map_eq_some_iff.mp paired
    have highSmall := small high (by simp)
    have lowSmall := small low (by simp)
    have whole : (UInt8.ofNat (16 * high + low)).toNat = 16 * high + low := by
      simp only [UInt8.toNat_ofNat']
      omega
    have rest := ih (fun v member => small v (by simp [member])) pairedRest
    change [_, _] ++ halves others = _
    rw [rest, whole]
    simp only [List.cons_append, List.nil_append, List.cons.injEq, and_true]
    omega

theorem decodeHex_encodeHex (bytes : List UInt8) : decodeHex (encodeHex bytes) = some bytes := by
  rw [decodeHex, encodeHex_eq, hexVals_map_hexDigit (halves_lt bytes)]
  exact pairUp_halves bytes

theorem length_encodeHex (bytes : List UInt8) : (encodeHex bytes).length = 2 * bytes.length := by
  induction bytes with
  | nil => rfl
  | cons byte rest ih =>
    simp only [encodeHex, List.flatMap_cons, List.length_append, List.length_cons,
      List.length_nil] at ih ⊢
    omega

theorem encodeHex_eq_iff (accepted : decodeHex text = some bytes) :
    encodeHex bytes = text ↔ ∀ b ∈ text, ¬ IsCapital b := by
  obtain ⟨values, read, paired⟩ := Option.bind_eq_some_iff.mp accepted
  rw [encodeHex_eq, halves_of_pairUp (hexVals_values read).1 paired]
  exact map_hexDigit_eq_iff read

theorem hexVal_of_mem_decoded (accepted : decodeHex text = some bytes)
    (member : b ∈ text) : hexVal b ≠ none := by
  obtain ⟨values, read, -⟩ := Option.bind_eq_some_iff.mp accepted
  exact hexVal_of_mem read member

/-! ### Numbers in hexadecimal digits -/

def printHex (n : Nat) : List UInt8 :=
  if n = 0 then [48] else (Nat.digits 16 n).reverse.map hexDigit

def readHex (text : List UInt8) : Option Nat :=
  (hexVals text).map fun values => Nat.ofDigits 16 values.reverse

theorem readHex_printHex (n : Nat) : readHex (printHex n) = some n := by
  unfold readHex printHex
  split
  next zero =>
    subst zero
    rfl
  next =>
    have small : ∀ v ∈ (Nat.digits 16 n).reverse, v < 16 := by
      intro v member
      exact Nat.digits_lt_base (by omega) (List.mem_reverse.mp member)
    rw [hexVals_map_hexDigit small]
    simp [Nat.ofDigits_digits]

theorem hexVal_of_mem_printHex (member : b ∈ printHex n) : hexVal b ≠ none := by
  obtain ⟨values, read, -⟩ := Option.map_eq_some_iff.mp (readHex_printHex n)
  exact hexVal_of_mem read member

theorem hexDigit_not_capital (small : n < 16) : ¬ IsCapital (hexDigit n) :=
  (hexDigit_eq_iff (hexVal_hexDigit small)).mp rfl

theorem printHex_not_capital (member : b ∈ printHex n) : ¬ IsCapital b := by
  unfold printHex at member
  split at member
  next =>
    obtain rfl := List.mem_singleton.mp member
    decide
  next =>
    obtain ⟨v, inDigits, rfl⟩ := List.mem_map.mp member
    exact hexDigit_not_capital (Nat.digits_lt_base (by omega) (List.mem_reverse.mp inDigits))

theorem printHex_leading (zero : (printHex n).head? = some 48) : printHex n = [48] := by
  unfold printHex at zero ⊢
  split at zero
  next isZero => rw [if_pos isZero]
  next positive =>
    have nonempty : Nat.digits 16 n ≠ [] := Nat.digits_ne_nil_iff_ne_zero.mpr positive
    have last := Nat.getLast_digit_ne_zero 16 positive
    have small : (Nat.digits 16 n).getLast nonempty < 16 :=
      Nat.digits_lt_base (by omega) (List.getLast_mem nonempty)
    rw [List.head?_map, List.head?_reverse, List.getLast?_eq_some_getLast nonempty,
      Option.map_some, Option.some.injEq] at zero
    have value := hexVal_hexDigit small
    rw [zero] at value
    exact absurd (Option.some.inj value).symm last

theorem printHex_eq_iff (nonempty : text ≠ []) (accepted : readHex text = some n) :
    printHex n = text ↔ (∀ b ∈ text, ¬ IsCapital b) ∧ (text.head? = some 48 → text = [48]) := by
  obtain ⟨values, read, rfl⟩ := Option.map_eq_some_iff.mp accepted
  obtain ⟨small, -, length⟩ := hexVals_values read
  constructor
  · rintro rfl
    exact ⟨fun b member => printHex_not_capital member, printHex_leading⟩
  · rintro ⟨lower, leading⟩
    obtain rfl := (map_hexDigit_eq_iff read).mpr lower
    cases values with
    | nil => exact absurd rfl nonempty
    | cons first rest =>
      by_cases zero : first = 0
      · subst zero
        have single := leading rfl
        obtain rfl : rest = [] := by simpa using congrArg List.tail single
        rfl
      · -- without a leading zero, these are the digits of the number
        have digits : Nat.digits 16 (Nat.ofDigits 16 (first :: rest).reverse) =
            (first :: rest).reverse :=
          Nat.digits_ofDigits 16 (by omega) _ (fun v member => small v (List.mem_reverse.mp member))
            (fun _ => by simpa using zero)
        have positive : Nat.ofDigits 16 (first :: rest).reverse ≠ 0 := by
          intro isZero
          rw [isZero] at digits
          simp at digits
        rw [printHex, if_neg positive, digits, List.reverse_reverse]

/-! ### UTF-8 -/

/-- The second byte of a sequence that starts with `first`. -/
def isSecond (first second : UInt8) : Bool :=
  0x80 ≤ second && second ≤ 0xbf && (first ≠ 0xe0 || 0xa0 ≤ second) &&
    (first ≠ 0xed || second ≤ 0x9f) && (first ≠ 0xf0 || 0x90 ≤ second) &&
    (first ≠ 0xf4 || second ≤ 0x8f)

def isContinuation (b : UInt8) : Bool := 0x80 ≤ b && b ≤ 0xbf

/-- Whether the bytes are well-formed UTF-8. -/
def utf8Valid : List UInt8 → Bool
  | [] => true
  | a :: rest =>
    if a < 0x80 then utf8Valid rest
    else if 0xc2 ≤ a ∧ a ≤ 0xdf then
      match rest with
      | b :: rest => isSecond a b && utf8Valid rest
      | _ => false
    else if 0xe0 ≤ a ∧ a ≤ 0xef then
      match rest with
      | b :: c :: rest => isSecond a b && isContinuation c && utf8Valid rest
      | _ => false
    else if 0xf0 ≤ a ∧ a ≤ 0xf4 then
      match rest with
      | b :: c :: d :: rest =>
        isSecond a b && isContinuation c && isContinuation d && utf8Valid rest
      | _ => false
    else false

theorem utf8Valid_cons_ascii {a : UInt8} (small : a < 128) (rest : List UInt8) :
    utf8Valid (a :: rest) = utf8Valid rest := by
  conv_lhs => unfold utf8Valid
  exact if_pos small

theorem utf8Valid_ascii_append {ascii : List UInt8} (small : ∀ b ∈ ascii, b < 128)
    (rest : List UInt8) : utf8Valid (ascii ++ rest) = utf8Valid rest := by
  induction ascii with
  | nil => rfl
  | cons a ascii ih =>
    rw [List.cons_append, utf8Valid_cons_ascii (small a (by simp))]
    exact ih fun b member => small b (by simp [member])

end CoreCrypto.Library.Text
