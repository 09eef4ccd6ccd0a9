import Mathlib.Data.List.Basic

/-!
# Shared vocabulary

Byte strings and the identifiers built from them.
-/
namespace CoreCrypto

/-- `Vec<u8>`: the keystore and the wire formats work on plain byte strings. -/
abbrev Bytes := List UInt8

instance instLawfulBEqBytes : LawfulBEq Bytes := inferInstance

/-- MLS conversations are addressed by the bytes of their group id. -/
abbrev ConversationId := Bytes

/-- `hex::encode`. -/
def hexEncode (bytes : Bytes) : String :=
  String.ofList (bytes.flatMap fun byte =>
    [Nat.digitChar (byte.toNat / 16), Nat.digitChar (byte.toNat % 16)])

theorem digitChar_inj {m n : Nat} (small : m < 16) (alsoSmall : n < 16)
    (same : Nat.digitChar m = Nat.digitChar n) : m = n := by
  have digits : ∀ a b : Fin 16, Nat.digitChar a = Nat.digitChar b → a = b := by decide
  exact congrArg Fin.val (digits ⟨m, small⟩ ⟨n, alsoSmall⟩ same)

/-- The digits of a byte string tell it. -/
theorem hexEncode_injective : Function.Injective hexEncode := by
  intro xs ys same
  have digits := String.ofList_injective same
  clear same
  induction xs generalizing ys with
  | nil => cases ys <;> simp_all
  | cons x xs ih =>
    cases ys with
    | nil => simp at digits
    | cons y ys =>
      simp only [List.flatMap_cons, List.cons_append, List.nil_append, List.cons.injEq] at digits
      obtain ⟨high, low, rest⟩ := digits
      have sameHigh := digitChar_inj (by have := x.toNat_lt; omega) (by have := y.toNat_lt; omega)
        high
      have sameLow := digitChar_inj (by omega) (by omega) low
      have sameByte : x = y := UInt8.toNat_inj.mp (by omega)
      rw [sameByte, ih rest]

end CoreCrypto
