import Mathlib.Data.List.Basic

/-!
# Authenticated encryption

A cipher that seals a message under a key, a nonce and associated data, and whose ciphertexts
open under the same three only.
-/

namespace CoreCrypto.Library

/-- A cipher may refuse to seal a message, but what it sealed it opens. -/
structure Aead (Key Nonce Data Message Ciphertext : Type) where
  encrypt : Key → Nonce → Data → Message → Option Ciphertext
  decrypt : Key → Nonce → Data → Ciphertext → Option Message
  opens : ∀ {key nonce data message ciphertext},
    encrypt key nonce data message = some ciphertext →
      decrypt key nonce data ciphertext = some message
  authentic : ∀ {key nonce data message ciphertext key' nonce' data'},
    encrypt key nonce data message = some ciphertext →
      (decrypt key' nonce' data' ciphertext).isSome →
        key' = key ∧ nonce' = nonce ∧ data' = data

namespace Aead

variable {Key Nonce Data Message Ciphertext : Type}

theorem decrypt_other_key (aead : Aead Key Nonce Data Message Ciphertext) {key key' : Key}
    {nonce nonce' : Nonce} {data data' : Data} {message : Message} {ciphertext : Ciphertext}
    (sealed : aead.encrypt key nonce data message = some ciphertext) (other : key' ≠ key) :
    aead.decrypt key' nonce' data' ciphertext = none := by
  by_contra opened
  exact other (aead.authentic sealed (Option.isSome_iff_ne_none.mpr opened)).1

/-- Whether a message is sealed is not up to the nonce. -/
def NonceBlind (aead : Aead Key Nonce Data Message Ciphertext) : Prop :=
  ∀ key nonce nonce' data message,
    (aead.encrypt key nonce data message).isSome → (aead.encrypt key nonce' data message).isSome

/-- The cipher that writes everything down, from a way to read it back. -/
def ofEncoding [DecidableEq Key] [DecidableEq Nonce] [DecidableEq Data]
    (encode : Key × Nonce × Data × Message → Ciphertext)
    (decode : Ciphertext → Option (Key × Nonce × Data × Message))
    (inverse : ∀ content, decode (encode content) = some content) :
    Aead Key Nonce Data Message Ciphertext where
  encrypt key nonce data message := some (encode (key, nonce, data, message))
  decrypt key nonce data ciphertext :=
    match decode ciphertext with
    | some (key', nonce', data', message) =>
      if key = key' ∧ nonce = nonce' ∧ data = data' then some message else none
    | none => none
  opens := by
    rintro key nonce data message _ ⟨⟩
    simp [inverse]
  authentic := by
    rintro key nonce data message _ key' nonce' data' ⟨⟩ opened
    simp only [inverse] at opened
    split at opened
    next same => exact same
    · cases opened

end Aead

end CoreCrypto.Library
