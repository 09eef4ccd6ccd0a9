import CoreCrypto.Credentials.Check

/-!
# The verification state of a conversation

`compute_conversation_state` goes through the credentials of the members.  It stops at the first
certificate that is not valid, and at the first credential without a certificate after one with a
certificate.
-/

namespace CoreCrypto.Credentials

open Pki

inductive E2eiConversationState where
  | verified
  | notVerified
  | notEnabled
  deriving DecidableEq, Repr

/-- What the PKI environment and the clock say of a certificate.  Time validity is not known of a
certificate whose dates cannot be read. -/
structure CertVerdicts where
  identityExtracted : Certificate → Bool
  isTimeValid : Certificate → Option Bool
  validated : Certificate → Bool

section State

variable (x : X509) (env : CertVerdicts)

def CertVerdicts.isInvalid (cert : Certificate) : Bool :=
  let invalidIdentity := !env.identityExtracted cert
  let isTimeInvalid := !(env.isTimeValid cert).getD false
  let isRevokedOrInvalid := !env.validated cert
  invalidIdentity || isTimeInvalid || isRevokedOrInvalid

/-- What the function returns after the loop. -/
def conversationState (isE2ei : Bool) (state : E2eiConversationState) : E2eiConversationState :=
  if isE2ei then state else .notEnabled

/-- The loop over the credentials, with its two variables. -/
def checkLoop (isE2ei : Bool) (state : E2eiConversationState) :
    List MlsCredential → E2eiConversationState
  | [] => conversationState isE2ei state
  | credential :: rest =>
    match parseLeafCert x credential with
    | .ok (some cert) =>
      if env.isInvalid cert then conversationState true .notVerified
      else checkLoop true state rest
    | _ =>
      if isE2ei then conversationState isE2ei .notVerified
      else checkLoop isE2ei .notVerified rest

def computeConversationState (credentials : List MlsCredential) (pkiEnv : Option CertVerdicts) :
    E2eiConversationState :=
  match pkiEnv with
  | none => .notEnabled
  | some env => checkLoop x env false .verified credentials

/-! ### What the state says -/

/-- The credential has a leaf certificate that can be parsed. -/
def HasLeaf (credential : MlsCredential) : Prop :=
  ∃ cert, parseLeafCert x credential = .ok (some cert)

/-- Its identity can be extracted, it is valid at the time, and `validate_cert` accepts it. -/
def HasValidLeaf (credential : MlsCredential) : Prop :=
  ∃ cert, parseLeafCert x credential = .ok (some cert) ∧ env.identityExtracted cert ∧
    env.isTimeValid cert = some true ∧ env.validated cert

variable {x env}

theorem isInvalid_eq_false {cert : Certificate} : env.isInvalid cert = false ↔
    env.identityExtracted cert ∧ env.isTimeValid cert = some true ∧ env.validated cert := by
  simp only [CertVerdicts.isInvalid, Bool.or_eq_false_iff, Bool.not_eq_false', and_assoc]
  cases env.isTimeValid cert <;> simp

theorem HasValidLeaf.hasLeaf {credential : MlsCredential}
    (valid : HasValidLeaf x env credential) : HasLeaf x credential := by
  obtain ⟨cert, parsed, -⟩ := valid
  exact ⟨cert, parsed⟩

variable (x env) (isE2ei : Bool) (state : E2eiConversationState)

/-- One round of the loop: the credential is valid, or ends the loop, or is passed over. -/
theorem checkLoop_cons (credential : MlsCredential) (rest : List MlsCredential) :
    HasValidLeaf x env credential ∧
        checkLoop x env isE2ei state (credential :: rest) = checkLoop x env true state rest ∨
      ¬ HasValidLeaf x env credential ∧ (isE2ei ∨ HasLeaf x credential) ∧
        checkLoop x env isE2ei state (credential :: rest) = .notVerified ∨
      ¬ HasLeaf x credential ∧ isE2ei = false ∧
        checkLoop x env isE2ei state (credential :: rest) = checkLoop x env false .notVerified rest := by
  rw [checkLoop]
  split
  next cert parsed =>
    have valid : HasValidLeaf x env credential ↔ env.isInvalid cert = false := by
      simp [HasValidLeaf, parsed, isInvalid_eq_false]
    cases invalid : env.isInvalid cert with
    | true => exact .inr (.inl ⟨by simp [valid, invalid], .inr ⟨cert, parsed⟩, rfl⟩)
    | false => exact .inl ⟨valid.mpr invalid, rfl⟩
  next none =>
    have noLeaf : ¬ HasLeaf x credential := fun leaf => none leaf.choose leaf.choose_spec
    cases isE2ei with
    | true => exact .inr (.inl ⟨fun valid => noLeaf valid.hasLeaf, .inl rfl, rfl⟩)
    | false => exact .inr (.inr ⟨noLeaf, rfl, rfl⟩)

theorem checkLoop_iff (credentials : List MlsCredential) (entered : state ≠ .notEnabled) :
    (checkLoop x env isE2ei state credentials = .notEnabled ↔
        isE2ei = false ∧ ∀ credential ∈ credentials, ¬ HasLeaf x credential) ∧
      (checkLoop x env isE2ei state credentials = .verified ↔
        (isE2ei ∨ credentials ≠ []) ∧ state = .verified ∧
          ∀ credential ∈ credentials, HasValidLeaf x env credential) := by
  induction credentials generalizing isE2ei state with
  | nil => cases isE2ei <;> simp [checkLoop, conversationState, entered]
  | cons credential rest ih =>
    simp only [List.forall_mem_cons]
    rcases checkLoop_cons x env isE2ei state credential rest with
      ⟨valid, next⟩ | ⟨invalid, ends, next⟩ | ⟨noLeaf, notYet, next⟩
    · rw [next, (ih true state entered).1, (ih true state entered).2]
      simp [valid, valid.hasLeaf]
    · rw [next]
      refine ⟨iff_of_false (by rintro ⟨⟩) ?_, iff_of_false (by rintro ⟨⟩) fun all => invalid all.2.2.1⟩
      rintro ⟨notYet, noLeaf, -⟩
      exact ends.elim (by simp [notYet]) noLeaf
    · have invalid : ¬ HasValidLeaf x env credential := fun valid => noLeaf valid.hasLeaf
      obtain ⟨notEnabled, verified⟩ := ih false .notVerified (by rintro ⟨⟩)
      rw [next, notEnabled, verified]
      simp [notYet, noLeaf, invalid]

end State

theorem E2eiConversationState.eq_iff {a b : E2eiConversationState} :
    a = b ↔ (a = .notEnabled ↔ b = .notEnabled) ∧ (a = .verified ↔ b = .verified) := by
  cases a <;> cases b <;> simp

/-- **The verification state of a conversation**: not enabled without a PKI environment or without any
certificate, verified if every credential has a valid certificate and there is one, not verified
otherwise; so the order of the credentials does not matter. -/
theorem computeConversationState_exact (x : X509) (credentials : List MlsCredential)
    (pkiEnv : Option CertVerdicts) :
    (computeConversationState x credentials pkiEnv = .notEnabled ↔
        pkiEnv = none ∨ ∀ credential ∈ credentials, ¬ HasLeaf x credential) ∧
      (computeConversationState x credentials pkiEnv = .verified ↔
        ∃ env, pkiEnv = some env ∧ credentials ≠ [] ∧
          ∀ credential ∈ credentials, HasValidLeaf x env credential) ∧
      (computeConversationState x credentials pkiEnv = .notVerified ↔
        ∃ env, pkiEnv = some env ∧ (∃ credential ∈ credentials, HasLeaf x credential) ∧
          ∃ credential ∈ credentials, ¬ HasValidLeaf x env credential) ∧
      ∀ permuted, permuted.Perm credentials →
        computeConversationState x permuted pkiEnv = computeConversationState x credentials pkiEnv := by
  cases pkiEnv with
  | none => simp [computeConversationState]
  | some env =>
    simp only [computeConversationState]
    have each (credentials : List MlsCredential) :=
      checkLoop_iff x env false .verified credentials (by rintro ⟨⟩)
    refine ⟨by simp [(each credentials).1], by simp [(each credentials).2], ?_, fun permuted perm => ?_⟩
    · rw [E2eiConversationState.eq_iff, (each credentials).1, (each credentials).2]
      simp only [true_and, reduceCtorEq, iff_false, Option.some.injEq, exists_eq_left', Bool.false_eq_true,
        false_or, not_and, not_forall, not_not, exists_prop]
      refine and_congr_right fun leaf => ?_
      obtain ⟨credential, member, -⟩ := leaf
      simp [List.ne_nil_of_mem member]
    · have empty : permuted = [] ↔ credentials = [] := by
        rw [← List.length_eq_zero_iff, perm.length_eq, List.length_eq_zero_iff]
      rw [E2eiConversationState.eq_iff, (each permuted).1, (each permuted).2, (each credentials).1,
        (each credentials).2]
      simp only [perm.mem_iff, ne_eq, empty, iff_self, and_self]

theorem computeConversationState_swap :
    computeConversationState pointingX509 [.basic [1], .x509 [2] [[3]]]
        (some ⟨fun _ => true, fun _ => some true, fun _ => true⟩) =
      computeConversationState pointingX509 [.x509 [2] [[3]], .basic [1]]
        (some ⟨fun _ => true, fun _ => some true, fun _ => true⟩) :=
  (computeConversationState_exact _ _ _).2.2.2 _ (.swap _ _ [])

end CoreCrypto.Credentials
