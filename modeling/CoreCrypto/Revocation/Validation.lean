import CoreCrypto.Library.Except
import CoreCrypto.Revocation.CrlInfo

/-!
# Validation of certificates and the status of an identity

`validate_cert_internal` remembers the error of the path it looked at last, and `from_cert` takes
every error it does not know for a valid identity.  certval is a parameter.
-/
namespace CoreCrypto.Revocation

open Library.Fallible

/-- The statuses that this code tells apart; `other` stands for the rest of the enumeration. -/
inductive PathValidationStatus where
  | valid
  | revocationStatusNotDetermined
  | revocationStatusNotAvailable
  | certificateRevoked
  | certificateRevokedEndEntity
  | certificateRevokedIntermediateCa
  | invalidNotAfterDate
  | noPathsFound
  | signatureVerificationFailure
  | other (name : String)
deriving DecidableEq, Repr

/-- `pathValidation` is the `CertValError` of a status. -/
inductive RustyX509CheckError where
  | derError
  | pemError
  | lockPoisonError
  | cannotDetermineCurrentTime
  | pathValidation (status : PathValidationStatus)
  | certValError (error : CertvalError)
  | cannotDetermineVerificationStatus
  | missingSki
  | implementationError
deriving DecidableEq, Repr

/-- `CertificationPathSettings`, as far as they change. -/
structure CertificationPathSettings where
  timeOfInterest : Nat
  checkCrls : Bool

/-- The clock, the parsing of certificates, and certval: the paths for a certificate, and the
validation status that each of the two checks leaves in its results. -/
structure Certval (Cert Pdv Path : Type) where
  now : Option Nat
  pdvCertificate : Cert → Except RustyX509CheckError Pdv
  getPathsForTarget : Nat → Pdv → Except RustyX509CheckError (List Path)
  validatePathRfc5280 : CertificationPathSettings → Path → Option PathValidationStatus
  checkRevocation : CertificationPathSettings → Path → Option PathValidationStatus

inductive IdentityStatus where
  | valid
  | expired
  | revoked
deriving DecidableEq, Repr

/-- `check_cpr`, on the status of the results. -/
def checkCpr : Option PathValidationStatus → Except RustyX509CheckError Unit
  | some .valid => .ok ()
  | some .revocationStatusNotDetermined | some .revocationStatusNotAvailable => .ok ()
  | some status => .error (.pathValidation status)
  | none => .error .cannotDetermineVerificationStatus

/-- What `from_cert` makes of a status. -/
def ofStatus : PathValidationStatus → IdentityStatus
  | .invalidNotAfterDate => .expired
  | .certificateRevoked | .certificateRevokedEndEntity | .noPathsFound
  | .certificateRevokedIntermediateCa => .revoked
  | _ => .valid

section Validation

variable {Cert Pdv Path : Type} (certval : Certval Cert Pdv Path) {e : RustyX509CheckError}

/-- The search over the paths.  The settings are changed by the first path that is checked for
revocation, and stay changed. -/
def anyPathValidates (performRevocationCheck : Bool) (cps : CertificationPathSettings)
    (result : Except RustyX509CheckError Unit) : List Path → Except RustyX509CheckError Unit
  | [] => result
  | path :: rest =>
    match checkCpr (certval.validatePathRfc5280 cps path) with
    | .error e => anyPathValidates performRevocationCheck cps (.error e) rest
    | .ok () =>
      if performRevocationCheck then
        let cps := { cps with checkCrls := true }
        match checkCpr (certval.checkRevocation cps path) with
        | .error e => anyPathValidates performRevocationCheck cps (.error e) rest
        | .ok () => .ok ()
      else
        .ok ()

def validateCertInternal (cert : Cert) (performRevocationCheck : Bool) :
    Except RustyX509CheckError Unit := do
  let some toi := certval.now | throw .cannotDetermineCurrentTime
  let pdv ← certval.pdvCertificate cert
  let paths ← certval.getPathsForTarget toi pdv
  if paths.isEmpty then
    throw (.pathValidation .noPathsFound)
  anyPathValidates certval performRevocationCheck ⟨toi, false⟩ (.ok ()) paths

def validateCert (cert : Cert) : Except RustyX509CheckError Unit :=
  validateCertInternal certval cert false

def validateCertAndRevocation (cert : Cert) : Except RustyX509CheckError Unit :=
  validateCertInternal certval cert true

/-- `IdentityStatus::from_cert`. -/
def fromCert (cert : Cert) : IdentityStatus :=
  match validateCertAndRevocation certval cert with
  | .error (.pathValidation status) => ofStatus status
  | _ => .valid

/-! ### Statuses of paths -/

/-- certval gives a path a fixed validation status and a fixed revocation status, whatever the
settings were changed to. -/
structure Certval.Fixed : Prop where
  validation : ∀ toi checkCrls path, certval.validatePathRfc5280 ⟨toi, checkCrls⟩ path =
    certval.validatePathRfc5280 ⟨toi, false⟩ path
  revocation : ∀ toi checkCrls path, certval.checkRevocation ⟨toi, checkCrls⟩ path =
    certval.checkRevocation ⟨toi, true⟩ path

/-- The path passes path validation. -/
def Certval.Passes (toi : Nat) (path : Path) : Prop :=
  checkCpr (certval.validatePathRfc5280 ⟨toi, false⟩ path) = .ok ()

/-- The status says that a certificate of the path is revoked. -/
def Certval.Revoked (toi : Nat) (path : Path) : Prop :=
  certval.checkRevocation ⟨toi, true⟩ path ∈
    [some .certificateRevoked, some .certificateRevokedEndEntity,
      some .certificateRevokedIntermediateCa]

/-- Both checks of one path, one after the other. -/
def Certval.checkPath (toi : Nat) (path : Path) : Except RustyX509CheckError Unit := do
  checkCpr (certval.validatePathRfc5280 ⟨toi, false⟩ path)
  checkCpr (certval.checkRevocation ⟨toi, true⟩ path)

/-- The candidate paths of a certificate. -/
def Certval.paths (toi : Nat) (cert : Cert) : Except RustyX509CheckError (List Path) :=
  certval.pdvCertificate cert >>= certval.getPathsForTarget toi

/-- Path validation passes on some path, and every such path is revoked. -/
def Certval.OnlyRevoked (toi : Nat) (paths : List Path) : Prop :=
  (∃ path ∈ paths, certval.Passes toi path) ∧
    ∀ path ∈ paths, certval.Passes toi path → certval.Revoked toi path

/-- **Fail closed.**  Only what the validation accepts is valid, and then a path passes both
checks; what is revoked on every path that passes path validation is revoked, in whatever order
the paths come. -/
structure FailClosed (cert : Cert) : Prop where
  accepted : fromCert certval cert = .valid →
    validateCertAndRevocation certval cert = .ok () ∧
      ∃ toi paths, certval.now = some toi ∧ certval.paths toi cert = .ok paths ∧
        ∃ path ∈ paths, certval.checkPath toi path = .ok ()
  revoked : ∀ toi paths, certval.now = some toi → certval.paths toi cert = .ok paths →
    certval.OnlyRevoked toi paths → fromCert certval cert = .revoked

/-- The last error tells.  There is a clock; if no paths can be looked up, the error says that the
identity is expired or revoked; and if no path passes both checks, then the last path is refused
as expired or revoked, and as revoked if all that pass path validation are. -/
def LastErrorTells (cert : Cert) : Prop :=
  ∃ toi, certval.now = some toi ∧
    ((∃ status, certval.paths toi cert = .error (.pathValidation status) ∧
      ofStatus status ≠ .valid) ∨
    ∃ paths, certval.paths toi cert = .ok paths ∧
      ∀ last, paths.getLast? = some last →
        (∀ path ∈ paths, certval.checkPath toi path ≠ .ok ()) →
          ∃ status, certval.checkPath toi last = .error (.pathValidation status) ∧
            ofStatus status ≠ .valid ∧
            (certval.OnlyRevoked toi paths → ofStatus status = .revoked))

variable {certval} {cert : Cert} {toi : Nat} {paths : List Path}

/-! ### The search -/

theorem anyPathValidates_cons (fixed : certval.Fixed) (checkCrls : Bool)
    (result : Except RustyX509CheckError Unit) (path : Path) (rest : List Path) :
    ∃ checkCrls', anyPathValidates certval true ⟨toi, checkCrls⟩ result (path :: rest) =
      match certval.checkPath toi path with
      | .ok () => .ok ()
      | .error e => anyPathValidates certval true ⟨toi, checkCrls'⟩ (.error e) rest := by
  rw [anyPathValidates, Certval.checkPath, fixed.validation toi checkCrls path]
  cases checkCpr (certval.validatePathRfc5280 ⟨toi, false⟩ path) with
  | error e => exact ⟨checkCrls, rfl⟩
  | ok =>
    refine ⟨true, ?_⟩
    simp only [if_true, ok_bind]
    cases checkCpr (certval.checkRevocation ⟨toi, true⟩ path) <;> rfl

/-- The search finds a path that passes, or leaves the result of the last path. -/
theorem anyPathValidates_eq (fixed : certval.Fixed) (checkCrls : Bool)
    (result : Except RustyX509CheckError Unit) (paths : List Path) :
    ((∃ path ∈ paths, certval.checkPath toi path = .ok ()) ∧
      anyPathValidates certval true ⟨toi, checkCrls⟩ result paths = .ok ()) ∨
    ((∀ path ∈ paths, certval.checkPath toi path ≠ .ok ()) ∧
      anyPathValidates certval true ⟨toi, checkCrls⟩ result paths =
        (paths.getLast?.map (certval.checkPath toi)).getD result) := by
  induction paths generalizing checkCrls result with
  | nil => exact .inr ⟨nofun, rfl⟩
  | cons path rest ih =>
    obtain ⟨checkCrls', step⟩ := anyPathValidates_cons fixed checkCrls result path rest
    rw [step]
    cases checked : certval.checkPath toi path with
    | ok => exact .inl ⟨⟨path, List.mem_cons_self, checked⟩, rfl⟩
    | error e =>
      rcases ih checkCrls' (.error e) with ⟨⟨other, member, passes⟩, found⟩ | ⟨none, left⟩
      · exact .inl ⟨⟨other, List.mem_cons_of_mem _ member, passes⟩, found⟩
      · refine .inr ⟨List.forall_mem_cons.mpr ⟨by simp [checked], none⟩, ?_⟩
        simp only [left]
        cases rest with
        | nil => simp [checked]
        | cons next rest => simp [List.getLast?_cons]

theorem validateCertAndRevocation_eq (fixed : certval.Fixed) (clock : certval.now = some toi)
    (found : certval.paths toi cert = .ok paths) :
    ((∃ path ∈ paths, certval.checkPath toi path = .ok ()) ∧
      validateCertAndRevocation certval cert = .ok ()) ∨
    ((∀ path ∈ paths, certval.checkPath toi path ≠ .ok ()) ∧
      validateCertAndRevocation certval cert =
        (paths.getLast?.map (certval.checkPath toi)).getD
          (.error (.pathValidation .noPathsFound))) := by
  obtain ⟨pdv, parsed, looked⟩ := bind_eq_ok found
  have unfolded : validateCertAndRevocation certval cert =
      if paths.isEmpty then .error (.pathValidation .noPathsFound)
      else anyPathValidates certval true ⟨toi, false⟩ (.ok ()) paths := by
    simp only [validateCertAndRevocation, validateCertInternal, clock, parsed, looked, ok_bind]
    cases paths with
    | nil => rfl
    | cons path rest => rfl
  rw [unfolded]
  cases paths with
  | nil => exact .inr ⟨nofun, rfl⟩
  | cons path rest =>
    refine (anyPathValidates_eq fixed false (.ok ()) (path :: rest)).imp id ?_
    rintro ⟨none, left⟩
    exact ⟨none, by simpa [List.getLast?_cons] using left⟩

/-- Without the revocation check the search succeeds with a path that passes. -/
theorem exists_passes_of_anyPathValidates {result : Except RustyX509CheckError Unit}
    (ok : anyPathValidates certval false ⟨toi, false⟩ result paths = .ok ())
    (some : paths ≠ []) : ∃ path ∈ paths, certval.Passes toi path := by
  induction paths generalizing result with
  | nil => exact absurd rfl some
  | cons path rest ih =>
    rw [anyPathValidates] at ok
    cases checked : checkCpr (certval.validatePathRfc5280 ⟨toi, false⟩ path) with
    | ok => exact ⟨path, List.mem_cons_self, checked⟩
    | error e =>
      rw [checked] at ok
      by_cases more : rest = []
      · subst more
        cases ok
      · obtain ⟨other, member, passes⟩ := ih ok more
        exact ⟨other, List.mem_cons_of_mem _ member, passes⟩

theorem exists_passes_of_validateCert (ok : validateCert certval cert = .ok ()) :
    ∃ toi paths, certval.now = some toi ∧ certval.paths toi cert = .ok paths ∧
      ∃ path ∈ paths, certval.Passes toi path := by
  rw [validateCert, validateCertInternal] at ok
  cases clock : certval.now with
  | none =>
    rw [clock] at ok
    cases ok
  | some toi =>
    rw [clock] at ok
    obtain ⟨pdv, parsed, rest⟩ := bind_eq_ok ok
    obtain ⟨paths, looked, rest⟩ := bind_eq_ok rest
    cases paths with
    | nil => cases rest
    | cons path others =>
      have searched : anyPathValidates certval false ⟨toi, false⟩ (.ok ()) (path :: others) =
          .ok () := rest
      refine ⟨toi, path :: others, rfl, ?_, exists_passes_of_anyPathValidates searched (by simp)⟩
      rw [Certval.paths, parsed, ok_bind, looked]

/-- Without paths to look at, the error of the lookup is returned. -/
theorem validateCertAndRevocation_of_error
    (clock : certval.now = some toi) (failed : certval.paths toi cert = .error e) :
    validateCertAndRevocation certval cert = .error e := by
  simp only [validateCertAndRevocation, validateCertInternal, clock]
  cases parsed : certval.pdvCertificate cert with
  | error e' =>
    rw [Certval.paths, parsed, error_bind, Except.error.injEq] at failed
    rw [error_bind, failed]
  | ok pdv =>
    rw [Certval.paths, parsed, ok_bind] at failed
    simp only [ok_bind, failed]
    rfl

theorem fromCert_of_status {status : PathValidationStatus}
    (failed : validateCertAndRevocation certval cert = .error (.pathValidation status)) :
    fromCert certval cert = ofStatus status := by
  rw [fromCert, failed]

/-- An error is not taken for a valid identity if it has a status that is told. -/
theorem fromCert_ne_valid_iff (failed : validateCertAndRevocation certval cert = .error e) :
    fromCert certval cert ≠ .valid ↔ ∃ status, e = .pathValidation status ∧
      ofStatus status ≠ .valid := by
  rw [fromCert, failed]
  cases e <;> simp

theorem accepted_of_error (failed : validateCertAndRevocation certval cert = .error e)
    (closed : FailClosed certval cert) : fromCert certval cert ≠ .valid := by
  intro valid
  have accepted := (closed.accepted valid).1
  rw [failed] at accepted
  cases accepted

theorem checkPath_of_revoked {path : Path} (passes : certval.Passes toi path)
    (revoked : certval.Revoked toi path) : certval.checkPath toi path ≠ .ok () := by
  rw [Certval.checkPath, passes, ok_bind]
  simp only [Certval.Revoked, List.mem_cons, List.not_mem_nil, or_false] at revoked
  rcases revoked with status | status | status <;> simp [status, checkCpr]

theorem OnlyRevoked.checkPath (only : certval.OnlyRevoked toi paths) :
    ∀ path ∈ paths, certval.checkPath toi path ≠ .ok () := by
  intro path member passes
  have valid : certval.Passes toi path := by
    rw [Certval.Passes]
    rw [Certval.checkPath] at passes
    cases checked : checkCpr (certval.validatePathRfc5280 ⟨toi, false⟩ path) with
    | error e =>
      rw [checked] at passes
      cases passes
    | ok => rfl
  exact checkPath_of_revoked valid (only.2 path member valid) passes

/-- Of paths of which none passes, the last error decides. -/
theorem failClosed_iff_of_last {last : Path} (fixed : certval.Fixed)
    (clock : certval.now = some toi) (found : certval.paths toi cert = .ok paths)
    (isLast : paths.getLast? = some last)
    (none : ∀ path ∈ paths, certval.checkPath toi path ≠ .ok ()) :
    FailClosed certval cert ↔
      ∃ status, certval.checkPath toi last = .error (.pathValidation status) ∧
        ofStatus status ≠ .valid ∧ (certval.OnlyRevoked toi paths → ofStatus status = .revoked) := by
  have validated : validateCertAndRevocation certval cert = certval.checkPath toi last := by
    rcases validateCertAndRevocation_eq fixed clock found with ⟨⟨path, member, passes⟩, -⟩ | ⟨-, eq⟩
    · exact absurd passes (none path member)
    · simpa [isLast] using eq
  cases checked : certval.checkPath toi last with
  | ok => exact absurd checked (none last (List.mem_of_getLast? isLast))
  | error e =>
    rw [checked] at validated
    constructor
    · intro closed
      obtain ⟨status, rfl, told⟩ :=
        (fromCert_ne_valid_iff validated).mp (accepted_of_error validated closed)
      refine ⟨status, rfl, told, fun only => ?_⟩
      rw [← fromCert_of_status validated]
      exact closed.revoked toi paths clock found only
    · rintro ⟨status, same, told, revoked⟩
      cases same
      have verdict := fromCert_of_status validated
      refine ⟨fun valid => absurd (verdict.symm.trans valid) told, ?_⟩
      intro toi' paths' clock' found' only
      cases clock.symm.trans clock'
      cases found.symm.trans found'
      exact verdict.trans (revoked only)

end Validation

/-- **The status of an identity is fail closed exactly where the last error tells.** -/
theorem failClosed_iff_lastErrorTells {Cert Pdv Path : Type} (certval : Certval Cert Pdv Path)
    (fixed : certval.Fixed) (cert : Cert) :
    FailClosed certval cert ↔ LastErrorTells certval cert := by
  cases clock : certval.now with
  | none =>
    have failed : validateCertAndRevocation certval cert = .error .cannotDetermineCurrentTime := by
      simp only [validateCertAndRevocation, validateCertInternal, clock]
      rfl
    constructor
    · intro closed
      obtain ⟨status, ⟨⟩, -⟩ :=
        (fromCert_ne_valid_iff failed).mp (accepted_of_error failed closed)
    · rintro ⟨toi, clock', -⟩
      cases clock.symm.trans clock'
  | some toi =>
    cases found : certval.paths toi cert with
    | error e =>
      have failed := validateCertAndRevocation_of_error clock found
      constructor
      · intro closed
        obtain ⟨status, rfl, told⟩ :=
          (fromCert_ne_valid_iff failed).mp (accepted_of_error failed closed)
        exact ⟨toi, clock, .inl ⟨status, found, told⟩⟩
      · rintro ⟨toi', clock', ⟨status, found', told⟩ | ⟨paths, found', -⟩⟩ <;>
          cases clock.symm.trans clock' <;> cases found.symm.trans found'
        refine ⟨fun valid => absurd valid ((fromCert_ne_valid_iff failed).mpr ⟨status, rfl, told⟩), ?_⟩
        intro toi' paths clock' found'
        cases clock.symm.trans clock'
        cases found.symm.trans found'
    | ok paths =>
      have told_iff : LastErrorTells certval cert ↔ ∀ last, paths.getLast? = some last →
          (∀ path ∈ paths, certval.checkPath toi path ≠ .ok ()) →
            ∃ status, certval.checkPath toi last = .error (.pathValidation status) ∧
              ofStatus status ≠ .valid ∧
              (certval.OnlyRevoked toi paths → ofStatus status = .revoked) := by
        constructor
        · rintro ⟨toi', clock', ⟨status, found', told⟩ | ⟨paths', found', tells⟩⟩ <;>
            cases clock.symm.trans clock' <;> cases found.symm.trans found'
          exact tells
        · intro tells
          exact ⟨toi, clock, .inr ⟨paths, found, tells⟩⟩
      rw [told_iff]
      rcases validateCertAndRevocation_eq fixed clock found with ⟨passing, ok⟩ | ⟨none, left⟩
      · -- a path passes: the certificate is valid, and accepted
        obtain ⟨path, member, passes⟩ := passing
        refine ⟨fun _ last _ none => absurd passes (none path member), fun _ => ⟨?_, ?_⟩⟩
        · exact fun _ => ⟨ok, toi, paths, clock, found, path, member, passes⟩
        · intro toi' paths' clock' found' only
          cases clock.symm.trans clock'
          cases found.symm.trans found'
          exact absurd passes (OnlyRevoked.checkPath only path member)
      · cases isLast : paths.getLast? with
        | some last =>
          rw [failClosed_iff_of_last fixed clock found isLast none]
          exact ⟨fun tells _ same _ => by cases same; exact tells, fun tells => tells last rfl none⟩
        | none =>
          -- without paths the certificate is revoked
          rw [isLast] at left
          have revoked : fromCert certval cert = .revoked := fromCert_of_status left
          refine ⟨fun _ _ => nofun, fun _ => ⟨fun valid => ?_, fun _ _ _ _ _ => revoked⟩⟩
          cases revoked.symm.trans valid

/-- Paths that are the statuses of their two checks. -/
def sampleCertval (paths : List (PathValidationStatus × PathValidationStatus)) :
    Certval Unit Unit (PathValidationStatus × PathValidationStatus) where
  now := some 0
  pdvCertificate := .ok
  getPathsForTarget _ _ := .ok paths
  validatePathRfc5280 _ path := some path.1
  checkRevocation _ path := some path.2

/-- A path with a wrong signature, one that is revoked, and one that passes. -/
theorem failClosed_iff_lastErrorTells_sample :
    FailClosed (sampleCertval [(.signatureVerificationFailure, .valid),
      (.valid, .certificateRevoked), (.valid, .revocationStatusNotAvailable)]) () := by
  refine (failClosed_iff_lastErrorTells _ ⟨fun _ _ _ => rfl, fun _ _ _ => rfl⟩ ()).mpr ?_
  refine ⟨0, rfl, .inr ⟨_, rfl, fun last _ none => ?_⟩⟩
  exact absurd rfl (none (.valid, .revocationStatusNotAvailable) (by simp))

/-- A certificate whose only path that passes path validation is revoked is valid if a path with
a wrong signature comes after it, and expired if one with an expired certificate does. -/
theorem revoked_identity_taken_for_valid :
    fromCert (sampleCertval [(.signatureVerificationFailure, .valid),
      (.valid, .certificateRevokedEndEntity)]) () = .revoked ∧
    fromCert (sampleCertval [(.valid, .certificateRevokedEndEntity),
      (.signatureVerificationFailure, .valid)]) () = .valid ∧
    validateCertAndRevocation (sampleCertval [(.valid, .certificateRevokedEndEntity),
      (.signatureVerificationFailure, .valid)]) () =
        .error (.pathValidation .signatureVerificationFailure) ∧
    fromCert (sampleCertval [(.valid, .certificateRevokedEndEntity),
      (.invalidNotAfterDate, .valid)]) () = .expired := by
  decide

end CoreCrypto.Revocation
