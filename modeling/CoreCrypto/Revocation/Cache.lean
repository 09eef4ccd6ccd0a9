import CoreCrypto.Library.KeyedList
import CoreCrypto.Library.Run
import CoreCrypto.Revocation.Validation
import Mathlib.Data.List.AList

/-!
# The cache of revocation statuses

A report replaces the kept one only if it expires later, whatever the two statuses are: the entry is
the first of the reports with the latest expiry.
-/
namespace CoreCrypto.Revocation

open Library

/-- The part of `TBSCertificate` that the cache reads. -/
structure TbsCertificate (N : Type) where
  issuer : N
  serialNumber : Bytes
deriving DecidableEq, Repr

/-- `name_to_string` and `buffer_to_hex` of certval. -/
structure Printing (N : Type) where
  nameToString : N → String
  bufferToHex : Bytes → String

/-- A status with the time it is good until; the cache holds no other statuses than these two. -/
structure StatusAndTime where
  status : PathValidationStatus
  validUntil : Nat
  settled : status = .valid ∨ status = .certificateRevoked

structure RevocationCache where
  cacheMap : AList (fun _ : String × String => StatusAndTime)

instance : Inhabited RevocationCache := ⟨⟨∅⟩⟩

def PathValidationStatus.isRelevant : PathValidationStatus → Bool
  | .valid | .certificateRevoked | .certificateRevokedEndEntity
  | .certificateRevokedIntermediateCa | .noPathsFound => true
  | _ => false

/-- What `add_status` makes of a status it takes. -/
def PathValidationStatus.normalised (status : PathValidationStatus) : PathValidationStatus :=
  if status ≠ .valid then .certificateRevoked else status

theorem PathValidationStatus.normalised_settled (status : PathValidationStatus) :
    status.normalised = .valid ∨ status.normalised = .certificateRevoked := by
  unfold normalised
  split
  next => exact .inr rfl
  next same => exact .inl (not_not.mp same)

/-- A call of `add_status`. -/
structure Report (N : Type) where
  cert : TbsCertificate N
  nextUpdate : Nat
  status : PathValidationStatus

variable {N : Type} (print : Printing N) {reports : List (Report N)} {report : Report N}
  {cert : TbsCertificate N}

def getNameSerialPair (cert : TbsCertificate N) : String × String :=
  (print.nameToString cert.issuer, print.bufferToHex cert.serialNumber)

namespace RevocationCache

def getStatus (cache : RevocationCache) (cert : TbsCertificate N) (timeOfInterest : Nat) :
    PathValidationStatus :=
  match cache.cacheMap.lookup (getNameSerialPair print cert) with
  | some statusAndTime =>
    if timeOfInterest < statusAndTime.validUntil then statusAndTime.status
    else .revocationStatusNotDetermined
  | none => .revocationStatusNotDetermined

def addStatus (cache : RevocationCache) (report : Report N) : RevocationCache :=
  if report.status.isRelevant then
    let statusAndTime : StatusAndTime :=
      ⟨report.status.normalised, report.nextUpdate, report.status.normalised_settled⟩
    let pair := getNameSerialPair print report.cert
    match cache.cacheMap.lookup pair with
    | some old =>
      if old.validUntil < report.nextUpdate then ⟨cache.cacheMap.insert pair statusAndTime⟩
      else cache
    | none => ⟨cache.cacheMap.insert pair statusAndTime⟩
  else cache

end RevocationCache

/-! ### What is kept of a sequence of reports -/

/-- What a report has to say under a key of the cache. -/
def Report.statusFor? (report : Report N) (pair : String × String) : Option StatusAndTime :=
  if report.status.isRelevant ∧ getNameSerialPair print report.cert = pair then
    some ⟨report.status.normalised, report.nextUpdate, report.status.normalised_settled⟩
  else none

theorem Report.statusFor?_eq_some {pair : String × String} {kept : StatusAndTime} :
    report.statusFor? print pair = some kept ↔
      report.status.isRelevant ∧ getNameSerialPair print report.cert = pair ∧
        report.status.normalised = kept.status ∧ report.nextUpdate = kept.validUntil := by
  obtain ⟨status, validUntil, settled⟩ := kept
  unfold statusFor?
  split
  next applies => simp [applies]
  next not =>
    simp only [reduceCtorEq, false_iff]
    rintro ⟨relevant, same, -⟩
    exact not ⟨relevant, same⟩

theorem lookup_addStatus (cache : RevocationCache) (report : Report N) (pair : String × String) :
    (cache.addStatus print report).cacheMap.lookup pair =
      match report.statusFor? print pair with
      | none => cache.cacheMap.lookup pair
      | some new =>
        match cache.cacheMap.lookup pair with
        | none => some new
        | some old => if old.validUntil < new.validUntil then some new else some old := by
  unfold RevocationCache.addStatus Report.statusFor?
  by_cases relevant : report.status.isRelevant
  · by_cases same : getNameSerialPair print report.cert = pair
    · subst same
      simp only [relevant, and_self, if_true]
      cases found : cache.cacheMap.lookup (getNameSerialPair print report.cert) with
      | none => simp
      | some old =>
        simp only
        split
        · simp
        · exact found
    · simp only [relevant, same, and_false, if_true, if_false]
      cases cache.cacheMap.lookup (getNameSerialPair print report.cert) with
      | none => exact AList.lookup_insert_ne (Ne.symm same)
      | some old =>
        simp only
        split
        · exact AList.lookup_insert_ne (Ne.symm same)
        · rfl
  · simp [relevant]

/-- The cache after the reports, given to a new one. -/
def cacheAfter (reports : List (Report N)) : RevocationCache :=
  run (RevocationCache.addStatus print) default reports

theorem cacheAfter_snoc (reports : List (Report N)) (report : Report N) :
    cacheAfter print (reports ++ [report]) = (cacheAfter print reports).addStatus print report :=
  run_append ..

/-- The reports leave under a key the first of those that expire last. -/
theorem lookup_cacheAfter (reports : List (Report N)) (pair : String × String) :
    (cacheAfter print reports).cacheMap.lookup pair =
      (reports.filterMap (·.statusFor? print pair)).argmax StatusAndTime.validUntil := by
  induction reports using List.reverseRecOn with
  | nil => rfl
  | append_singleton reports report ih =>
    rw [cacheAfter_snoc, lookup_addStatus, ih, List.filterMap_append]
    cases said : report.statusFor? print pair with
    | none => simp [said]
    | some new =>
      simp only [List.filterMap_cons, said, List.filterMap_nil, List.argmax_concat]
      cases (reports.filterMap (·.statusFor? print pair)).argmax StatusAndTime.validUntil <;> rfl

/-! ### Reports about a certificate -/

/-- Different issuers and different serial numbers are printed differently. -/
structure Printing.Faithful : Prop where
  names : Function.Injective print.nameToString
  serials : Function.Injective print.bufferToHex

theorem Printing.Faithful.pair_inj {print : Printing N} (faithful : print.Faithful)
    {other : TbsCertificate N} :
    getNameSerialPair print cert = getNameSerialPair print other ↔ cert = other := by
  obtain ⟨issuer, serialNumber⟩ := cert
  obtain ⟨otherIssuer, otherSerialNumber⟩ := other
  simp [getNameSerialPair, faithful.names.eq_iff, faithful.serials.eq_iff]

/-- The report is about the certificate, and has a status that the cache takes. -/
def Report.Concerns (report : Report N) (cert : TbsCertificate N) : Prop :=
  report.cert = cert ∧ report.status.isRelevant

/-- The report is that the certificate has the status, once normalised. -/
def Report.Tells (report : Report N) (cert : TbsCertificate N) (status : PathValidationStatus) :
    Prop :=
  report.Concerns cert ∧ report.status.normalised = status

/-- The cached status of a certificate is that of one report about it: those before expire
earlier, and none after expires later. -/
theorem lookup_iff_report {print : Printing N} (faithful : print.Faithful)
    (reports : List (Report N)) (cert : TbsCertificate N) (kept : StatusAndTime) :
    (cacheAfter print reports).cacheMap.lookup (getNameSerialPair print cert) = some kept ↔
      ∃ before report after, reports = before ++ report :: after ∧
        report.Tells cert kept.status ∧ report.nextUpdate = kept.validUntil ∧
        (∀ r ∈ before, r.Concerns cert → r.nextUpdate < kept.validUntil) ∧
        ∀ r ∈ after, r.Concerns cert → r.nextUpdate ≤ kept.validUntil := by
  have entry_iff : ∀ (report : Report N) (e : StatusAndTime),
      report.statusFor? print (getNameSerialPair print cert) = some e ↔
        report.Tells cert e.status ∧ report.nextUpdate = e.validUntil := by
    intro report e
    rw [Report.statusFor?_eq_some, faithful.pair_inj, Report.Tells, Report.Concerns]
    tauto
  -- a bound on the entries of a list of reports is a bound on the reports
  have bound_iff : ∀ (rs : List (Report N)) (within : Nat → Prop),
      (∀ e ∈ rs.filterMap (·.statusFor? print (getNameSerialPair print cert)), within e.validUntil) ↔
        ∀ r ∈ rs, r.Concerns cert → within r.nextUpdate := by
    intro rs within
    constructor
    · intro bound r inRs concerns
      have entry := (entry_iff r ⟨_, r.nextUpdate, r.status.normalised_settled⟩).mpr
        ⟨⟨concerns, rfl⟩, rfl⟩
      exact bound _ (List.mem_filterMap.mpr ⟨r, inRs, entry⟩)
    · intro bound e inEntries
      obtain ⟨r, inRs, entry⟩ := List.mem_filterMap.mp inEntries
      obtain ⟨tells, same⟩ := (entry_iff r e).mp entry
      rw [← same]
      exact bound r inRs tells.1
  rw [lookup_cacheAfter, argmax_eq_some_iff_split]
  constructor
  · rintro ⟨before, after, split, lower, noHigher⟩
    obtain ⟨rs, rest, rfl, rfl, restEq⟩ := List.filterMap_eq_append_iff.mp split
    obtain ⟨skipped, report, last, rfl, none, entry, rfl⟩ := List.filterMap_eq_cons_iff.mp restEq
    obtain ⟨tells, same⟩ := (entry_iff report kept).mp entry
    refine ⟨rs ++ skipped, report, last, by simp, tells, same, ?_, ?_⟩
    · refine (bound_iff _ (· < kept.validUntil)).mp ?_
      have nothing : skipped.filterMap (·.statusFor? print (getNameSerialPair print cert)) = [] :=
        List.filterMap_eq_nil_iff.mpr none
      rw [List.filterMap_append, nothing, List.append_nil]
      exact lower
    · exact (bound_iff _ (· ≤ kept.validUntil)).mp noHigher
  · rintro ⟨before, report, after, rfl, tells, same, lower, noHigher⟩
    have entry := (entry_iff report kept).mpr ⟨tells, same⟩
    refine ⟨before.filterMap (·.statusFor? print (getNameSerialPair print cert)),
      after.filterMap (·.statusFor? print (getNameSerialPair print cert)), ?_, ?_, ?_⟩
    · rw [List.filterMap_append, List.filterMap_cons, entry]
    · exact (bound_iff _ (· < kept.validUntil)).mpr lower
    · exact (bound_iff _ (· ≤ kept.validUntil)).mpr noHigher

theorem exists_lookup {print : Printing N} (faithful : print.Faithful) (reported : report ∈ reports)
    (concerns : report.Concerns cert) :
    ∃ kept, (cacheAfter print reports).cacheMap.lookup (getNameSerialPair print cert) = some kept ∧
      report.nextUpdate ≤ kept.validUntil := by
  have entry : report.statusFor? print (getNameSerialPair print cert) =
      some ⟨_, report.nextUpdate, report.status.normalised_settled⟩ := by
    rw [Report.statusFor?_eq_some, faithful.pair_inj]
    exact ⟨concerns.2, concerns.1, rfl, rfl⟩
  have inEntries := (List.mem_filterMap (f := (·.statusFor? print (getNameSerialPair print cert)))).mpr
    ⟨report, reported, entry⟩
  rw [lookup_cacheAfter]
  cases best : (reports.filterMap (·.statusFor? print (getNameSerialPair print cert))).argmax
      StatusAndTime.validUntil with
  | none =>
    rw [List.argmax_eq_none.mp best] at inEntries
    cases inEntries
  | some kept => exact ⟨kept, rfl, List.le_of_mem_argmax inEntries best⟩

theorem getStatus_eq_iff (cache : RevocationCache) (cert : TbsCertificate N) (time : Nat)
    {status : PathValidationStatus} (determined : status ≠ .revocationStatusNotDetermined) :
    cache.getStatus print cert time = status ↔
      ∃ kept, cache.cacheMap.lookup (getNameSerialPair print cert) = some kept ∧
        kept.status = status ∧ time < kept.validUntil := by
  unfold RevocationCache.getStatus
  cases cache.cacheMap.lookup (getNameSerialPair print cert) with
  | none => simp [determined.symm]
  | some kept =>
    simp only
    split
    next current => simp [current]
    next expired => simp [expired, determined.symm]

/-! ### Masked revocations -/

theorem append_cons_cases {α : Type} {before after front back : List α} {x y : α}
    (same : before ++ x :: after = front ++ y :: back) :
    (y ∈ before ∧ x ∈ back) ∨ x = y ∨ (y ∈ after ∧ x ∈ front) := by
  rcases List.append_eq_append_iff.mp same with ⟨middle, rfl, rest⟩ | ⟨middle, rfl, rest⟩
  · cases middle with
    | nil => exact .inr (.inl (List.cons.inj rest).1)
    | cons z middle =>
      obtain ⟨rfl, rfl⟩ := List.cons.inj rest
      exact .inr (.inr (by simp))
  · cases middle with
    | nil => exact .inr (.inl (List.cons.inj rest).1.symm)
    | cons z middle =>
      obtain ⟨rfl, rfl⟩ := List.cons.inj rest
      exact .inl (by simp)

/-- Every report that a revoked certificate is valid is outlasted by a report that it is revoked:
one that came before and does not expire earlier, or one that came after and expires later. -/
def RevocationsOutlast (reports : List (Report N)) : Prop :=
  ∀ cert, (∃ r ∈ reports, r.Tells cert .certificateRevoked ∧ 0 < r.nextUpdate) →
    ∀ before valid after, reports = before ++ valid :: after → valid.Tells cert .valid →
      (∃ r ∈ before, r.Tells cert .certificateRevoked ∧ valid.nextUpdate ≤ r.nextUpdate) ∨
      (∃ r ∈ after, r.Tells cert .certificateRevoked ∧ valid.nextUpdate < r.nextUpdate)

/-- No revocation that has not expired is told to be validity. -/
def NeverMasked (reports : List (Report N)) : Prop :=
  ∀ cert time, (∃ r ∈ reports, r.Tells cert .certificateRevoked ∧ time < r.nextUpdate) →
    (cacheAfter print reports).getStatus print cert time ≠ .valid

/-- A status the cache gives was reported for this certificate and has not expired. -/
def AlwaysReported (reports : List (Report N)) : Prop :=
  ∀ cert time status, status = .valid ∨ status = .certificateRevoked →
    (cacheAfter print reports).getStatus print cert time = status →
      ∃ r ∈ reports, r.Tells cert status ∧ time < r.nextUpdate

theorem alwaysReported {print : Printing N} (faithful : print.Faithful)
    (reports : List (Report N)) : AlwaysReported print reports := by
  intro cert time status settled given
  have determined : status ≠ .revocationStatusNotDetermined := by
    rcases settled with rfl | rfl <;> simp
  obtain ⟨kept, found, rfl, current⟩ := (getStatus_eq_iff print _ _ _ determined).mp given
  obtain ⟨before, report, after, rfl, tells, same, -⟩ := (lookup_iff_report faithful ..).mp found
  exact ⟨report, by simp, tells, by omega⟩

theorem revocationsOutlast_of_neverMasked {print : Printing N} (faithful : print.Faithful)
    (never : NeverMasked print reports) : RevocationsOutlast reports := by
  rintro cert ⟨revoked, reported, tells, positive⟩ before valid after split tellsValid
  obtain ⟨kept, found, outlasts⟩ := exists_lookup faithful reported tells.1
  obtain ⟨front, report, back, splitKept, tellsKept, same, lower, noHigher⟩ :=
    (lookup_iff_report faithful ..).mp found
  rcases kept.settled with isValid | isRevoked
  · -- just before the revocation expires, the cache would answer that the certificate is valid
    exfalso
    refine never cert (revoked.nextUpdate - 1) ⟨revoked, reported, tells, by omega⟩ ?_
    exact (getStatus_eq_iff print _ _ _ (by simp)).mpr ⟨kept, found, isValid, by omega⟩
  · rw [isRevoked] at tellsKept
    rcases append_cons_cases (split.symm.trans splitKept) with
      ⟨inBefore, inBack⟩ | rfl | ⟨inAfter, inFront⟩
    · have bound := noHigher valid inBack tellsValid.1
      exact .inl ⟨report, inBefore, tellsKept, by omega⟩
    · have clash := tellsValid.2.symm.trans tellsKept.2
      cases clash
    · have bound := lower valid inFront tellsValid.1
      exact .inr ⟨report, inAfter, tellsKept, by omega⟩

theorem neverMasked_of_revocationsOutlast {print : Printing N} (faithful : print.Faithful)
    (outlast : RevocationsOutlast reports) : NeverMasked print reports := by
  rintro cert time ⟨revoked, reported, tells, current⟩ given
  obtain ⟨kept, found, isValid, -⟩ := (getStatus_eq_iff print _ _ _ (by simp)).mp given
  obtain ⟨before, report, after, rfl, tellsKept, same, lower, noHigher⟩ :=
    (lookup_iff_report faithful ..).mp found
  rw [isValid] at tellsKept
  rcases outlast cert ⟨revoked, reported, tells, by omega⟩ before report after rfl tellsKept with
    ⟨r, inBefore, tellsRevoked, later⟩ | ⟨r, inAfter, tellsRevoked, later⟩
  · have bound := lower r inBefore tellsRevoked.1
    omega
  · have bound := noHigher r inAfter tellsRevoked.1
    omega

/-- **Known revocations.** The cache masks no revocation, and gives no status but a reported one,
exactly for the sequences in which the revocations outlast the reports of validity. -/
theorem revocations_shown_iff_outlast (print : Printing N) (faithful : print.Faithful)
    (reports : List (Report N)) :
    NeverMasked print reports ∧ AlwaysReported print reports ↔ RevocationsOutlast reports := by
  constructor
  · rintro ⟨never, -⟩
    exact revocationsOutlast_of_neverMasked faithful never
  · intro outlast
    exact ⟨neverMasked_of_revocationsOutlast faithful outlast,
      alwaysReported faithful reports⟩

/-- Names that are printed as they are, and serial numbers in hexadecimal digits. -/
def samplePrinting : Printing String := ⟨id, hexEncode⟩

theorem samplePrinting_faithful : samplePrinting.Faithful :=
  ⟨Function.injective_id, hexEncode_injective⟩

/-- A certificate reported as revoked until 20, and before that as valid until 10. -/
theorem later_revocation_is_shown :
    NeverMasked samplePrinting [⟨⟨"CN=ca", [7]⟩, 10, .valid⟩, ⟨⟨"CN=ca", [7]⟩, 20, .noPathsFound⟩] ∧
      AlwaysReported samplePrinting
        [⟨⟨"CN=ca", [7]⟩, 10, .valid⟩, ⟨⟨"CN=ca", [7]⟩, 20, .noPathsFound⟩] := by
  refine (revocations_shown_iff_outlast samplePrinting samplePrinting_faithful _).mpr ?_
  rintro cert ⟨revoked, -, tells, -⟩ before valid after split tellsValid
  cases before with
  | nil =>
    obtain ⟨rfl, rfl⟩ := List.cons.inj split
    refine .inr ⟨⟨⟨"CN=ca", [7]⟩, 20, .noPathsFound⟩, by simp, ?_, by simp⟩
    exact ⟨⟨tellsValid.1.1, rfl⟩, rfl⟩
  | cons first before =>
    obtain ⟨rfl, rest⟩ := List.cons.inj split
    cases before with
    | nil =>
      obtain ⟨rfl, rfl⟩ := List.cons.inj rest
      cases tellsValid.2
    | cons second before => cases before <;> simp at rest

/-- A certificate that was reported as revoked until 20 is told to be valid at time 10, once it
was also reported as valid until 30. -/
theorem longer_validity_masks_revocation :
    ∃ r ∈ [(⟨⟨"CN=ca", [7]⟩, 20, .certificateRevoked⟩ : Report String),
        ⟨⟨"CN=ca", [7]⟩, 30, .valid⟩],
      r.Tells ⟨"CN=ca", [7]⟩ .certificateRevoked ∧ 10 < r.nextUpdate ∧
        (cacheAfter samplePrinting [⟨⟨"CN=ca", [7]⟩, 20, .certificateRevoked⟩,
          ⟨⟨"CN=ca", [7]⟩, 30, .valid⟩]).getStatus samplePrinting ⟨"CN=ca", [7]⟩ 10 = .valid :=
  ⟨_, List.mem_cons_self, ⟨⟨rfl, rfl⟩, rfl⟩, by decide, by decide +kernel⟩

end CoreCrypto.Revocation
