import CoreCrypto.Revocation.Validation

/-!
# The identity in a certificate

`WireIdentityReader::extract_identity`.  The names of a certificate are lists, and each loop over
one of them keeps the last entry that fits.  The parsers of identifiers are those of another
crate: they are the fields of `NameParsers`.
-/

namespace CoreCrypto.Acquisition

open Library.Fallible Revocation

/-- `CertificateError`, and the two places where the code panics. -/
inductive CertificateError where
  | invalidClientId
  | clientIdMismatch
  | displayNameMismatch
  | handleMismatch
  | domainMismatch
  | missingDisplayName
  | missingHandle
  | missingDomain
  | missingClientId
  | invalidFormat
  | algorithmMismatch
  | keyMismatch
  | x509Check (error : RustyX509CheckError)
  | der
  | utf8
  | thumbprint
  | panicked (message : String)
  deriving DecidableEq, Repr

structure AlgorithmIdentifier where
  oid : String
  parameters : Option String
  deriving DecidableEq, Repr

inductive AttributeOid where
  | organizationName
  | commonName
  | other (oid : String)
  deriving DecidableEq, Repr

structure AttributeTypeAndValue where
  oid : AttributeOid
  value : Bytes
  deriving DecidableEq, Repr

structure CertificateExtension where
  isSubjectAltName : Bool
  extnValue : Bytes
  deriving DecidableEq, Repr

/-- `Certificate` with its `tbs_certificate` inlined; times are Unix seconds. -/
structure Certificate where
  serialNumber : Bytes
  notBefore : Nat
  notAfter : Nat
  subject : List (List AttributeTypeAndValue)
  algorithm : AlgorithmIdentifier
  subjectPublicKey : Bytes
  extensions : Option (List CertificateExtension)
  deriving DecidableEq, Repr

inductive HashAlgorithm where
  | sha256
  | sha384
  | sha512
  deriving DecidableEq, Repr

/-- The parsers: of the alternative names, of text, and of client ids and handles. -/
structure NameParsers (ClientId QualifiedHandle : Type) where
  subjectAltName : Bytes → Option (List GeneralName)
  fromUtf8 : Bytes → Option String
  clientIdFromUri : String → Option ClientId
  clientIdToQualified : ClientId → String
  clientIdFromQualified : String → Option ClientId
  qualifiedHandle : String → Option QualifiedHandle
  handleToQualified : String → String → Option QualifiedHandle
  thumbprint : Certificate → HashAlgorithm → Option String

structure WireIdentity (QualifiedHandle : Type) where
  clientId : String
  handle : QualifiedHandle
  displayName : String
  domain : String
  status : IdentityStatus
  thumbprint : String
  serialNumber : String
  notBefore : Nat
  notAfter : Nat

/-- `ok_or`. -/
def okOr {α : Type} (error : CertificateError) : Option α → Except CertificateError α
  | some a => .ok a
  | none => .error error

theorem okOr_eq_ok {α : Type} {error : CertificateError} {value : Option α} {a : α}
    (ok : okOr error value = .ok a) : value = some a := by
  cases value with
  | none => cases ok
  | some b => cases ok; rfl

section Extraction

variable {ClientId QualifiedHandle : Type} (parse : NameParsers ClientId QualifiedHandle)

/-- The attributes of the subject one after the other. -/
def Certificate.attributes (cert : Certificate) : List AttributeTypeAndValue :=
  cert.subject.flatten

/-- One attribute: the display name and the domain seen last. -/
def readAttribute (seen : Option String × Option String) (entry : AttributeTypeAndValue) :
    Except CertificateError (Option String × Option String) :=
  match entry.oid with
  | .organizationName => return (seen.1, some (← okOr .utf8 (parse.fromUtf8 entry.value)))
  | .commonName => return (some (← okOr .utf8 (parse.fromUtf8 entry.value)), seen.2)
  | .other _ => .ok seen

def tryExtractSubject (cert : Certificate) : Except CertificateError (String × String) := do
  let (displayName, domain) ← cert.attributes.foldlM (readAttribute parse) (none, none)
  return (← okOr .missingDisplayName displayName, ← okOr .missingDomain domain)

/-- The URIs among the alternative names. -/
def uris (names : List GeneralName) : List String :=
  names.filterMap fun
    | .uniformResourceIdentifier uri => some uri
    | _ => none

/-- One URI: first it is tried as a client id and then as a handle. -/
def readUri (seen : Option String × Option QualifiedHandle) (name : String) :
    Option String × Option QualifiedHandle :=
  match parse.clientIdFromUri name with
  | some id => (some (parse.clientIdToQualified id), seen.2)
  | none =>
    match parse.qualifiedHandle name with
    | some handle => (seen.1, some handle)
    | none => seen

def tryExtractSan (cert : Certificate) : Except CertificateError (String × QualifiedHandle) := do
  let extensions ← okOr .invalidFormat cert.extensions
  -- only the first extension of this kind is read
  let san ← okOr .invalidFormat (extensions.find? (·.isSubjectAltName))
  let names ← okOr .der (parse.subjectAltName san.extnValue)
  let (clientId, handle) := (uris names).foldl (readUri parse) (none, none)
  return (← okOr .missingClientId clientId, ← okOr .missingHandle handle)

/-- `extract_identity`, with the status that `IdentityStatus::from_cert` gives. -/
def extractIdentity (status : Certificate → IdentityStatus) (cert : Certificate)
    (hashAlg : HashAlgorithm) : Except CertificateError (WireIdentity QualifiedHandle) := do
  let (clientId, handle) ← tryExtractSan parse cert
  let (displayName, domain) ← tryExtractSubject parse cert
  let thumbprint ← okOr .thumbprint (parse.thumbprint cert hashAlg)
  return {
      clientId
      handle
      displayName
      domain
      status := status cert
      thumbprint
      serialNumber := hexEncode cert.serialNumber
      notBefore := cert.notBefore
      notAfter := cert.notAfter }

/-! ### All names -/

/-- The URIs of every extension with alternative names. -/
def Certificate.sanUris (cert : Certificate) : List String :=
  ((cert.extensions.getD []).filter (·.isSubjectAltName)).flatMap fun san =>
    uris ((parse.subjectAltName san.extnValue).getD [])

/-- The values of an attribute, as text. -/
def Certificate.texts (cert : Certificate) (oid : AttributeOid) : List (Option String) :=
  (cert.attributes.filter (·.oid = oid)).map fun entry => parse.fromUtf8 entry.value

variable {parse} {cert : Certificate}

/-- What the loop over the attributes keeps, it has seen. -/
theorem readAttribute_seen {attributes : List AttributeTypeAndValue}
    {before after : Option String × Option String}
    (read : attributes.foldlM (readAttribute parse) before = .ok after) :
    (∀ name, after.1 = some name → before.1 = some name ∨
      ∃ entry ∈ attributes, entry.oid = .commonName ∧
        parse.fromUtf8 entry.value = some name) ∧
    (∀ name, after.2 = some name → before.2 = some name ∨
      ∃ entry ∈ attributes, entry.oid = .organizationName ∧
        parse.fromUtf8 entry.value = some name) := by
  induction attributes generalizing before with
  | nil =>
    cases read
    exact ⟨fun _ => .inl, fun _ => .inl⟩
  | cons entry rest ih =>
    rw [List.foldlM_cons] at read
    obtain ⟨next, first, others⟩ := bind_eq_ok read
    obtain ⟨common, organization⟩ := ih others
    have head : entry ∈ entry :: rest := List.mem_cons_self
    have tail {oid : AttributeOid} {name : String}
        (seen : ∃ entry ∈ rest, entry.oid = oid ∧ parse.fromUtf8 entry.value = some name) :
        ∃ entry' ∈ entry :: rest, entry'.oid = oid ∧ parse.fromUtf8 entry'.value = some name := by
      obtain ⟨other, member, rest⟩ := seen
      exact ⟨other, List.mem_cons_of_mem _ member, rest⟩
    unfold readAttribute at first
    split at first
    next isOrganization =>
      obtain ⟨text, parsed, ⟨⟩⟩ := bind_eq_ok first
      refine ⟨fun name kept => (common name kept).imp id tail, fun name kept => ?_⟩
      rcases organization name kept with ⟨⟨⟩⟩ | seen
      · exact .inr ⟨entry, head, isOrganization, okOr_eq_ok parsed⟩
      · exact .inr (tail seen)
    next isCommon =>
      obtain ⟨text, parsed, ⟨⟩⟩ := bind_eq_ok first
      refine ⟨fun name kept => ?_, fun name kept => (organization name kept).imp id tail⟩
      rcases common name kept with ⟨⟨⟩⟩ | seen
      · exact .inr ⟨entry, head, isCommon, okOr_eq_ok parsed⟩
      · exact .inr (tail seen)
    next =>
      cases first
      exact ⟨fun name kept => (common name kept).imp id tail,
        fun name kept => (organization name kept).imp id tail⟩

theorem readUri_seen {names : List String} {before : Option String × Option QualifiedHandle} :
    (∀ id, (names.foldl (readUri parse) before).1 = some id → before.1 = some id ∨
      ∃ name ∈ names, ∃ clientId, parse.clientIdFromUri name = some clientId ∧
        parse.clientIdToQualified clientId = id) ∧
    (∀ handle, (names.foldl (readUri parse) before).2 = some handle → before.2 = some handle ∨
      ∃ name ∈ names, parse.qualifiedHandle name = some handle) := by
  induction names generalizing before with
  | nil => exact ⟨fun _ => .inl, fun _ => .inl⟩
  | cons name rest ih =>
    obtain ⟨ids, handles⟩ := @ih (readUri parse before name)
    rw [List.foldl_cons]
    constructor
    · intro id kept
      rcases ids id kept with now | ⟨other, member, seen⟩
      · unfold readUri at now
        split at now
        next clientId parsed =>
          cases now
          exact .inr ⟨name, List.mem_cons_self, clientId, parsed, rfl⟩
        next =>
          split at now <;> exact .inl now
      · exact .inr ⟨other, List.mem_cons_of_mem _ member, seen⟩
    · intro handle kept
      rcases handles handle kept with now | ⟨other, member, seen⟩
      · unfold readUri at now
        split at now
        next => exact .inl now
        next =>
          split at now
          next parsed =>
            cases now
            exact .inr ⟨name, List.mem_cons_self, parsed⟩
          next => exact .inl now
      · exact .inr ⟨other, List.mem_cons_of_mem _ member, seen⟩

theorem tryExtractSubject_seen {displayName domain : String}
    (ok : tryExtractSubject parse cert = .ok (displayName, domain)) :
    some displayName ∈ cert.texts parse .commonName ∧
      some domain ∈ cert.texts parse .organizationName := by
  obtain ⟨⟨lastName, lastDomain⟩, read, rest⟩ := bind_eq_ok ok
  obtain ⟨name, named, rest⟩ := bind_eq_ok rest
  obtain ⟨organization, organized, ⟨⟩⟩ := bind_eq_ok rest
  obtain ⟨common, organizations⟩ := readAttribute_seen read
  have text {oid : AttributeOid} {name : String}
      (seen : ∃ entry ∈ cert.attributes, entry.oid = oid ∧
        parse.fromUtf8 entry.value = some name) : some name ∈ cert.texts parse oid := by
    obtain ⟨entry, member, isOid, parsed⟩ := seen
    exact List.mem_map.mpr ⟨entry, List.mem_filter.mpr ⟨member, decide_eq_true isOid⟩, parsed⟩
  exact ⟨text ((common _ (okOr_eq_ok named)).resolve_left nofun),
    text ((organizations _ (okOr_eq_ok organized)).resolve_left nofun)⟩

theorem tryExtractSan_seen {id : String} {handle : QualifiedHandle}
    (ok : tryExtractSan parse cert = .ok (id, handle)) :
    (∃ uri ∈ cert.sanUris parse, ∃ clientId, parse.clientIdFromUri uri = some clientId ∧
      parse.clientIdToQualified clientId = id) ∧
    ∃ uri ∈ cert.sanUris parse, parse.qualifiedHandle uri = some handle := by
  obtain ⟨extensions, present, rest⟩ := bind_eq_ok ok
  obtain ⟨san, found, rest⟩ := bind_eq_ok rest
  obtain ⟨names, parsed, rest⟩ := bind_eq_ok rest
  obtain ⟨lastId, identified, rest⟩ := bind_eq_ok rest
  obtain ⟨lastHandle, handled, ⟨⟩⟩ := bind_eq_ok rest
  have listed (uri : String) (member : uri ∈ uris names) : uri ∈ cert.sanUris parse := by
    rw [Certificate.sanUris, okOr_eq_ok present]
    refine List.mem_flatMap.mpr ⟨san, List.mem_filter.mpr ⟨?_, ?_⟩, ?_⟩
    · exact List.mem_of_find?_eq_some (okOr_eq_ok found)
    · exact List.find?_some (okOr_eq_ok found)
    · rw [okOr_eq_ok parsed]
      exact member
  obtain ⟨ids, handles⟩ := @readUri_seen _ _ parse (uris names) (none, none)
  obtain ⟨uri, member, seen⟩ := (ids _ (okOr_eq_ok identified)).resolve_left nofun
  obtain ⟨uri', member', seen'⟩ := (handles _ (okOr_eq_ok handled)).resolve_left nofun
  exact ⟨⟨uri, listed uri member, seen⟩, uri', listed uri' member', seen'⟩

theorem extractIdentity_seen {status : Certificate → IdentityStatus} {hashAlg : HashAlgorithm}
    {identity : WireIdentity QualifiedHandle}
    (ok : extractIdentity parse status cert hashAlg = .ok identity) :
    (∃ uri ∈ cert.sanUris parse, ∃ clientId, parse.clientIdFromUri uri = some clientId ∧
      parse.clientIdToQualified clientId = identity.clientId) ∧
    (∃ uri ∈ cert.sanUris parse, parse.qualifiedHandle uri = some identity.handle) ∧
    some identity.displayName ∈ cert.texts parse .commonName ∧
    some identity.domain ∈ cert.texts parse .organizationName := by
  obtain ⟨⟨clientId, handle⟩, san, rest⟩ := bind_eq_ok ok
  obtain ⟨⟨displayName, domain⟩, subject, rest⟩ := bind_eq_ok rest
  obtain ⟨thumbprint, -, ⟨⟩⟩ := bind_eq_ok rest
  obtain ⟨ids, handles⟩ := tryExtractSan_seen san
  obtain ⟨names, domains⟩ := tryExtractSubject_seen subject
  exact ⟨ids, handles, names, domains⟩

end Extraction

end CoreCrypto.Acquisition
