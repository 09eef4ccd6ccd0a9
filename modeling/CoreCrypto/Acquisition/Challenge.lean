import CoreCrypto.Acquisition.Identity
import CoreCrypto.Library.Hoare

/-!
# Acquiring a credential

`complete_oidc_challenge` and the checks of the certificate chain that the ACME server returns.
The server and the hooks do what they like: a hook is any operation on a state of its own, and
what the ACME client makes of the answers is given by the fields of `RustyAcme`.
-/

namespace CoreCrypto.Acquisition

open Library.Fallible Revocation

inductive JwsAlgorithm where
  | ed25519
  | p256
  | p384
  | p521
  deriving DecidableEq, Repr

abbrev Pem := String

def jwsAlgToX509Identifier : JwsAlgorithm → AlgorithmIdentifier
  | .ed25519 => ⟨"1.3.101.112", none⟩
  | .p256 => ⟨"1.2.840.10045.2.1", some "1.2.840.10045.3.1.7"⟩
  | .p384 => ⟨"1.2.840.10045.2.1", some "1.3.132.0.34"⟩
  | .p521 => ⟨"1.2.840.10045.2.1", some "1.3.132.0.35"⟩

structure X509CredentialConfiguration (ClientId : Type) where
  signAlg : JwsAlgorithm
  hashAlg : HashAlgorithm
  displayName : String
  clientId : ClientId
  handle : String
  domain : String

/-- The PKI environment: the trust anchors that are configured, and `IdentityStatus::from_cert`
with it. -/
structure PkiEnv where
  trustAnchors : List Certificate
  status : Certificate → IdentityStatus

/-- The certificate library: an environment of its own from trust roots and intermediates, the
key identifiers of a certificate, and the public key of a key pair. -/
structure X509Library (Pdv Path : Type) where
  init : List Certificate → List Certificate →
    Except RustyX509CheckError (Certval Certificate Pdv Path)
  extractSkiAkiFromCert : Certificate → Except RustyX509CheckError (String × Option String)
  publicKeyBytes : JwsAlgorithm → Pem → Option Bytes

/-! ### Checks -/

section Checks

variable {ClientId QualifiedHandle Pdv Path : Type} [DecidableEq ClientId]
  [DecidableEq QualifiedHandle] (parse : NameParsers ClientId QualifiedHandle)
  (library : X509Library Pdv Path)

def x509Check {α : Type} : Except RustyX509CheckError α → Except CertificateError α
  | .ok a => .ok a
  | .error e => .error (.x509Check e)

/-- `return Err` unless the condition holds. -/
def ensure (condition : Prop) [Decidable condition] (error : CertificateError) :
    Except CertificateError Unit :=
  if condition then .ok () else .error error

def verifyLeafCertificate (config : X509CredentialConfiguration ClientId)
    (env : Certval Certificate Pdv Path) (outer : PkiEnv) (signKp : Pem) (cert : Certificate) :
    Except CertificateError Unit := do
  x509Check (validateCert env cert)
  ensure (cert.algorithm = jwsAlgToX509Identifier config.signAlg) .algorithmMismatch
  let signKpBytes ←
    okOr (.panicked "sign_kp must be valid PEM") (library.publicKeyBytes config.signAlg signKp)
  ensure (signKpBytes = cert.subjectPublicKey) .keyMismatch
  let identity ← extractIdentity parse outer.status cert config.hashAlg
  let certId ← okOr .invalidClientId (parse.clientIdFromQualified identity.clientId)
  ensure (certId = config.clientId) .clientIdMismatch
  ensure (identity.displayName = config.displayName) .displayNameMismatch
  let handle ← okOr (.panicked "X509 configuration handle and domain must be valid")
    (parse.handleToQualified config.handle config.domain)
  ensure (identity.handle = handle) .handleMismatch
  ensure (identity.domain = config.domain) .domainMismatch

def verifyCertChain (config : X509CredentialConfiguration ClientId) (pkiEnv : PkiEnv)
    (signKp : Pem) (certs : List Certificate) : Except CertificateError Unit :=
  match certs with
  | [] => .error (.panicked "at least one certificate")
  | leaf :: intermediates => do
    let env ← x509Check (library.init pkiEnv.trustAnchors intermediates)
    verifyLeafCertificate parse library config env pkiEnv signKp leaf
    let _ ← x509Check (library.extractSkiAkiFromCert leaf)

end Checks

/-! ### The challenge -/

structure HttpResponse where
  status : Nat
  headers : List (String × String)
  body : Bytes

inductive AcquisitionError where
  | hookFailed (message : String)
  | json
  | missingHeader (name : String)
  | acme (message : String)
  | rustyJwtError
  | invalidCertificate (error : CertificateError)
  deriving DecidableEq, Repr

/-- `PkiEnvironmentHooks`, over a state of the caller. -/
structure Hooks (W : Type) where
  authenticate : (target keyAuth url : String) → EStateM String W String
  httpRequest : (url body : String) → EStateM String W HttpResponse

structure AcmeChallenge where
  token : String
  url : String
  target : String

/-- The ACME client on the data of one acquisition: the requests it makes and what it reads out
of the answers.  `newChallResponse`, `finalizeResponse` and `orderVerify` check the answers of
the server. -/
structure RustyAcme where
  oidcChallenge : AcmeChallenge
  finalizeUrl : String
  nonce : String
  jwkThumbprint : Option String
  oidcChallRequest : (idToken nonce : String) → Except String String
  newChallResponse : String → Except String Unit
  finalizeReq : (nonce : String) → Except String String
  finalizeResponse : String → Except String String
  certificateReq : (certificateUrl nonce : String) → Except String String
  orderVerify : Except String Unit
  parseMany : String → Except String (List Bytes)
  certificateFromDer : Bytes → Except String Certificate
  json : Bytes → Option String
  fromUtf8 : Bytes → Option String

/-- `RustyAcme::certificate_response`. -/
def RustyAcme.certificateResponse (acme : RustyAcme) (response : String) :
    Except String (List Certificate) := do
  acme.orderVerify
  let pems ← acme.parseMany response
  if pems.isEmpty then
    throw ("Incorrect response from ACME server because " ++
      "the ACME server response contains no certificates")
  pems.mapM acme.certificateFromDer

section Challenge

variable {W : Type} {α : Type} {w w' : W} {a : α}

/-- The `?` operator, with the conversion of the error. -/
def orFail {ε α : Type} (convert : ε → AcquisitionError) :
    Except ε α → EStateM AcquisitionError W α
  | .ok a => pure a
  | .error e => throw (convert e)

def orMissing {α : Type} (error : AcquisitionError) : Option α → EStateM AcquisitionError W α
  | some a => pure a
  | none => throw error

/-- A hook that fails, fails the acquisition. -/
def callHook {α : Type} (hook : EStateM String W α) : EStateM AcquisitionError W α := fun w =>
  match hook w with
  | .ok a w => .ok a w
  | .error e w => .error (.hookFailed e) w

/-- `acme_request`: the nonce and the answer. -/
def acmeRequest (hooks : Hooks W) (acme : RustyAcme) (url body : String) :
    EStateM AcquisitionError W (String × String) := do
  let response ← callHook (hooks.httpRequest url body)
  let nonce ← orMissing (.missingHeader "replay-nonce")
    ((response.headers.find? fun header => header.1 = "replay-nonce").map Prod.snd)
  return (nonce, ← orMissing .json (acme.json response.body))

variable {ClientId QualifiedHandle Pdv Path : Type} [DecidableEq ClientId]
  [DecidableEq QualifiedHandle] (parse : NameParsers ClientId QualifiedHandle)
  (library : X509Library Pdv Path)

/-- `complete_oidc_challenge`. -/
def completeOidcChallenge (hooks : Hooks W) (acme : RustyAcme)
    (config : X509CredentialConfiguration ClientId) (pkiEnv : PkiEnv) (signKp : Pem) :
    EStateM AcquisitionError W (Pem × List Certificate) := do
  let thumbprint ← orMissing .rustyJwtError acme.jwkThumbprint
  let keyAuth := acme.oidcChallenge.token ++ "." ++ thumbprint
  let idToken ← callHook
    (hooks.authenticate acme.oidcChallenge.target keyAuth acme.oidcChallenge.url)
  let request ← orFail .acme (acme.oidcChallRequest idToken acme.nonce)
  let (nonce, response) ← acmeRequest hooks acme acme.oidcChallenge.url request
  orFail .acme (acme.newChallResponse response)
  let request ← orFail .acme (acme.finalizeReq nonce)
  let (nonce, response) ← acmeRequest hooks acme acme.finalizeUrl request
  let certificateUrl ← orFail .acme (acme.finalizeResponse response)
  let request ← orFail .acme (acme.certificateReq certificateUrl nonce)
  let response ← callHook (hooks.httpRequest certificateUrl request)
  let response ← orMissing (.acme "utf8") (acme.fromUtf8 response.body)
  let certificates ← orFail .acme (acme.certificateResponse response)
  orFail .invalidCertificate (verifyCertChain parse library config pkiEnv signKp certificates)
  return (signKp, certificates)

/-! ### What an acquisition yields -/

/-- A certification path: the certificate is issued by a trust anchor, or by one of the
intermediates that has such a path. -/
inductive Certified (Issued : Certificate → Certificate → Prop)
    (roots intermediates : List Certificate) : Certificate → Prop where
  | anchored {root cert : Certificate} (anchor : root ∈ roots) (issued : Issued root cert) :
      Certified Issued roots intermediates cert
  | through {intermediate cert : Certificate} (listed : intermediate ∈ intermediates)
      (certified : Certified Issued roots intermediates intermediate)
      (issued : Issued intermediate cert) : Certified Issued roots intermediates cert

/-- Path validation is sound: a certificate with a path that passes is certified. -/
def X509Library.Sound (Issued : Certificate → Certificate → Prop) : Prop :=
  ∀ roots intermediates env cert toi paths, library.init roots intermediates = .ok env →
    env.now = some toi → env.paths toi cert = .ok paths →
      (∃ path ∈ paths, env.Passes toi path) → Certified Issued roots intermediates cert

/-- A client id is read back from its qualified form. -/
def NameParsers.RoundTrip : Prop :=
  ∀ id, parse.clientIdFromQualified (parse.clientIdToQualified id) = some id

/-- The leaf of a chain is for the key pair and for the identity that was asked for, under every
name that it has. -/
structure IsRequested (Issued : Certificate → Certificate → Prop)
    (config : X509CredentialConfiguration ClientId) (pkiEnv : PkiEnv) (signKp : Pem)
    (leaf : Certificate) (intermediates : List Certificate) : Prop where
  publicKey : library.publicKeyBytes config.signAlg signKp = some leaf.subjectPublicKey
  algorithm : leaf.algorithm = jwsAlgToX509Identifier config.signAlg
  certified : Certified Issued pkiEnv.trustAnchors intermediates leaf
  clientIds : ∀ uri ∈ leaf.sanUris parse, ∀ id,
    parse.clientIdFromUri uri = some id → id = config.clientId
  handles : ∀ uri ∈ leaf.sanUris parse, ∀ handle, parse.qualifiedHandle uri = some handle →
    parse.handleToQualified config.handle config.domain = some handle
  displayNames : ∀ name ∈ leaf.texts parse .commonName, name = some config.displayName
  domains : ∀ name ∈ leaf.texts parse .organizationName, name = some config.domain

/-- The names of one kind are one name. -/
structure OneIdentity (leaf : Certificate) : Prop where
  clientIds : ∀ uri ∈ leaf.sanUris parse, ∀ other ∈ leaf.sanUris parse, ∀ id id',
    parse.clientIdFromUri uri = some id → parse.clientIdFromUri other = some id' → id = id'
  handles : ∀ uri ∈ leaf.sanUris parse, ∀ other ∈ leaf.sanUris parse, ∀ handle handle',
    parse.qualifiedHandle uri = some handle → parse.qualifiedHandle other = some handle' →
      handle = handle'
  displayNames : ∀ name ∈ leaf.texts parse .commonName,
    ∀ other ∈ leaf.texts parse .commonName, name = other
  domains : ∀ name ∈ leaf.texts parse .organizationName,
    ∀ other ∈ leaf.texts parse .organizationName, name = other

omit [DecidableEq ClientId] [DecidableEq QualifiedHandle] in
theorem IsRequested.oneIdentity {Issued : Certificate → Certificate → Prop}
    {config : X509CredentialConfiguration ClientId} {pkiEnv : PkiEnv} {signKp : Pem}
    {leaf : Certificate} {intermediates : List Certificate}
    (requested : IsRequested parse library Issued config pkiEnv signKp leaf intermediates) :
    OneIdentity parse leaf where
  clientIds uri member other member' id id' parsed parsed' :=
    (requested.clientIds uri member id parsed).trans
      (requested.clientIds other member' id' parsed').symm
  handles uri member other member' handle handle' parsed parsed' :=
    Option.some.inj ((requested.handles uri member handle parsed).symm.trans
      (requested.handles other member' handle' parsed'))
  displayNames name member other member' :=
    (requested.displayNames name member).trans (requested.displayNames other member').symm
  domains name member other member' :=
    (requested.domains name member).trans (requested.domains other member').symm

variable {parse library} {Issued : Certificate → Certificate → Prop}
  {config : X509CredentialConfiguration ClientId} {pkiEnv : PkiEnv} {signKp : Pem}
  {leaf : Certificate} {intermediates certs : List Certificate}

theorem ensure_eq_ok {condition : Prop} [Decidable condition] {error : CertificateError} {u : Unit}
    (ok : ensure condition error = .ok u) : condition := by
  unfold ensure at ok
  split at ok
  next holds => exact holds
  · cases ok

theorem x509Check_eq_ok {result : Except RustyX509CheckError α}
    (ok : x509Check result = .ok a) : result = .ok a := by
  cases result with
  | ok b => cases ok; rfl
  | error e => cases ok

/-- What the checks of the leaf establish: the identity that was extracted is the configured
one. -/
theorem verifyLeafCertificate_eq_ok {env : Certval Certificate Pdv Path}
    (ok : verifyLeafCertificate parse library config env pkiEnv signKp leaf = .ok ()) :
    validateCert env leaf = .ok () ∧
    leaf.algorithm = jwsAlgToX509Identifier config.signAlg ∧
    library.publicKeyBytes config.signAlg signKp = some leaf.subjectPublicKey ∧
    ∃ identity, extractIdentity parse pkiEnv.status leaf config.hashAlg = .ok identity ∧
      parse.clientIdFromQualified identity.clientId = some config.clientId ∧
      identity.displayName = config.displayName ∧
      parse.handleToQualified config.handle config.domain = some identity.handle ∧
      identity.domain = config.domain := by
  obtain ⟨_, validated, rest⟩ := bind_eq_ok ok
  obtain ⟨_, algorithm, rest⟩ := bind_eq_ok rest
  obtain ⟨bytes, isPublic, rest⟩ := bind_eq_ok rest
  obtain ⟨_, sameKey, rest⟩ := bind_eq_ok rest
  obtain ⟨identity, extracted, rest⟩ := bind_eq_ok rest
  obtain ⟨certId, isId, rest⟩ := bind_eq_ok rest
  obtain ⟨_, sameId, rest⟩ := bind_eq_ok rest
  obtain ⟨_, sameName, rest⟩ := bind_eq_ok rest
  obtain ⟨handle, isHandle, rest⟩ := bind_eq_ok rest
  obtain ⟨_, sameHandle, sameDomain⟩ := bind_eq_ok rest
  obtain rfl := ensure_eq_ok sameKey
  obtain rfl := ensure_eq_ok sameId
  obtain rfl := ensure_eq_ok sameHandle
  exact ⟨x509Check_eq_ok validated, ensure_eq_ok algorithm, okOr_eq_ok isPublic, identity,
    extracted, okOr_eq_ok isId, ensure_eq_ok sameName, okOr_eq_ok isHandle,
    ensure_eq_ok sameDomain⟩

theorem verifyCertChain_eq_ok
    (ok : verifyCertChain parse library config pkiEnv signKp certs = .ok ()) :
    ∃ leaf intermediates env, certs = leaf :: intermediates ∧
      library.init pkiEnv.trustAnchors intermediates = .ok env ∧
      verifyLeafCertificate parse library config env pkiEnv signKp leaf = .ok () := by
  cases certs with
  | nil => cases ok
  | cons leaf intermediates =>
    obtain ⟨env, init, rest⟩ := bind_eq_ok ok
    obtain ⟨_, verified, -⟩ := bind_eq_ok rest
    exact ⟨leaf, intermediates, env, rfl, x509Check_eq_ok init, verified⟩

theorem orFail_eq_ok {ε : Type} {convert : ε → AcquisitionError} {result : Except ε α}
    (ok : orFail convert result w = .ok a w') : result = .ok a := by
  cases result with
  | ok b => cases ok; rfl
  | error e => cases ok

/-- Whatever the hooks and the server did, the chain that is returned was verified. -/
theorem completeOidcChallenge_eq_ok {hooks : Hooks W} {acme : RustyAcme} {kp : Pem}
    (ok : completeOidcChallenge parse library hooks acme config pkiEnv signKp w =
      .ok (kp, certs) w') :
    kp = signKp ∧ verifyCertChain parse library config pkiEnv signKp certs = .ok () := by
  obtain ⟨thumbprint, _, -, rest⟩ := Library.bind_eq_ok.mp ok
  obtain ⟨idToken, _, -, rest⟩ := Library.bind_eq_ok.mp rest
  obtain ⟨request, _, -, rest⟩ := Library.bind_eq_ok.mp rest
  obtain ⟨⟨nonce, response⟩, _, -, rest⟩ := Library.bind_eq_ok.mp rest
  obtain ⟨_, _, -, rest⟩ := Library.bind_eq_ok.mp rest
  obtain ⟨request, _, -, rest⟩ := Library.bind_eq_ok.mp rest
  obtain ⟨⟨nonce, response⟩, _, -, rest⟩ := Library.bind_eq_ok.mp rest
  obtain ⟨certificateUrl, _, -, rest⟩ := Library.bind_eq_ok.mp rest
  obtain ⟨request, _, -, rest⟩ := Library.bind_eq_ok.mp rest
  obtain ⟨response, _, -, rest⟩ := Library.bind_eq_ok.mp rest
  obtain ⟨response, _, -, rest⟩ := Library.bind_eq_ok.mp rest
  obtain ⟨certificates, _, -, rest⟩ := Library.bind_eq_ok.mp rest
  obtain ⟨_, _, verified, ⟨⟩⟩ := Library.bind_eq_ok.mp rest
  exact ⟨rfl, orFail_eq_ok verified⟩

/-- A verified leaf with one name of each kind is the requested one. -/
theorem isRequested_of_oneIdentity (sound : library.Sound Issued) (roundTrip : parse.RoundTrip)
    {env : Certval Certificate Pdv Path}
    (init : library.init pkiEnv.trustAnchors intermediates = .ok env)
    (verified : verifyLeafCertificate parse library config env pkiEnv signKp leaf = .ok ())
    (one : OneIdentity parse leaf) :
    IsRequested parse library Issued config pkiEnv signKp leaf intermediates := by
  obtain ⟨validated, algorithm, publicKey, identity, extracted, isId, isName, isHandle, isDomain⟩ :=
    verifyLeafCertificate_eq_ok verified
  obtain ⟨⟨uriOfId, listedId, id, parsedId, qualified⟩, ⟨uriOfHandle, listedHandle, parsedHandle⟩,
    nameListed, domainListed⟩ := extractIdentity_seen extracted
  obtain ⟨toi, paths, clock, found, passing⟩ := exists_passes_of_validateCert validated
  have idIsConfigured : id = config.clientId := by
    rw [← qualified, roundTrip id] at isId
    exact Option.some.inj isId
  exact {
    publicKey
    algorithm
    certified := sound _ _ _ _ _ _ init clock found passing
    clientIds := fun uri listed id' parsed =>
      (one.clientIds uri listed uriOfId listedId id' id parsed parsedId).trans idIsConfigured
    handles := fun uri listed handle parsed => by
      rw [one.handles uri listed uriOfHandle listedHandle handle _ parsed parsedHandle]
      exact isHandle
    displayNames := fun name listed => by
      rw [one.displayNames name listed _ nameListed, isName]
    domains := fun name listed => by
      rw [one.domains name listed _ domainListed, isDomain] }

/-- **An acquisition yields the requested identity** exactly if the names of the leaf agree with
each other. -/
theorem acquired_is_requested_iff_oneIdentity (hooks : Hooks W) (acme : RustyAcme)
    (config : X509CredentialConfiguration ClientId) (pkiEnv : PkiEnv) (signKp : Pem)
    (sound : library.Sound Issued) (roundTrip : parse.RoundTrip) (kp : Pem)
    (certs : List Certificate) (w w' : W)
    (ok : completeOidcChallenge parse library hooks acme config pkiEnv signKp w =
      .ok (kp, certs) w') :
    ∃ leaf intermediates, certs = leaf :: intermediates ∧
      (IsRequested parse library Issued config pkiEnv kp leaf intermediates ↔
        OneIdentity parse leaf) := by
  obtain ⟨rfl, chain⟩ := completeOidcChallenge_eq_ok ok
  obtain ⟨leaf, intermediates, env, rfl, init, verified⟩ := verifyCertChain_eq_ok chain
  refine ⟨leaf, intermediates, rfl, IsRequested.oneIdentity parse library, ?_⟩
  exact isRequested_of_oneIdentity sound roundTrip init verified

end Challenge

/-! ### A sample -/

/-- Client ids are `alice` and `mallory`, and there is one handle. -/
def sampleParse : NameParsers String String where
  subjectAltName bytes := some (bytes.map fun
    | 1 => .uniformResourceIdentifier "alice"
    | 2 => .uniformResourceIdentifier "mallory"
    | _ => .uniformResourceIdentifier "@alice")
  fromUtf8
    | [1] => some "Alice"
    | [2] => some "wire"
    | _ => none
  clientIdFromUri uri := if uri = "@alice" then none else some uri
  clientIdToQualified := id
  clientIdFromQualified := some
  qualifiedHandle uri := if uri = "@alice" then some uri else none
  handleToQualified handle _ := some handle
  thumbprint _ _ := some "thumbprint"

/-- A library that finds a path as soon as there is a trust anchor. -/
def sampleLibrary : X509Library Unit Unit where
  init
    | [], _ => .error .derError
    | _ :: _, _ => .ok {
        now := some 0
        pdvCertificate := fun _ => .ok ()
        getPathsForTarget := fun _ _ => .ok [()]
        validatePathRfc5280 := fun _ _ => some .valid
        checkRevocation := fun _ _ => some .valid }
  extractSkiAkiFromCert _ := .ok ("ski", none)
  publicKeyBytes _ _ := some [9]

/-- A certificate with these alternative names. -/
def sampleCertificate (names : Bytes) : Certificate where
  serialNumber := [1]
  notBefore := 0
  notAfter := 1
  subject := [[⟨.commonName, [1]⟩], [⟨.organizationName, [2]⟩]]
  algorithm := jwsAlgToX509Identifier .ed25519
  subjectPublicKey := [9]
  extensions := some [⟨true, names⟩]

def sampleConfig : X509CredentialConfiguration String :=
  ⟨.ed25519, .sha256, "Alice", "alice", "@alice", "wire"⟩

def samplePkiEnv : PkiEnv := ⟨[sampleCertificate []], fun _ => .valid⟩

def sampleHooks : Hooks Unit where
  authenticate _ _ _ := pure "id token"
  httpRequest _ _ := pure ⟨200, [("replay-nonce", "nonce")], []⟩

/-- A server that answers with one certificate. -/
def sampleAcme (names : Bytes) : RustyAcme where
  oidcChallenge := ⟨"token", "url", "target"⟩
  finalizeUrl := "finalize"
  nonce := "nonce"
  jwkThumbprint := some "kid"
  oidcChallRequest _ _ := .ok "request"
  newChallResponse _ := .ok ()
  finalizeReq _ := .ok "request"
  finalizeResponse _ := .ok "certificate"
  certificateReq _ _ := .ok "request"
  orderVerify := .ok ()
  parseMany _ := .ok [names]
  certificateFromDer der := .ok (sampleCertificate der)
  json _ := some "response"
  fromUtf8 _ := some "chain"

theorem sampleLibrary_sound : sampleLibrary.Sound fun _ _ => True := by
  intro roots intermediates env cert toi paths init _ _ _
  cases roots with
  | nil => cases init
  | cons root rest => exact .anchored List.mem_cons_self trivial

theorem sampleCertificate_oneIdentity : OneIdentity sampleParse (sampleCertificate [1, 3]) := by
  have uris : (sampleCertificate [1, 3]).sanUris sampleParse = ["alice", "@alice"] := rfl
  have names : (sampleCertificate [1, 3]).texts sampleParse .commonName = [some "Alice"] := rfl
  have domains : (sampleCertificate [1, 3]).texts sampleParse .organizationName =
    [some "wire"] := rfl
  constructor
  · simp only [uris]
    simp [sampleParse]
  · simp only [uris]
    simp [sampleParse]
  · simp [names]
  · simp [domains]

theorem acquired_is_requested_iff_oneIdentity_sample :
    ∃ leaf intermediates, [sampleCertificate [1, 3]] = leaf :: intermediates ∧
      IsRequested sampleParse sampleLibrary (fun _ _ => True) sampleConfig samplePkiEnv "pem" leaf
        intermediates := by
  have roundTrip : sampleParse.RoundTrip := fun _ => rfl
  have ok : completeOidcChallenge sampleParse sampleLibrary sampleHooks (sampleAcme [1, 3])
      sampleConfig samplePkiEnv "pem" () = .ok ("pem", [sampleCertificate [1, 3]]) () := by rfl
  obtain ⟨leaf, intermediates, same, iff⟩ := acquired_is_requested_iff_oneIdentity sampleHooks
    (sampleAcme [1, 3]) sampleConfig samplePkiEnv "pem" sampleLibrary_sound roundTrip "pem" _ () () ok
  refine ⟨leaf, intermediates, same, iff.mpr ?_⟩
  cases same
  exact sampleCertificate_oneIdentity

/-- A certificate that is also for another client is accepted, if the other comes first. -/
theorem certificate_for_another_client_accepted :
    completeOidcChallenge sampleParse sampleLibrary sampleHooks (sampleAcme [2, 1, 3]) sampleConfig
      samplePkiEnv "pem" () = .ok ("pem", [sampleCertificate [2, 1, 3]]) () ∧
    "mallory" ∈ (sampleCertificate [2, 1, 3]).sanUris sampleParse ∧
    sampleParse.clientIdFromUri "mallory" = some "mallory" ∧ sampleConfig.clientId = "alice" := by
  refine ⟨by rfl, by decide, rfl, rfl⟩

end CoreCrypto.Acquisition
