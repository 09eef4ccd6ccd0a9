import CoreCrypto.Keystore.Database
import CoreCrypto.Library.Hoare
import CoreCrypto.Revocation.CrlStore
import CoreCrypto.Revocation.Validation
import Mathlib.Data.List.Destutter

/-!
# The PKI environment

`PkiEnvironment` keeps trust anchors, intermediates and revocation lists twice: in the sources that
certval consults, and in the database.  `x509_cert` and certval are the fields of `X509`; the clock,
the HTTP hook, the SQL engine and the order of hash maps are given for each call by `Surroundings`.
-/

namespace CoreCrypto.Pki

open Keystore Revocation

/-- The fields of a certificate that this code reads, and its signed content. -/
structure Certificate where
  subject : Name
  issuer : Name
  serialNumber : Bytes
  subjectPublicKeyInfo : Bytes
  tbs : Bytes
  signature : Bytes
  deriving DecidableEq, Repr

/-- What `PDVCertificate` tells about a certificate: the answers of `get_extension` for the two
key identifiers, and the parsed distribution points. -/
structure PDVCertificate where
  subjectKeyIdentifier : Except CertvalError (Option Bytes)
  authorityKeyIdentifier : Except CertvalError (Option AuthorityKeyIdentifier)
  crlDistributionPoints : Option (List (Option DistributionPointName))

/-- The DER codec, the signature check, and what certval makes of the certificates of a source:
whether `initialize` takes them, and which of them a lookup finds. -/
structure X509 where
  codec : Codec
  certToDer : Certificate → Option Bytes
  certFromDer : Bytes → Option Certificate
  crlFromDer : Bytes → Option CertificateList
  deferDecodeSigned : Bytes → Option Bytes
  pdvCertificate : Certificate → Except RustyX509CheckError PDVCertificate
  verifySignatureMessage : (tbs signature algorithm spki : Bytes) → Bool
  checkTrustAnchor : Nat → Certificate → Except RustyX509CheckError Unit
  taInitialize : List Certificate → Except CertvalError Unit
  certInitialize : Nat → List Certificate → Except CertvalError Unit
  getTrustAnchor : List Certificate → Bytes → Option Certificate
  getIntermediatesBySkid : List Certificate → Bytes → Option (List Certificate)
  getTrustAnchorByName : List Certificate → Name → Option Certificate
  getCertByName : List Certificate → Name → List Certificate

structure HttpResponse where
  status : Nat
  body : Bytes
  deriving DecidableEq, Repr

/-- What one call meets outside of the environment. -/
structure Surroundings where
  now : Option Nat
  httpRequest : String → Except String HttpResponse
  /-- The error of the SQL engine, if the call commits a transaction. -/
  engine : Option CryptoKeystoreError
  /-- The order in which a `HashSet` yields URIs and a `HashMap` the fetched lists. -/
  uriOrder : List String → List String
  uriOrder_perm : ∀ uris, (uriOrder uris).Perm uris
  listOrder : List (String × Bytes) → List (String × Bytes)
  listOrder_perm : ∀ crls, (listOrder crls).Perm crls

inductive Error where
  | crlFetchUnsuccessful (uri : String) (status : Nat)
  | hooksError (message : String)
  | x509Error (error : RustyX509CheckError)
  | x509CertDerError
  | keystoreError (error : CryptoKeystoreError)
  | certval (error : CertvalError)
  deriving DecidableEq, Repr

/-! ### The sources in memory -/

/-- The sources of `certval::environment::PkiEnvironment`. -/
structure RjtPkiEnvironment where
  trustAnchorSources : List (List Certificate)
  certificateSources : List (List Certificate)
  crlSources : List CrlStore

namespace RjtPkiEnvironment

def getTrustAnchors (pe : RjtPkiEnvironment) : List Certificate :=
  pe.trustAnchorSources.flatten

def certificates (pe : RjtPkiEnvironment) : List Certificate :=
  pe.certificateSources.flatten

def crls (pe : RjtPkiEnvironment) : List CertificateList :=
  pe.crlSources.flatMap CrlStore.crls

def addTrustAnchorSource (source : List Certificate) (pe : RjtPkiEnvironment) :
    RjtPkiEnvironment :=
  { pe with trustAnchorSources := pe.trustAnchorSources ++ [source] }

def clearTrustAnchorSources (pe : RjtPkiEnvironment) : RjtPkiEnvironment :=
  { pe with trustAnchorSources := [] }

def addCertificateSource (source : List Certificate) (pe : RjtPkiEnvironment) :
    RjtPkiEnvironment :=
  { pe with certificateSources := pe.certificateSources ++ [source] }

def addCrlSource (source : CrlStore) (pe : RjtPkiEnvironment) : RjtPkiEnvironment :=
  { pe with crlSources := pe.crlSources ++ [source] }

/-- The raw value of the authority key identifier extension of a list. -/
def authorityKeyId (crl : CertificateList) : Option Bytes :=
  ((crl.crlExtensions.getD []).find? fun ext => ext.extnId = .authorityKeyIdentifier).map
    Extension.extnValue

/-- The certificates found under a key id: a trust anchor, or else the intermediates. -/
def foundByKeyId (x : X509) (pe : RjtPkiEnvironment) (akid : Bytes) : List Certificate :=
  match x.getTrustAnchor pe.getTrustAnchors akid with
  | some ta => [ta]
  | none => (x.getIntermediatesBySkid pe.certificates akid).getD []

/-- The keys found under the key id of a list. -/
def spkisByKeyId (x : X509) (pe : RjtPkiEnvironment) (crl : CertificateList) : List Bytes :=
  match authorityKeyId crl with
  | some akid => (foundByKeyId x pe akid).map Certificate.subjectPublicKeyInfo
  | none => []

/-- `spki_list`: the keys that the signature of a list is tried with. -/
def spkiList (x : X509) (pe : RjtPkiEnvironment) (crl : CertificateList) : List Bytes :=
  let spkis := spkisByKeyId x pe crl
  let spkis := match x.getTrustAnchorByName pe.getTrustAnchors crl.issuer with
    | some ta =>
      if ta.subjectPublicKeyInfo ∈ spkis then spkis else spkis ++ [ta.subjectPublicKeyInfo]
    | none => spkis
  (spkis ++ (x.getCertByName pe.certificates crl.issuer).map
    Certificate.subjectPublicKeyInfo).destutter (· ≠ ·)

def validateCrlWithRaw (x : X509) (pe : RjtPkiEnvironment) (crlRaw : Bytes) :
    Except RustyX509CheckError CertificateList :=
  match x.crlFromDer crlRaw with
  | none => .error .derError
  | some crl =>
    match x.deferDecodeSigned crlRaw with
    | none => .error .derError
    | some tbs =>
      if (spkiList x pe crl).any
          (x.verifySignatureMessage tbs crl.signature crl.signatureAlgorithm) then
        .ok crl
      else
        .error (.pathValidation .signatureVerificationFailure)

section Sources

variable {pe : RjtPkiEnvironment} (source : List Certificate)

@[simp] theorem getTrustAnchors_addTrustAnchorSource :
    (pe.addTrustAnchorSource source).getTrustAnchors = pe.getTrustAnchors ++ source := by
  simp [getTrustAnchors, addTrustAnchorSource]

@[simp] theorem getTrustAnchors_addCertificateSource :
    (pe.addCertificateSource source).getTrustAnchors = pe.getTrustAnchors := rfl

@[simp] theorem certificates_addCertificateSource :
    (pe.addCertificateSource source).certificates = pe.certificates ++ source := by
  simp [certificates, addCertificateSource]

@[simp] theorem crls_addCrlSource (source : CrlStore) :
    (pe.addCrlSource source).crls = pe.crls ++ source.crls := by
  simp [RjtPkiEnvironment.crls, addCrlSource]

theorem validateCrlWithRaw_eq_ok {x : X509} {der : Bytes} {crl : CertificateList}
    (ok : validateCrlWithRaw x pe der = .ok crl) :
    x.crlFromDer der = some crl ∧ ∃ tbs, x.deferDecodeSigned der = some tbs ∧
      ∃ spki ∈ spkiList x pe crl,
        x.verifySignatureMessage tbs crl.signature crl.signatureAlgorithm spki = true := by
  unfold validateCrlWithRaw at ok
  cases decoded : x.crlFromDer der with
  | none => simp [decoded] at ok
  | some decodedCrl =>
    cases deferred : x.deferDecodeSigned der with
    | none => simp [decoded, deferred] at ok
    | some tbs =>
      simp only [decoded, deferred] at ok
      split at ok
      next verified =>
        cases ok
        obtain ⟨spki, member, verifies⟩ := List.any_eq_true.mp verified
        exact ⟨rfl, tbs, rfl, spki, member, verifies⟩
      next => cases ok

end Sources

end RjtPkiEnvironment

/-! ### The environment and its database -/

structure PkiEnvironment (S : Type) where
  rjtPkiEnv : RjtPkiEnvironment
  database : Database S

/-- `KeyType::bytes` of a text. -/
def textKey (text : String) : Bytes := text.toUTF8.data.toList

/-- `UnifiedUniqueEntity::KEY`, a `u64`. -/
def uniqueKey : Bytes := List.replicate 8 0

def acmeCaId : EntityId := ⟨.plain .e2eiAcmeCA, uniqueKey⟩

section Operations

variable {S : Type}

def e2eiAcmeCA (content : Bytes) : Entity S := .plain .e2eiAcmeCA uniqueKey content

def e2eiIntermediateCert (skiAkiPair : String) (content : Bytes) : Entity S :=
  .plain .e2eiIntermediateCert (textKey skiAkiPair) content

def e2eiCrl (distributionPoint : String) (content : Bytes) : Entity S :=
  .plain .e2eiCrl (textKey distributionPoint) content

abbrev PkiM (S α : Type) := EStateM Error (PkiEnvironment S) α

/-- The `?` operator, with the conversion of the error. -/
def orFail {ε α : Type} (convert : ε → Error) : Except ε α → PkiM S α
  | .ok a => pure a
  | .error e => throw (convert e)

def orElse {α : Type} (error : Error) : Option α → PkiM S α
  | some a => pure a
  | none => throw error

def onSources (f : RjtPkiEnvironment → RjtPkiEnvironment) : PkiM S Unit :=
  modify fun env => { env with rjtPkiEnv := f env.rjtPkiEnv }

/-- A call of the database. -/
def onDatabase (call : Database S → Except CryptoKeystoreError Unit × Database S) :
    PkiM S Unit := fun env =>
  match call env.database with
  | (.ok (), database) => .ok () { env with database }
  | (.error e, database) => .error (.keystoreError e) { env with database }

/-- Runs the operation in a transaction: in the one that is open, whoever opened it, or else in
one of its own, which is then committed or rolled back. -/
def transactionally {α : Type} (rt : Runtime S) (engine : Option CryptoKeystoreError)
    (operation : PkiM S α) : PkiM S α := fun env =>
  match env.database.tryNewImmediateTransaction with
  | .error .transactionInProgress => operation env
  | .error e => .error (.keystoreError e) env
  | .ok database =>
    match operation { env with database } with
    | .ok a env =>
      match env.database.commitTransaction rt engine with
      | (.ok (), database) => .ok a { env with database }
      | (.error e, database) => .error (.keystoreError e) { env with database }
    | .error e env =>
      match env.database.rollbackTransaction with
      | (.ok (), database) => .error e { env with database }
      | (.error e', database) => .error (.keystoreError e') { env with database }

variable (x : X509) (rt : Runtime S) (out : Surroundings)

/-- `now()?` where the error becomes one of the environment. -/
def now : PkiM S Nat := orElse (.x509Error .cannotDetermineCurrentTime) out.now

/-- `validate_trust_anchor_cert`: expiration and signature only. -/
def validateTrustAnchorCert (cert : Certificate) : Except RustyX509CheckError Unit :=
  match out.now with
  | none => .error .cannotDetermineCurrentTime
  | some toi => x.checkTrustAnchor toi cert

def addTrustAnchor (cert : Certificate) : PkiM S Unit := do
  orFail .x509Error (validateTrustAnchorCert x out cert)
  let content ← orElse .x509CertDerError (x.certToDer cert)
  transactionally rt out.engine (onDatabase (·.save rt (e2eiAcmeCA content)))
  orFail .certval (x.taInitialize [cert])
  onSources (·.addTrustAnchorSource [cert])

def removeTrustAnchor (serialNumber : Bytes) : PkiM S Unit := do
  let certs := (← get).rjtPkiEnv.getTrustAnchors.filter fun cert =>
    cert.serialNumber ≠ serialNumber
  onSources (·.clearTrustAnchorSources)
  let _ ← certs.mapM fun cert => orElse (S := S) .x509CertDerError (x.certToDer cert)
  orFail .certval (x.taInitialize certs)
  onSources (·.addTrustAnchorSource certs)
  transactionally rt out.engine (onDatabase (·.remove acmeCaId))

/-- `extract_ski_aki_from_cert`. -/
def extractSkiAkiFromCert (cert : Certificate) :
    Except RustyX509CheckError (String × Option String) := do
  let cert ← x.pdvCertificate cert
  let ski ← match cert.subjectKeyIdentifier with
    | .error e => .error (.certValError e)
    | .ok none => .error .missingSki
    | .ok (some ski) => .ok (hexEncode ski)
  let aki ← match cert.authorityKeyIdentifier with
    | .error e => .error (.certValError e)
    | .ok aki => .ok (aki.bind AuthorityKeyIdentifier.keyIdentifier)
  return (ski, aki.map hexEncode)

/-- The URIs of a distribution point. -/
def urisOf : Option DistributionPointName → List String
  | some (.fullName names) => names.filterMap fun
    | .uniformResourceIdentifier uri => some uri
    | _ => none
  | _ => []

/-- `extract_crl_uris`: a set, in the order in which it is iterated. -/
def extractCrlUris (cert : Certificate) : Except RustyX509CheckError (List String) := do
  let cert ← x.pdvCertificate cert
  return out.uriOrder ((cert.crlDistributionPoints.getD []).flatMap urisOf).dedup

/-- `fetch_crls`, for distinct URIs: a list for each, in the order of the map. -/
def fetchCrls (uris : List String) : Except Error (List (String × Bytes)) := do
  let crls ← uris.mapM fun uri =>
    match out.httpRequest uri with
    | .error message => .error (.hooksError message)
    | .ok response =>
      if 200 ≤ response.status ∧ response.status < 300 then .ok (uri, response.body)
      else .error (.crlFetchUnsuccessful uri response.status)
  return out.listOrder crls

def saveCrl (crlDp : String) (crlDer : Bytes) : PkiM S Unit := do
  let crl ← orFail .x509Error ((← get).rjtPkiEnv.validateCrlWithRaw x crlDer)
  let source := (CrlStore.ofList [crl]).indexCrls x.codec (← now out)
  onSources (·.addCrlSource source)
  let content ← orElse (.x509Error .derError) (x.codec.encodeCrl crl)
  transactionally rt out.engine (onDatabase (·.save rt (e2eiCrl crlDp content)))

/-- The lists that the distribution points of a certificate serve. -/
def revocationLists (cert : Certificate) : Except Error (List (String × Bytes)) :=
  match extractCrlUris x out cert with
  | .error e => .error (.x509Error e)
  | .ok dps => fetchCrls out dps

def saveCrls (crls : List (String × Bytes)) : PkiM S Unit :=
  crls.forM fun crl => saveCrl x rt out crl.1 crl.2

/-- `ski_aki_pair`. -/
def skiAkiPair (ids : String × Option String) : String :=
  ids.1 ++ ":" ++ ids.2.getD ""

def addIntermediateCert (cert : Certificate) : PkiM S Unit := do
  let ids ← orFail .x509Error (extractSkiAkiFromCert x cert)
  let content ← orElse (.x509Error .derError) (x.certToDer cert)
  transactionally rt out.engine do
    onDatabase (·.save rt (e2eiIntermediateCert (skiAkiPair ids) content))
    let crls ← orFail id (revocationLists x out cert)
    saveCrls x rt out crls
  let toi ← now out
  orFail .certval (x.certInitialize toi [cert])
  onSources (·.addCertificateSource [cert])

/-! ### Restoring the environment -/

/-- `PkiEnvironmentParams`. -/
structure PkiEnvironmentParams where
  trustRoots : List Certificate
  intermediates : List Certificate
  crls : List CertificateList

/-- The field `content`, which all the entities that are read here have. -/
def contentOf : Entity S → Bytes
  | .plain _ _ content => content
  | _ => []

/-- `from_der` of each content. -/
def decodeAll {α : Type} (fromDer : Bytes → Option α) (contents : List Bytes) :
    Except Error (List α) :=
  contents.mapM fun content =>
    match fromDer content with
    | some a => .ok a
    | none => .error .x509CertDerError

/-- The trust anchor, if there is one; a failed read counts as none. -/
def loadTrustRoots (database : Database S) : Except Error (List Certificate) :=
  match database.get rt acmeCaId with
  | .ok (some taRaw) => decodeAll x.certFromDer [contentOf taRaw]
  | _ => .ok []

/-- `load_all` of a collection, decoded. -/
def loadCollection {α : Type} (database : Database S) (collection : PlainCollection)
    (fromDer : Bytes → Option α) : Except Error (List α) :=
  match database.loadAll rt (.plain collection) with
  | .ok rows => decodeAll fromDer (rows.map contentOf)
  | .error e => .error (.keystoreError e)

/-- What `restore_pki_env` loads from the database. -/
def loadParams (database : Database S) : Except Error PkiEnvironmentParams := do
  let trustRoots ← loadTrustRoots x rt database
  let intermediates ← loadCollection rt database .e2eiIntermediateCert x.certFromDer
  let crls ← loadCollection rt database .e2eiCrl x.crlFromDer
  return ⟨trustRoots, intermediates, crls⟩

/-- `to_der` of each certificate, as the source of a lookup wants it. -/
def encodeCerts (certs : List Certificate) : Except RustyX509CheckError Unit :=
  if certs.all fun cert => (x.certToDer cert).isSome then .ok () else .error .derError

def certvalCheck : Except CertvalError Unit → Except RustyX509CheckError Unit
  | .ok () => .ok ()
  | .error e => .error (.certValError e)

/-- `PkiEnvironment::init` of `x509_check`. -/
def init (params : PkiEnvironmentParams) : Except RustyX509CheckError RjtPkiEnvironment := do
  let some toi := out.now | throw .cannotDetermineCurrentTime
  encodeCerts x params.intermediates
  certvalCheck (x.certInitialize toi params.intermediates)
  encodeCerts x params.trustRoots
  certvalCheck (x.taInitialize params.trustRoots)
  return ⟨[params.trustRoots], [params.intermediates],
    [(CrlStore.ofList params.crls).indexCrls x.codec toi]⟩

def restorePkiEnv (database : Database S) : Except Error RjtPkiEnvironment := do
  let params ← loadParams x rt database
  match init x out params with
  | .ok pe => return pe
  | .error e => throw (.x509Error e)

/-- `PkiEnvironment::new`. -/
def PkiEnvironment.new (database : Database S) : Except Error (PkiEnvironment S) := do
  let rjtPkiEnv ← restorePkiEnv x rt out database
  return { rjtPkiEnv, database }

end Operations

/-! ### Calls that add to the environment -/

inductive Call where
  | addTrustAnchor (cert : Certificate)
  | addIntermediateCert (cert : Certificate)
  | saveCrl (crlDp : String) (crlDer : Bytes)
  deriving DecidableEq, Repr

def Call.run {S : Type} (x : X509) (rt : Runtime S) (out : Surroundings) : Call → PkiM S Unit
  | .addTrustAnchor cert => Pki.addTrustAnchor x rt out cert
  | .addIntermediateCert cert => Pki.addIntermediateCert x rt out cert
  | .saveCrl crlDp crlDer => Pki.saveCrl x rt out crlDp crlDer

/-- The environment after a call, whether the call fails or not. -/
def afterCall {S : Type} (x : X509) (rt : Runtime S) (env : PkiEnvironment S)
    (call : Call × Surroundings) : PkiEnvironment S :=
  Library.finalState (call.1.run x rt call.2) env

/-! ### A small instance -/

def sampleCertificate (key : UInt8) : Certificate :=
  ⟨⟨[("CN", "CA")]⟩, ⟨[("CN", "CA")]⟩, [key], [key], [key], [key]⟩

/-- A list of the one issuer, signed with a key. -/
def sampleCrl (key : Bytes) : CertificateList :=
  ⟨⟨[("CN", "CA")]⟩, 0, none, [], none, [], key⟩

def sampleCodec : Codec where
  nameToString _ := ""
  encodeName _ := none
  encodeAlgorithm _ := none
  encodeExtensions _ := none
  encodeDistributionPointName _ := none
  encodeCrl crl := if crl = sampleCrl crl.signature then some crl.signature else none
  decodeIssuingDistributionPoint _ := none
  decodeAuthorityKeyIdentifier _ := none

/-- Certificates are known by their key, and a signature is the key it was made with. -/
def sampleX509 : X509 where
  codec := sampleCodec
  certToDer cert := match cert.subjectPublicKeyInfo with
    | [key] => if cert = sampleCertificate key then some [key] else none
    | _ => none
  certFromDer der := match der with
    | [key] => some (sampleCertificate key)
    | _ => none
  crlFromDer der := some (sampleCrl der)
  deferDecodeSigned der := some der
  pdvCertificate cert := .ok ⟨.ok (some cert.subjectPublicKeyInfo), .ok none, none⟩
  verifySignatureMessage _ signature _ spki := signature = spki
  checkTrustAnchor _ _ := .ok ()
  taInitialize _ := .ok ()
  certInitialize _ _ := .ok ()
  getTrustAnchor certs akid := certs.find? fun cert => cert.subjectPublicKeyInfo = akid
  getIntermediatesBySkid certs akid :=
    some (certs.filter fun cert => cert.subjectPublicKeyInfo = akid)
  getTrustAnchorByName certs name := certs.find? fun cert => cert.subject = name
  getCertByName certs name := certs.filter fun cert => cert.subject = name

def sampleSurroundings : Surroundings where
  now := some 1
  httpRequest _ := .error "offline"
  engine := none
  uriOrder := id
  uriOrder_perm _ := .refl _
  listOrder := id
  listOrder_perm _ := .refl _

/-- A new environment over an empty database. -/
def sampleFresh : PkiEnvironment Unit := ⟨⟨[[]], [[]], [.ofList []]⟩, .open' []⟩

end CoreCrypto.Pki
