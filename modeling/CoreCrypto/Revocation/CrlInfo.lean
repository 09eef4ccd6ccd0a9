import CoreCrypto.Basic

/-!
# Revocation lists and the facts indexed about them

The X.509 values that `x509_check/revocation` reads, and `CrlInfo::try_from`.
The DER codec and `name_to_string` live in third-party crates: they are the
fields of `Codec`, and no property of them is assumed here.
-/
namespace CoreCrypto.Revocation

/-- A distinguished name as its sequence of attribute/value pairs. -/
structure Name where
  rdns : List (String × String)
deriving DecidableEq, Repr

/-- The extension identifiers that the revocation code compares against. -/
inductive Oid where
  | issuingDistributionPoint
  | authorityKeyIdentifier
  | deltaCrlIndicator
  | other (arcs : List Nat)
deriving DecidableEq, Repr

structure Extension where
  extnId : Oid
  extnValue : Bytes
deriving DecidableEq, Repr

inductive GeneralName where
  | directoryName (name : Name)
  | uniformResourceIdentifier (uri : String)
  | other (content : Bytes)
deriving DecidableEq, Repr

inductive DistributionPointName where
  | fullName (names : List GeneralName)
  | nameRelativeToCrlIssuer (rdn : Bytes)
deriving DecidableEq, Repr

structure IssuingDistributionPoint where
  distributionPoint : Option DistributionPointName
  onlyContainsUserCerts : Bool
  onlyContainsCaCerts : Bool
  onlySomeReasons : Option Bytes
  indirectCrl : Bool
  onlyContainsAttributeCerts : Bool
deriving DecidableEq, Repr

structure AuthorityKeyIdentifier where
  keyIdentifier : Option Bytes
deriving DecidableEq, Repr

/-- `CertificateList` with its `tbs_cert_list` inlined; times are Unix seconds. -/
structure CertificateList where
  issuer : Name
  thisUpdate : Nat
  nextUpdate : Option Nat
  revokedCertificates : List Bytes
  crlExtensions : Option (List Extension)
  signatureAlgorithm : Bytes
  signature : Bytes
deriving DecidableEq, Repr

/-- The certificate under validation, reduced to the parsed extensions and the
issuer that CRL lookup asks for. -/
structure PDVCertificate where
  issuer : Name
  crlDistributionPoints : Option (List (Option DistributionPointName))
  authorityKeyIdentifier : Option AuthorityKeyIdentifier
deriving DecidableEq, Repr

/-- `certval::Error`, as far as this code constructs it. -/
inductive CertvalError where
  | unrecognized
  | asn1Error
  | crlIncompatible
  | notFound
deriving DecidableEq, Repr

/-- The DER codec of `x509_cert` and certval's `name_to_string`. `none` is a
failed conversion. -/
structure Codec where
  nameToString : Name → String
  encodeName : Name → Option Bytes
  encodeAlgorithm : Bytes → Option Bytes
  encodeExtensions : List Extension → Option Bytes
  encodeDistributionPointName : DistributionPointName → Option Bytes
  encodeCrl : CertificateList → Option Bytes
  decodeIssuingDistributionPoint : Bytes → Option IssuingDistributionPoint
  decodeAuthorityKeyIdentifier : Bytes → Option AuthorityKeyIdentifier

/-- The flags collected while scanning the extensions. -/
structure CrlQuestionaire where
  eeOnly : Bool := false
  caOnly : Bool := false
  aaOnly : Bool := false
  delta : Bool := false
  partitioned : Bool := false
  indirect : Bool := false
  someReasons : Bool := false
deriving DecidableEq, Repr

inductive CrlScope where
  | complete | dp | delta | deltaDp
deriving DecidableEq, Repr

inductive CrlCoverage where
  | all | eeOnly | caOnly
deriving DecidableEq, Repr

inductive CrlAuthority where
  | direct | indirect
deriving DecidableEq, Repr

inductive CrlReasons where
  | allReasons | someReasons
deriving DecidableEq, Repr

structure CrlType where
  scope : CrlScope
  coverage : CrlCoverage
  authority : CrlAuthority
  reasons : CrlReasons
deriving DecidableEq, Repr

structure CrlInfo where
  typeInfo : CrlType
  thisUpdate : Nat
  nextUpdate : Option Nat
  issuerName : String
  issuerNameBlob : Bytes
  sigAlgBlob : Bytes
  extsBlob : Option Bytes
  idpName : Option String
  idpBlob : Option Bytes
  skid : Option Bytes
deriving DecidableEq, Repr

namespace CrlInfo

/-- The mutable locals of the extension loop. -/
structure Scan where
  idpBlob : Option Bytes := none
  idpName : Option String := none
  skid : Option Bytes := none
  questionnaire : CrlQuestionaire := {}

/-- The inner loop over general names: the first directory name or URI replaces
the name found so far and ends the loop; other kinds are passed over. -/
def firstName (codec : Codec) : List GeneralName → Option String → Option String
  | [], found => found
  | .directoryName dn :: _, _ => some (codec.nameToString dn)
  | .uniformResourceIdentifier uri :: _, _ => some uri
  | .other _ :: names, found => firstName codec names found

/-- The issuing distribution point arm. The name of an earlier extension counts
when a full name has no usable entry, because the local is shared by the loop. -/
def scanIdp (codec : Codec) (s : Scan) (value : Bytes) (idp : IssuingDistributionPoint) :
    Except CertvalError Scan := do
  let idpName ← match idp.distributionPoint with
    | some (.fullName names) =>
      match firstName codec names s.idpName with
      | some name => .ok (some name)
      | none => .error .unrecognized
    | some (.nameRelativeToCrlIssuer _) => .error .unrecognized
    | none => .ok s.idpName
  let q := s.questionnaire
  .ok { s with
    idpBlob := some value
    idpName := idpName
    questionnaire := { q with
      partitioned := q.partitioned || idp.distributionPoint.isSome
      indirect := q.indirect || idp.indirectCrl
      someReasons := q.someReasons || idp.onlySomeReasons.isSome
      eeOnly := q.eeOnly || idp.onlyContainsUserCerts
      caOnly := q.caOnly || idp.onlyContainsCaCerts
      aaOnly := q.aaOnly || idp.onlyContainsAttributeCerts } }

def scanExtension (codec : Codec) (s : Scan) (ext : Extension) : Except CertvalError Scan :=
  match ext.extnId with
  | .issuingDistributionPoint =>
    match codec.decodeIssuingDistributionPoint ext.extnValue with
    | none => .error .asn1Error
    | some idp => scanIdp codec s ext.extnValue idp
  | .authorityKeyIdentifier =>
    match (codec.decodeAuthorityKeyIdentifier ext.extnValue).bind (·.keyIdentifier) with
    | some kid => .ok { s with skid := some kid }
    | none => .ok s
  | .deltaCrlIndicator => .ok { s with questionnaire := { s.questionnaire with delta := true } }
  | .other _ => .ok s

def typeInfoOf (q : CrlQuestionaire) : CrlType where
  coverage := if q.eeOnly then .eeOnly else if q.caOnly then .caOnly else .all
  authority := if q.indirect then .indirect else .direct
  scope :=
    if q.partitioned then (if q.delta then .deltaDp else .dp)
    else if q.delta then .delta else .complete
  reasons := if q.someReasons then .someReasons else .allReasons

/-- A failed re-encoding is reported as `Unrecognized`. -/
def encoded (r : Option Bytes) : Except CertvalError Bytes :=
  match r with
  | some der => .ok der
  | none => .error .unrecognized

/-- `CrlInfo::try_from`. -/
def tryFrom (codec : Codec) (crl : CertificateList) : Except CertvalError CrlInfo := do
  let issuerNameBlob ← encoded (codec.encodeName crl.issuer)
  let sigAlgBlob ← encoded (codec.encodeAlgorithm crl.signatureAlgorithm)
  let extsBlob ← crl.crlExtensions.mapM fun exts => encoded (codec.encodeExtensions exts)
  let s ← (crl.crlExtensions.getD []).foldlM (scanExtension codec) {}
  -- attribute certificate lists are not supported
  if s.questionnaire.aaOnly then .error .crlIncompatible
  .ok {
    typeInfo := typeInfoOf s.questionnaire
    thisUpdate := crl.thisUpdate
    nextUpdate := crl.nextUpdate
    issuerName := codec.nameToString crl.issuer
    issuerNameBlob := issuerNameBlob
    sigAlgBlob := sigAlgBlob
    extsBlob := extsBlob
    idpName := s.idpName
    idpBlob := s.idpBlob
    skid := s.skid }

end CrlInfo

end CoreCrypto.Revocation
