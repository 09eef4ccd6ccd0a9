import CoreCrypto.Revocation.CrlInfo
import Mathlib.Logic.Function.Basic

/-!
# The revocation list store

`CrlStore` keeps the lists it was built from, the infos of the accepted ones and
three maps from lookup keys to positions. The `BTreeMap`s are only ever used
through `entry` and `get`, so they are functions here.
-/
namespace CoreCrypto.Revocation

/-- A `BTreeMap<K, Vec<usize>>`. -/
abbrev IndexMap (K : Type) := K → Option (List Nat)

/-- `entry(key).or_default().push(index)`. -/
def IndexMap.push {K : Type} [DecidableEq K] (m : IndexMap K) (key : K) (index : Nat) :
    IndexMap K :=
  Function.update m key (some ((m key).getD [] ++ [index]))

structure CrlStore where
  crls : List CertificateList
  crlInfo : List CrlInfo
  issuers : IndexMap String
  skIds : IndexMap Bytes
  dps : IndexMap Bytes

/-- `check_crl_valid_at_toi`: `next_update` itself still counts as valid, and a
zero time of interest never does. -/
def checkCrlValidAtToi (toi : Nat) (crl : CertificateList) : Bool :=
  if toi = 0 then false
  else if crl.thisUpdate > toi then false
  else match crl.nextUpdate with
    | some nu => !(nu < toi)
    | none => true

/-- The encoded name of an issuing distribution point, if this extension is one. -/
def dpOfExtension (codec : Codec) (ext : Extension) : Option Bytes :=
  if ext.extnId = .issuingDistributionPoint then
    (codec.decodeIssuingDistributionPoint ext.extnValue).bind fun idp =>
      idp.distributionPoint.bind codec.encodeDistributionPointName
  else none

def getDpFromCrl (codec : Codec) (crl : CertificateList) : Option Bytes :=
  (crl.crlExtensions.getD []).findSome? (dpOfExtension codec)

def getDpsFromCert (codec : Codec) (cert : PDVCertificate) : Option (List Bytes) :=
  cert.crlDistributionPoints.map fun points =>
    points.filterMap fun point => point.bind codec.encodeDistributionPointName

namespace CrlStore

/-- `impl From<&[CertificateList]> for CrlStore`. -/
def ofList (crls : List CertificateList) : CrlStore where
  crls := crls
  crlInfo := []
  issuers := fun _ => none
  skIds := fun _ => none
  dps := fun _ => none

/-- `add_crl_info_with_guard`. The position pushed into the maps is the one in
`crl_info`, not the one in `crls`. -/
def addCrlInfo (codec : Codec) (crl : CertificateList) (info : CrlInfo) (store : CrlStore) :
    CrlStore :=
  if info ∈ store.crlInfo then store
  else
    let index := store.crlInfo.length
    let store := { store with crlInfo := store.crlInfo ++ [info] }
    match getDpFromCrl codec crl with
    | some dp => { store with dps := IndexMap.push store.dps dp index }
    | none =>
      let store := match info.skid with
        | some akid => { store with skIds := IndexMap.push store.skIds akid index }
        | none => store
      if info.typeInfo.scope = .complete then
        { store with issuers :=
            IndexMap.push store.issuers (codec.nameToString crl.issuer) index }
      else store

/-- One round of the loop in `index_crls`. -/
def indexCrl (codec : Codec) (toi : Nat) (store : CrlStore) (crl : CertificateList) : CrlStore :=
  match CrlInfo.tryFrom codec crl with
  | .ok info => if checkCrlValidAtToi toi crl then addCrlInfo codec crl info store else store
  | .error _ => store

def indexCrls (codec : Codec) (toi : Nat) (store : CrlStore) : CrlStore :=
  store.crls.foldl (indexCrl codec toi) store

theorem crls_indexCrl (codec : Codec) (toi : Nat) (store : CrlStore) (crl : CertificateList) :
    (store.indexCrl codec toi crl).crls = store.crls := by
  have added (info : CrlInfo) : (store.addCrlInfo codec crl info).crls = store.crls := by
    unfold addCrlInfo
    split
    · rfl
    · dsimp only
      split
      · rfl
      · cases info.skid <;> dsimp only <;> split <;> rfl
  unfold indexCrl
  split
  · split
    · exact added _
    · rfl
  · rfl

@[simp] theorem crls_indexCrls (codec : Codec) (toi : Nat) (store : CrlStore) :
    (store.indexCrls codec toi).crls = store.crls := by
  have round (listed : List CertificateList) :
      (listed.foldl (indexCrl codec toi) store).crls = store.crls := by
    induction listed generalizing store with
    | nil => rfl
    | cons crl rest ih => rw [List.foldl_cons, ih, crls_indexCrl]
  exact round store.crls

/-- The loop that turns index positions into DER; positions past the end are
passed over. -/
def fetch (codec : Codec) (crls : List CertificateList) (indices : List Nat) :
    Except CertvalError (List Bytes) :=
  (indices.filterMap (fun index => crls[index]?)).mapM fun crl =>
    match codec.encodeCrl crl with
    | some der => .ok der
    | none => .error .asn1Error

/-- The positions `get_crls` looks up: distribution points first, then the
authority key identifier, then the issuer name. -/
def lookup (codec : Codec) (store : CrlStore) (cert : PDVCertificate) : Option (List Nat) :=
  match ((getDpsFromCert codec cert).getD []).findSome? store.dps with
  | some indices => some indices
  | none =>
    match (cert.authorityKeyIdentifier.bind (·.keyIdentifier)).bind store.skIds with
    | some indices => some indices
    | none => store.issuers (codec.nameToString cert.issuer)

/-- `CrlSource::get_crls`. -/
def getCrls (codec : Codec) (store : CrlStore) (cert : PDVCertificate) :
    Except CertvalError (List Bytes) :=
  match lookup codec store cert with
  | some indices => fetch codec store.crls indices
  | none => .error .notFound

end CrlStore

end CoreCrypto.Revocation
