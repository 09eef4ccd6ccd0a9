import CoreCrypto.Acquisition.Challenge
import CoreCrypto.Acquisition.Order
import CoreCrypto.Library.Json

/-!
# Snapshots of an acquisition

`complete_oidc_challenge` passes the serialised acquisition to the hook that authenticates the user,
so that it can be resumed.  The optional dates of the order are left out where they are none, and
their deserializer does not take a field that is left out.
-/

namespace CoreCrypto.Acquisition

open Library JsonCodec

/-- `ClientIdDef`. -/
structure ClientIdDef where
  userId : String
  deviceId : Nat
  domain : String
  deriving DecidableEq

/-- The configuration with the fields that only the requests to the server use. -/
structure AcquisitionConfiguration extends X509CredentialConfiguration ClientIdDef where
  acmeDirectoryUrl : String
  team : Option String
  /-- Seconds and nanoseconds. -/
  validityPeriod : Nat × Nat

inductive AcmeAccountStatus where
  | valid | deactivated | revoked
  deriving DecidableEq

structure AcmeAccount where
  status : AcmeAccountStatus
  orders : Option String

inductive AcmeChallengeStatus where
  | pending | processing | valid | invalid
  deriving DecidableEq

inductive AcmeChallengeType where
  | http01 | dns01 | tlsAlpn01 | wireDpop01 | wireOidc01
  deriving DecidableEq

/-- A challenge with its type and status. -/
structure TypedChallenge extends AcmeChallenge where
  typ : AcmeChallengeType
  status : Option AcmeChallengeStatus

/-- `states::DpopChallengeCompleted`. -/
structure DpopChallengeCompleted where
  nonce : String
  acmeAccount : AcmeAccount
  order : AcmeOrder
  oidcChallenge : TypedChallenge

/-- `X509CredentialAcquisition`, without the reference to the PKI environment. -/
structure X509CredentialAcquisition (Jwk : Type) where
  config : AcquisitionConfiguration
  signKp : Pem
  acmeKp : Pem
  acmeJwk : Jwk
  data : DpopChallengeCompleted

/-- The codecs of other crates. -/
structure SerdeCrates (Jwk : Type) where
  jwsAlgorithm : JsonCodec JwsAlgorithm
  hashAlgorithm : JsonCodec HashAlgorithm
  jwk : JsonCodec Jwk
  /-- `time::serde::rfc3339`. -/
  rfc3339 : JsonCodec OffsetDateTime

structure SerdeCrates.Lawful {Jwk : Type} (crates : SerdeCrates Jwk) : Prop where
  jwsAlgorithm : crates.jwsAlgorithm.Lawful
  hashAlgorithm : crates.hashAlgorithm.Lawful
  jwk : crates.jwk.Lawful
  rfc3339 : crates.rfc3339.Lawful

/-! ### The derived codecs -/

def clientIdDef : JsonCodec ClientIdDef where
  encode id := .obj [("user_id", string.encode id.userId), ("device_id", nat.encode id.deviceId),
    ("domain", string.encode id.domain)]
  decode json := do
    let fields ← json.fields
    return ⟨← string.required "user_id" fields, ← nat.required "device_id" fields,
      ← string.required "domain" fields⟩

def duration : JsonCodec (Nat × Nat) where
  encode d := .obj [("secs", nat.encode d.1), ("nanos", nat.encode d.2)]
  decode json := do
    let fields ← json.fields
    return (← nat.required "secs" fields, ← nat.required "nanos" fields)

def acmeAccountStatus : JsonCodec AcmeAccountStatus :=
  enumeration (fun
    | .valid => "valid"
    | .deactivated => "deactivated"
    | .revoked => "revoked") [.valid, .deactivated, .revoked]

def acmeAccount : JsonCodec AcmeAccount where
  encode account := .obj (("status", acmeAccountStatus.encode account.status) ::
    string.skipNone "orders" account.orders)
  decode json := do
    let fields ← json.fields
    return ⟨← acmeAccountStatus.required "status" fields, ← string.optional "orders" fields⟩

def acmeOrderStatus : JsonCodec AcmeOrderStatus :=
  enumeration (fun
    | .pending => "pending"
    | .ready => "ready"
    | .processing => "processing"
    | .valid => "valid"
    | .invalid => "invalid") [.pending, .ready, .processing, .valid, .invalid]

def acmeIdentifier : JsonCodec AcmeIdentifier where
  encode
    | .wireappUser value => .obj [("type", .str "wireapp-user"), ("value", .str value)]
    | .wireappDevice value => .obj [("type", .str "wireapp-device"), ("value", .str value)]
  decode json := do
    let fields ← json.fields
    match ← string.required "type" fields with
    | "wireapp-user" => return .wireappUser (← string.required "value" fields)
    | "wireapp-device" => return .wireappDevice (← string.required "value" fields)
    | _ => .error "unknown variant"

def acmeChallengeStatus : JsonCodec AcmeChallengeStatus :=
  enumeration (fun
    | .pending => "pending"
    | .processing => "processing"
    | .valid => "valid"
    | .invalid => "invalid") [.pending, .processing, .valid, .invalid]

def acmeChallengeType : JsonCodec AcmeChallengeType :=
  enumeration (fun
    | .http01 => "http-01"
    | .dns01 => "dns-01"
    | .tlsAlpn01 => "tls-alpn-01"
    | .wireDpop01 => "wire-dpop-01"
    | .wireOidc01 => "wire-oidc-01") [.http01, .dns01, .tlsAlpn01, .wireDpop01, .wireOidc01]

def acmeChallenge : JsonCodec TypedChallenge where
  encode c := .obj (("type", acmeChallengeType.encode c.typ) :: ("url", string.encode c.url) ::
    ("token", string.encode c.token) :: ("target", string.encode c.target) ::
    acmeChallengeStatus.skipNone "status" c.status)
  decode json := do
    let fields ← json.fields
    return ⟨⟨← string.required "token" fields, ← string.required "url" fields,
      ← string.required "target" fields⟩, ← acmeChallengeType.required "type" fields,
      ← acmeChallengeStatus.optional "status" fields⟩

section Crates

variable {Jwk : Type} (crates : SerdeCrates Jwk)

def acmeOrder : JsonCodec AcmeOrder where
  encode order := .obj (("status", acmeOrderStatus.encode order.status) ::
    ("finalize", string.encode order.finalize) ::
    ("identifiers", (pair acmeIdentifier).encode order.identifiers) ::
    ("authorizations", (pair string).encode order.authorizations) ::
    (crates.rfc3339.skipNone "expires" order.expires ++
      crates.rfc3339.skipNone "notBefore" order.notBefore ++
      crates.rfc3339.skipNone "notAfter" order.notAfter))
  decode json := do
    let fields ← json.fields
    return ⟨← acmeOrderStatus.required "status" fields, ← string.required "finalize" fields,
      ← (pair acmeIdentifier).required "identifiers" fields,
      ← (pair string).required "authorizations" fields,
      ← crates.rfc3339.optionalWith "expires" fields,
      ← crates.rfc3339.optionalWith "notBefore" fields,
      ← crates.rfc3339.optionalWith "notAfter" fields⟩

def configuration : JsonCodec AcquisitionConfiguration where
  encode c := .obj [("acme_directory_url", string.encode c.acmeDirectoryUrl),
    ("sign_alg", crates.jwsAlgorithm.encode c.signAlg),
    ("hash_alg", crates.hashAlgorithm.encode c.hashAlg),
    ("display_name", string.encode c.displayName), ("client_id", clientIdDef.encode c.clientId),
    ("handle", string.encode c.handle), ("domain", string.encode c.domain),
    ("team", (c.team.map string.encode).getD .null),
    ("validity_period", duration.encode c.validityPeriod)]
  decode json := do
    let fields ← json.fields
    let acmeDirectoryUrl ← string.required "acme_directory_url" fields
    let signAlg ← crates.jwsAlgorithm.required "sign_alg" fields
    let hashAlg ← crates.hashAlgorithm.required "hash_alg" fields
    let displayName ← string.required "display_name" fields
    let clientId ← clientIdDef.required "client_id" fields
    let handle ← string.required "handle" fields
    let domain ← string.required "domain" fields
    let team ← string.optional "team" fields
    let validityPeriod ← duration.required "validity_period" fields
    return ⟨⟨signAlg, hashAlg, displayName, clientId, handle, domain⟩, acmeDirectoryUrl, team,
      validityPeriod⟩

def dpopChallengeCompleted : JsonCodec DpopChallengeCompleted where
  encode d := .obj [("nonce", string.encode d.nonce),
    ("acme_account", acmeAccount.encode d.acmeAccount),
    ("order", (acmeOrder crates).encode d.order),
    ("oidc_challenge", acmeChallenge.encode d.oidcChallenge)]
  decode json := do
    let fields ← json.fields
    return ⟨← string.required "nonce" fields, ← acmeAccount.required "acme_account" fields,
      ← (acmeOrder crates).required "order" fields,
      ← acmeChallenge.required "oidc_challenge" fields⟩

/-- The snapshot, and `X509CredentialAcquisition::deserialize`. -/
def acquisition : JsonCodec (X509CredentialAcquisition Jwk) where
  encode a := .obj [("config", (configuration crates).encode a.config),
    ("sign_kp", string.encode a.signKp), ("acme_kp", string.encode a.acmeKp),
    ("acme_jwk", crates.jwk.encode a.acmeJwk), ("data", (dpopChallengeCompleted crates).encode a.data)]
  decode json := do
    let fields ← json.fields
    return ⟨← (configuration crates).required "config" fields, ← string.required "sign_kp" fields,
      ← string.required "acme_kp" fields, ← crates.jwk.required "acme_jwk" fields,
      ← (dpopChallengeCompleted crates).required "data" fields⟩

/-! ### Round trips -/

theorem clientIdDef_lawful : clientIdDef.Lawful :=
  ⟨fun _ => rfl, by rintro _ ⟨⟩⟩

theorem duration_lawful : duration.Lawful :=
  ⟨fun _ => rfl, by rintro _ ⟨⟩⟩

theorem acmeOrderStatus_lawful : acmeOrderStatus.Lawful :=
  enumeration_lawful fun a => by cases a <;> rfl

theorem acmeIdentifier_lawful : acmeIdentifier.Lawful :=
  ⟨fun i => by cases i <;> rfl, fun i => by cases i <;> rintro ⟨⟩⟩

theorem acmeAccount_lawful : acmeAccount.Lawful := by
  refine ⟨?_, by rintro _ ⟨⟩⟩
  rintro ⟨status, _ | orders⟩ <;> cases status <;> rfl

theorem acmeChallenge_lawful : acmeChallenge.Lawful := by
  refine ⟨?_, by rintro _ ⟨⟩⟩
  rintro ⟨⟨token, url, target⟩, typ, _ | status⟩
  · cases typ <;> rfl
  · cases typ <;> cases status <;> rfl

variable {crates}

theorem dpopChallengeCompleted_decode_encode (d : DpopChallengeCompleted) :
    (dpopChallengeCompleted crates).decode ((dpopChallengeCompleted crates).encode d) =
      ((acmeOrder crates).decode ((acmeOrder crates).encode d.order)).map fun order =>
        { d with order } := by
  obtain ⟨nonce, account, order, challenge⟩ := d
  cases decoded : (acmeOrder crates).decode ((acmeOrder crates).encode order) <;>
    simp [dpopChallengeCompleted, Json.fields, required, List.lookup_cons, string_lawful.decode_encode,
      acmeAccount_lawful.decode_encode, acmeChallenge_lawful.decode_encode, decoded, Except.map]

variable (lawful : crates.Lawful)

include lawful

theorem configuration_lawful : (configuration crates).Lawful := by
  refine ⟨?_, by rintro _ ⟨⟩⟩
  rintro ⟨⟨signAlg, hashAlg, displayName, clientId, handle, domain⟩, acmeDirectoryUrl, team, period⟩
  cases team <;>
    simp [configuration, Json.fields, required, JsonCodec.optional, List.lookup_cons,
      lawful.jwsAlgorithm.decode_encode, lawful.hashAlgorithm.decode_encode,
      string_lawful.decode_encode, clientIdDef_lawful.decode_encode, duration_lawful.decode_encode,
      string_lawful.nullable_encode, nullable_null]

/-- An order is read again exactly if it has all of its dates. -/
theorem acmeOrder_decode_encode (order : AcmeOrder) :
    (acmeOrder crates).decode ((acmeOrder crates).encode order) =
      if order.expires.isSome then
        if order.notBefore.isSome then
          if order.notAfter.isSome then .ok order else .error "missing field notAfter"
        else .error "missing field notBefore"
      else .error "missing field expires" := by
  obtain ⟨status, finalize, identifiers, authorizations, expires, notBefore, notAfter⟩ := order
  cases expires <;> cases notBefore <;> cases notAfter <;>
    simp [acmeOrder, Json.fields, required, optionalWith, List.lookup_cons, List.lookup_append,
      lookup_skipNone, acmeOrderStatus_lawful.decode_encode, string_lawful.decode_encode,
      acmeIdentifier_lawful.pair.decode_encode, string_lawful.pair.decode_encode,
      lawful.rfc3339.nullable_encode]

theorem acquisition_decode_encode (a : X509CredentialAcquisition Jwk) :
    (acquisition crates).decode ((acquisition crates).encode a) =
      ((acmeOrder crates).decode ((acmeOrder crates).encode a.data.order)).map fun order =>
        { a with data := { a.data with order } } := by
  obtain ⟨config, signKp, acmeKp, acmeJwk, data⟩ := a
  cases decoded : (acmeOrder crates).decode ((acmeOrder crates).encode data.order) <;>
    simp [acquisition, Json.fields, required, List.lookup_cons, string_lawful.decode_encode,
      (configuration_lawful lawful).decode_encode, lawful.jwk.decode_encode,
      dpopChallengeCompleted_decode_encode, decoded, Except.map]

end Crates

/-- **Snapshots can be resumed** exactly when the order has all of its optional dates. -/
theorem snapshot_resumes_iff {Jwk : Type} (crates : SerdeCrates Jwk) (lawful : crates.Lawful)
    (a : X509CredentialAcquisition Jwk) :
    (acquisition crates).decode ((acquisition crates).encode a) = .ok a ↔
      a.data.order.expires.isSome ∧ a.data.order.notBefore.isSome ∧
        a.data.order.notAfter.isSome := by
  rw [acquisition_decode_encode lawful, acmeOrder_decode_encode lawful]
  by_cases expires : a.data.order.expires.isSome <;>
    by_cases notBefore : a.data.order.notBefore.isSome <;>
      by_cases notAfter : a.data.order.notAfter.isSome <;>
        simp [expires, notBefore, notAfter, Except.map]

/-- Codecs under which the algorithms and the key are strings, and a date is an array. -/
def sampleCrates : SerdeCrates String where
  jwsAlgorithm := enumeration (fun
    | .ed25519 => "EdDSA"
    | .p256 => "ES256"
    | .p384 => "ES384"
    | .p521 => "ES512") [.ed25519, .p256, .p384, .p521]
  hashAlgorithm := enumeration (fun
    | .sha256 => "SHA-256"
    | .sha384 => "SHA-384"
    | .sha512 => "SHA-512") [.sha256, .sha384, .sha512]
  jwk := string
  rfc3339 :=
    { encode := fun date => .arr [.num date.unixTimestamp, .num date.nanosecond, .num date.offset]
      decode := fun
        | .arr [.num seconds, .num (.ofNat nanosecond), .num offset] => .ok ⟨seconds, nanosecond, offset⟩
        | _ => .error "invalid date" }

theorem sampleCrates_lawful : sampleCrates.Lawful :=
  ⟨enumeration_lawful fun a => by cases a <;> rfl, enumeration_lawful fun a => by cases a <;> rfl,
    string_lawful, fun _ => rfl, by rintro _ ⟨⟩⟩

/-- An acquisition with an order of the server. -/
def sampleAcquisition (order : AcmeOrder) : X509CredentialAcquisition String where
  config := ⟨⟨.p256, .sha256, "Alice", ⟨"user", 1, "wire.com"⟩, "alice", "wire.com"⟩, "acme", none,
    (3600, 0)⟩
  signKp := "sign"
  acmeKp := "acme"
  acmeJwk := "jwk"
  data := ⟨"nonce", ⟨.valid, some "orders"⟩, order, ⟨⟨"token", "url", "target"⟩, .wireOidc01, none⟩⟩

theorem snapshot_resumes_iff_sample :
    (acquisition sampleCrates).decode ((acquisition sampleCrates).encode (sampleAcquisition
        { pendingOrder (.wireappUser "user") (.wireappDevice "device") with
          expires := some ⟨2, 0, 0⟩, notBefore := some ⟨0, 0, 0⟩, notAfter := some ⟨2, 0, 0⟩ })) =
      .ok (sampleAcquisition
        { pendingOrder (.wireappUser "user") (.wireappDevice "device") with
          expires := some ⟨2, 0, 0⟩, notBefore := some ⟨0, 0, 0⟩, notAfter := some ⟨2, 0, 0⟩ }) :=
  (snapshot_resumes_iff sampleCrates sampleCrates_lawful _).mpr ⟨rfl, rfl, rfl⟩

/-- The server sends an order with three dates that are null.  It is accepted, and the snapshot of the
acquisition cannot be read. -/
theorem snapshot_of_null_dates_unreadable :
    newOrderResponse readAlice false 0 ((acmeOrder sampleCrates).decode (.obj
        [("status", .str "pending"), ("finalize", .str "finalize"),
          ("identifiers", (pair acmeIdentifier).encode (.wireappUser "user", .wireappDevice "device")),
          ("authorizations", .arr [.str "user", .str "device"]), ("expires", .null),
          ("notBefore", .null), ("notAfter", .null)])) =
        .ok (pendingOrder (.wireappUser "user") (.wireappDevice "device")) ∧
      (acquisition sampleCrates).decode ((acquisition sampleCrates).encode
        (sampleAcquisition (pendingOrder (.wireappUser "user") (.wireappDevice "device")))) =
        .error "missing field expires" :=
  ⟨rfl, rfl⟩

end CoreCrypto.Acquisition
