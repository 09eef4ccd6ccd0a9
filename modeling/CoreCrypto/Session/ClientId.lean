import CoreCrypto.Basic
import CoreCrypto.Library.Except
import CoreCrypto.Library.Text

/-!
# Client ids

A client id is the text `user:device@domain`, kept and compared as bytes.  Parsing takes more
spellings of the UUID and of the device id than are ever printed, so one client can have several ids.
The conversions in `e2e-identity/src/legacy/id.rs` accept one colon only, while a domain may have
one.  Base64 is a parameter.
-/

namespace CoreCrypto.Session

open Library.Text Library.Fallible

/-! ### UUIDs -/

structure Uuid where
  bytes : Bytes
  sized : bytes.length = 16
deriving DecidableEq

namespace Uuid

/-- The form `xxxxxxxx-xxxx-xxxx-xxxx-xxxxxxxxxxxx`, in lower case. -/
def hyphenated (u : Uuid) : Bytes :=
  joinGroups 45 [8, 4, 4, 4] (encodeHex u.bytes)

def fromSlice (bytes : Bytes) : Option Uuid :=
  if sized : bytes.length = 16 then some ⟨bytes, sized⟩ else none

def parseSimple (text : Bytes) : Option Uuid :=
  (decodeHex text).bind fromSlice

def parseHyphenated (text : Bytes) : Option Uuid :=
  (splitGroups 45 [8, 4, 4, 4] text).bind parseSimple

/-- The bytes of `urn:uuid:`. -/
def urn : Bytes := [117, 114, 110, 58, 117, 117, 105, 100, 58]

/-- `Uuid::try_parse`: the length tells the form, and wrappers go with the hyphenated one. -/
def tryParse (text : Bytes) : Option Uuid :=
  if text.length = 32 then parseSimple text
  else if text.length = 36 then parseHyphenated text
  else if text.length = 38 ∧ text.head? = some 123 ∧ text.getLast? = some 125 then
    parseHyphenated text.tail.dropLast
  else if text.length = 45 ∧ text.take 9 = urn then parseHyphenated (text.drop 9)
  else none

theorem length_hyphenated (u : Uuid) : u.hyphenated.length = 36 := by
  rw [hyphenated, length_joinGroups, length_encodeHex, u.sized]
  rfl

theorem parseSimple_encodeHex (u : Uuid) : parseSimple (encodeHex u.bytes) = some u := by
  simp [parseSimple, decodeHex_encodeHex, fromSlice, u.sized]

theorem tryParse_hyphenated (u : Uuid) : tryParse u.hyphenated = some u := by
  have long : [8, 4, 4, 4].sum ≤ (encodeHex u.bytes).length := by
    rw [length_encodeHex, u.sized]
    decide
  simp only [tryParse, length_hyphenated]
  rw [if_neg (by decide), if_pos trivial, parseHyphenated, hyphenated,
    splitGroups_joinGroups 45 _ _ long]
  exact parseSimple_encodeHex u

variable {b : UInt8} {u : Uuid}

theorem mem_hyphenated (member : b ∈ u.hyphenated) : hexVal b ≠ none ∨ b = 45 :=
  (mem_joinGroups 45 member).imp_left (hexVal_of_mem_decoded (decodeHex_encodeHex u.bytes))

theorem hyphenated_ascii (member : b ∈ u.hyphenated) : b < 128 := by
  rcases mem_hyphenated member with value | rfl
  · obtain ⟨n, value⟩ := Option.ne_none_iff_exists'.mp value
    exact hexVal_ascii value
  · decide

theorem colon_not_mem_hyphenated (u : Uuid) : 58 ∉ u.hyphenated := by
  intro member
  rcases mem_hyphenated member with value | clash
  · exact value (hexVal_delimiter (.inl rfl))
  · cases clash

variable {text : Bytes}

theorem parseSimple_ascii (accepted : parseSimple text = some u) (member : b ∈ text) : b < 128 := by
  obtain ⟨bytes, decoded, -⟩ := Option.bind_eq_some_iff.mp accepted
  obtain ⟨n, value⟩ := Option.ne_none_iff_exists'.mp (hexVal_of_mem_decoded decoded member)
  exact hexVal_ascii value

theorem parseHyphenated_ascii (accepted : parseHyphenated text = some u)
    (member : b ∈ text) : b < 128 := by
  obtain ⟨content, split, simple⟩ := Option.bind_eq_some_iff.mp accepted
  obtain ⟨joined, -⟩ := joinGroups_of_splitGroups 45 _ _ _ split
  rw [← joined] at member
  rcases mem_joinGroups 45 member with inContent | rfl
  · exact parseSimple_ascii simple inContent
  · decide

theorem tryParse_ascii (accepted : tryParse text = some u) (member : b ∈ text) : b < 128 := by
  unfold tryParse at accepted
  split at accepted
  · exact parseSimple_ascii accepted member
  split at accepted
  · exact parseHyphenated_ascii accepted member
  split at accepted
  next braced =>
    obtain ⟨-, opening, closing⟩ := braced
    cases text with
    | nil => cases opening
    | cons first rest =>
      obtain rfl : first = 123 := by simpa using opening
      rcases List.mem_cons.mp member with rfl | inRest
      · decide
      · cases rest using List.reverseRecOn with
        | nil => cases inRest
        | append_singleton inner last =>
          rw [← List.cons_append, List.getLast?_concat, Option.some.injEq] at closing
          subst closing
          rcases List.mem_append.mp inRest with inInner | isLast
          · exact parseHyphenated_ascii accepted (by simpa using inInner)
          · obtain rfl := List.mem_singleton.mp isLast
            decide
  split at accepted
  next wrapped =>
    have each : ∀ c ∈ urn, c < 128 := by decide +kernel
    rw [← List.take_append_drop 9 text, wrapped.2, List.mem_append] at member
    rcases member with inUrn | inRest
    · exact each b inUrn
    · exact parseHyphenated_ascii accepted inRest
  next => cases accepted

/-- A UUID is printed as it was written iff that was the hyphenated form without capitals. -/
theorem hyphenated_eq_iff (accepted : tryParse text = some u) :
    u.hyphenated = text ↔ text.length = 36 ∧ ∀ b ∈ text, ¬ IsCapital b := by
  constructor
  · rintro rfl
    refine ⟨length_hyphenated u, fun b member => ?_⟩
    rcases mem_joinGroups 45 member with inDigits | rfl
    · exact (encodeHex_eq_iff (decodeHex_encodeHex u.bytes)).mp rfl b inDigits
    · decide
  · rintro ⟨length, lower⟩
    rw [tryParse, if_neg (by omega), if_pos length] at accepted
    obtain ⟨content, split, simple⟩ := Option.bind_eq_some_iff.mp accepted
    obtain ⟨bytes, decoded, sliced⟩ := Option.bind_eq_some_iff.mp simple
    obtain ⟨joined, -⟩ := joinGroups_of_splitGroups 45 _ _ _ split
    obtain rfl : u.bytes = bytes := by
      unfold fromSlice at sliced
      split at sliced
      · cases sliced; rfl
      · cases sliced
    have digits : encodeHex u.bytes = content := by
      refine (encodeHex_eq_iff decoded).mpr fun b member => lower b ?_
      rw [← joined]
      exact subset_joinGroups 45 _ _ member
    rw [hyphenated, digits, joined]

end Uuid

/-! ### Device ids -/

/-- `u64::from_str_radix(text, 16)`. -/
def fromStrRadix16 (text : Bytes) : Option UInt64 :=
  let digits := if text.head? = some 43 ∧ text.length ≠ 1 then text.tail else text
  if digits.isEmpty then none
  else
    match readHex digits with
    | some n => if n < 2 ^ 64 then some (UInt64.ofNat n) else none
    | none => none

/-- No sign, no capital letter and no leading zero. -/
def PlainDevice (text : Bytes) : Prop :=
  text.head? ≠ some 43 ∧ (∀ b ∈ text, ¬ IsCapital b) ∧ (text.head? = some 48 → text = [48])

instance (text : Bytes) : Decidable (PlainDevice text) :=
  inferInstanceAs (Decidable (_ ∧ _ ∧ _))

theorem printHex_ne_nil (n : Nat) : printHex n ≠ [] := by
  unfold printHex
  split
  · simp
  next positive => simpa [Nat.digits_eq_nil_iff_eq_zero] using positive

theorem printHex_unsigned (n : Nat) : (printHex n).head? ≠ some 43 := by
  intro head
  exact hexVal_of_mem_printHex (List.mem_of_mem_head? head) rfl

variable {text : Bytes}

theorem fromStrRadix16_of_unsigned (unsigned : text.head? ≠ some 43) (nonempty : text ≠ []) :
    fromStrRadix16 text =
      match readHex text with
      | some n => if n < 2 ^ 64 then some (UInt64.ofNat n) else none
      | none => none := by
  simp [fromStrRadix16, unsigned, nonempty]

theorem fromStrRadix16_printHex (d : UInt64) : fromStrRadix16 (printHex d.toNat) = some d := by
  rw [fromStrRadix16_of_unsigned (printHex_unsigned _) (printHex_ne_nil _), readHex_printHex]
  simp only [if_pos d.toNat_lt, UInt64.ofNat_toNat]

theorem printHex_eq_iff_plain {d : UInt64}
    (accepted : fromStrRadix16 text = some d) : printHex d.toNat = text ↔ PlainDevice text := by
  constructor
  · rintro rfl
    exact ⟨printHex_unsigned _, fun b member => printHex_not_capital member, printHex_leading⟩
  · rintro ⟨unsigned, lower, leading⟩
    have nonempty : text ≠ [] := by
      rintro rfl
      cases accepted
    rw [fromStrRadix16_of_unsigned unsigned nonempty] at accepted
    cases read : readHex text with
    | none =>
      rw [read] at accepted
      cases accepted
    | some n =>
      rw [read] at accepted
      simp only at accepted
      split at accepted
      next small =>
        obtain rfl := Option.some.inj accepted
        rw [UInt64.toNat_ofNat', Nat.mod_eq_of_lt small]
        exact (printHex_eq_iff nonempty read).mpr ⟨lower, leading⟩
      next => cases accepted

theorem fromStrRadix16_mem {d : UInt64} (accepted : fromStrRadix16 text = some d)
    {b : UInt8} (member : b ∈ text) : hexVal b ≠ none ∨ b = 43 := by
  have each : ∀ digits : Bytes, (if digits.isEmpty then none
      else match readHex digits with
        | some n => if n < 2 ^ 64 then some (UInt64.ofNat n) else none
        | none => none) = some d → ∀ c ∈ digits, hexVal c ≠ none := by
    intro digits read c inDigits
    split at read
    · cases read
    · cases found : readHex digits with
      | none =>
        rw [found] at read
        cases read
      | some n =>
        obtain ⟨values, valued, -⟩ := Option.map_eq_some_iff.mp found
        exact hexVal_of_mem valued inDigits
  unfold fromStrRadix16 at accepted
  by_cases signed : text.head? = some 43 ∧ text.length ≠ 1
  · rw [if_pos signed] at accepted
    cases text with
    | nil => cases member
    | cons sign digits =>
      rcases List.mem_cons.mp member with rfl | inDigits
      · exact .inr (by simpa using signed.1)
      · exact .inl (each digits accepted b inDigits)
  · rw [if_neg signed] at accepted
    exact .inl (each text accepted b member)

/-! ### Client ids -/

/-- `ClientId(Vec<u8>)`. -/
structure ClientId where
  bytes : Bytes
deriving DecidableEq, Repr

structure DeserializedClientId where
  userId : Uuid
  deviceId : UInt64
  domain : Bytes
deriving DecidableEq

/-- `mls::session::Error::InvalidQualifiedClientId` and `legacy::Error::InvalidClientId`. -/
inductive Error where
  | invalidQualifiedClientId
  | invalidClientId
deriving DecidableEq, Repr

namespace ClientId

def new (userId : Uuid) (deviceId : UInt64) (domain : Bytes) : ClientId :=
  ⟨userId.hyphenated ++ 58 :: (printHex deviceId.toNat ++ 64 :: domain)⟩

def parseUserId (userId : Bytes) : Except Error Uuid :=
  (Uuid.tryParse userId).elim (.error .invalidQualifiedClientId) .ok

def parseDeviceId (deviceId : Bytes) : Except Error UInt64 :=
  (fromStrRadix16 deviceId).elim (.error .invalidQualifiedClientId) .ok

def tryParseBytes (bytes : Bytes) : Except Error DeserializedClientId := do
  unless utf8Valid bytes do
    throw .invalidQualifiedClientId
  let some (userId, rest) := splitOnce 58 bytes | throw .invalidQualifiedClientId
  let userId ← parseUserId userId
  let some (deviceId, domain) := splitOnce 64 rest | throw .invalidQualifiedClientId
  let deviceId ← parseDeviceId deviceId
  return ⟨userId, deviceId, domain⟩

def newFromBytes (bytes : Bytes) : Except Error ClientId := do
  let _ ← tryParseBytes bytes
  return ⟨bytes⟩

/-- `deserialize`; `none` is a panic of its `expect`. -/
def deserialize (id : ClientId) : Option DeserializedClientId :=
  (tryParseBytes id.bytes).toOption

theorem parseUserId_eq_ok {text : Bytes} {u : Uuid} :
    parseUserId text = .ok u ↔ Uuid.tryParse text = some u := by
  unfold parseUserId
  cases Uuid.tryParse text <;> simp

theorem parseDeviceId_eq_ok {text : Bytes} {d : UInt64} :
    parseDeviceId text = .ok d ↔ fromStrRadix16 text = some d := by
  unfold parseDeviceId
  cases fromStrRadix16 text <;> simp

theorem tryParseBytes_eq_ok_iff {bytes : Bytes} {parsed : DeserializedClientId} :
    tryParseBytes bytes = .ok parsed ↔
      utf8Valid bytes ∧ ∃ user device,
        bytes = user ++ 58 :: (device ++ 64 :: parsed.domain) ∧ 58 ∉ user ∧ 64 ∉ device ∧
          Uuid.tryParse user = some parsed.userId ∧
          fromStrRadix16 device = some parsed.deviceId := by
  constructor
  · intro ok
    unfold tryParseBytes at ok
    cases valid : utf8Valid bytes with
    | false =>
      rw [valid] at ok
      cases ok
    | true =>
      rw [valid] at ok
      cases first : splitOnce 58 bytes with
      | none =>
        rw [first] at ok
        cases ok
      | some parts =>
        obtain ⟨user, rest⟩ := parts
        rw [first] at ok
        obtain ⟨u, isUser, ok⟩ := bind_eq_ok ok
        cases second : splitOnce 64 rest with
        | none =>
          rw [second] at ok
          cases ok
        | some parts =>
          obtain ⟨device, domain⟩ := parts
          rw [second] at ok
          obtain ⟨d, isDevice, ok⟩ := bind_eq_ok ok
          cases ok
          obtain ⟨rfl, noColon⟩ := (splitOnce_eq_some_iff 58).mp first
          obtain ⟨rfl, noAt⟩ := (splitOnce_eq_some_iff 64).mp second
          exact ⟨rfl, user, device, rfl, noColon, noAt, parseUserId_eq_ok.mp isUser,
            parseDeviceId_eq_ok.mp isDevice⟩
  · rintro ⟨valid, user, device, whole, noColon, noAt, isUser, isDevice⟩
    have first := (splitOnce_eq_some_iff 58).mpr ⟨whole, noColon⟩
    have second : splitOnce 64 (device ++ 64 :: parsed.domain) = some (device, parsed.domain) :=
      (splitOnce_eq_some_iff 64).mpr ⟨rfl, noAt⟩
    simp only [tryParseBytes, valid, first, second, parseUserId_eq_ok.mpr isUser,
      parseDeviceId_eq_ok.mpr isDevice]
    rfl

theorem tryParseBytes_eq_error {bytes : Bytes} {e : Error}
    (failed : tryParseBytes bytes = .error e) : e = .invalidQualifiedClientId := by
  unfold tryParseBytes at failed
  cases valid : utf8Valid bytes with
  | false =>
    rw [valid] at failed
    cases failed
    rfl
  | true =>
    rw [valid] at failed
    cases first : splitOnce 58 bytes with
    | none =>
      rw [first] at failed
      cases failed
      rfl
    | some parts =>
      rw [first] at failed
      cases isUser : Uuid.tryParse parts.1 with
      | none =>
        simp only [parseUserId, isUser] at failed
        cases failed
        rfl
      | some u =>
        simp only [parseUserId, isUser] at failed
        cases second : splitOnce 64 parts.2 with
        | none =>
          simp only [second] at failed
          cases failed
          rfl
        | some rest =>
          simp only [second] at failed
          cases isDevice : fromStrRadix16 rest.1 with
          | none =>
            simp only [parseDeviceId, isDevice] at failed
            cases failed
            rfl
          | some d =>
            simp only [parseDeviceId, isDevice] at failed
            cases failed

theorem tryParseBytes_new (userId : Uuid) (deviceId : UInt64) {domain : Bytes}
    (isStr : utf8Valid domain) :
    tryParseBytes (new userId deviceId domain).bytes = .ok ⟨userId, deviceId, domain⟩ := by
  refine tryParseBytes_eq_ok_iff.mpr ⟨?_, userId.hyphenated, printHex deviceId.toNat, rfl,
    userId.colon_not_mem_hyphenated, ?_, userId.tryParse_hyphenated,
    fromStrRadix16_printHex deviceId⟩
  · -- all that stands before the domain is ASCII
    have ascii : ∀ b ∈ userId.hyphenated ++ 58 :: (printHex deviceId.toNat ++ [64]), b < 128 := by
      intro b member
      simp only [List.mem_append, List.mem_cons, List.not_mem_nil, or_false] at member
      rcases member with inUser | rfl | inDevice | rfl
      · exact Uuid.hyphenated_ascii inUser
      · decide
      · obtain ⟨n, value⟩ := Option.ne_none_iff_exists'.mp (hexVal_of_mem_printHex inDevice)
        exact hexVal_ascii value
      · decide
    have whole : (new userId deviceId domain).bytes =
        (userId.hyphenated ++ 58 :: (printHex deviceId.toNat ++ [64])) ++ domain := by
      simp [new]
    rw [whole, utf8Valid_ascii_append ascii, isStr]
  · exact fun member => hexVal_of_mem_printHex member (hexVal_delimiter (.inr (.inl rfl)))

end ClientId

/-! ### User ids in base64 -/

/-- `BASE64_URL_SAFE_NO_PAD`: what is encoded is decoded, and the alphabet has no colon. -/
structure Base64 where
  encode : Bytes → Bytes
  decode : Bytes → Option Bytes
  decode_encode : ∀ bytes, decode (encode bytes) = some bytes
  noColon : ∀ bytes, 58 ∉ encode bytes

variable (base64 : Base64) {user rest bytes : Bytes}

/-- `TryFrom<&[u8]> for QualifiedE2eiClientId`. -/
def QualifiedE2eiClientId.tryFrom (bytes : Bytes) : Except Error Bytes :=
  match split 58 bytes with
  | [] => throw .invalidClientId
  | userId :: parts => do
    unless utf8Valid userId do
      throw .invalidClientId
    let some userId := Uuid.tryParse userId | throw .invalidClientId
    match parts with
    | [rest] => return base64.encode userId.bytes ++ 58 :: rest
    | _ => throw .invalidClientId

/-- `TryFrom<&[u8]> for WireQualifiedClientId`. -/
def WireQualifiedClientId.tryFrom (bytes : Bytes) : Except Error Bytes :=
  match split 58 bytes with
  | [] => throw .invalidClientId
  | userId :: parts => do
    let some userId := base64.decode userId | throw .invalidClientId
    let some userId := Uuid.fromSlice userId | throw .invalidClientId
    match parts with
    | [rest] => return userId.hyphenated ++ 58 :: rest
    | _ => throw .invalidClientId

/-- The end of `get_client_id`: the client id for the text in a certificate. -/
def clientIdOfCertificate (clientId : Bytes) : Except Error ClientId := do
  let bytes ← WireQualifiedClientId.tryFrom base64 clientId
  ClientId.newFromBytes bytes

/-- To the form with the user id in base64, and back as for a certificate. -/
def throughCertificate (bytes : Bytes) : Except Error ClientId := do
  let qualified ← QualifiedE2eiClientId.tryFrom base64 bytes
  clientIdOfCertificate base64 qualified

theorem Uuid.fromSlice_bytes (u : Uuid) : Uuid.fromSlice u.bytes = some u := by
  simp [Uuid.fromSlice, u.sized]

/-- A text with one colon comes back with its user id in the hyphenated form. -/
theorem throughCertificate_of_noColon {u : Uuid} (noColon : 58 ∉ user)
    (single : 58 ∉ rest) (isUser : Uuid.tryParse user = some u) :
    throughCertificate base64 (user ++ 58 :: rest) =
      ClientId.newFromBytes (u.hyphenated ++ 58 :: rest) := by
  have parts : split 58 (user ++ 58 :: rest) = [user, rest] :=
    (split_eq_pair_iff 58).mpr ⟨rfl, noColon, single⟩
  have encoded : split 58 (base64.encode u.bytes ++ 58 :: rest) = [base64.encode u.bytes, rest] :=
    (split_eq_pair_iff 58).mpr ⟨rfl, base64.noColon _, single⟩
  have text : utf8Valid user = true := by
    have small : ∀ b ∈ user, b < 128 := fun b member => Uuid.tryParse_ascii isUser member
    simpa [utf8Valid] using utf8Valid_ascii_append small []
  simp only [throughCertificate, QualifiedE2eiClientId.tryFrom, parts, text, isUser]
  change clientIdOfCertificate base64 (base64.encode u.bytes ++ 58 :: rest) = _
  simp only [clientIdOfCertificate, WireQualifiedClientId.tryFrom, encoded, base64.decode_encode,
    Uuid.fromSlice_bytes]
  rfl

theorem QualifiedE2eiClientId.split_of_tryFrom {qualified : Bytes}
    (accepted : QualifiedE2eiClientId.tryFrom base64 bytes = .ok qualified) :
    ∃ user rest, split 58 bytes = [user, rest] := by
  unfold QualifiedE2eiClientId.tryFrom at accepted
  split at accepted
  next => cases accepted
  next user parts parted =>
    cases text : utf8Valid user with
    | false =>
      rw [text] at accepted
      cases accepted
    | true =>
      rw [text] at accepted
      cases isUser : Uuid.tryParse user with
      | none =>
        rw [isUser] at accepted
        cases accepted
      | some u =>
        rw [isUser] at accepted
        match parts with
        | [] => cases accepted
        | [rest] => exact ⟨user, rest, parted⟩
        | _ :: _ :: _ => cases accepted

/-- A text with more colons does not get into the other form. -/
theorem throughCertificate_of_colons (noColon : 58 ∉ user) (more : 58 ∈ rest) (id : ClientId) :
    throughCertificate base64 (user ++ 58 :: rest) ≠ .ok id := by
  intro ok
  obtain ⟨qualified, accepted, -⟩ := bind_eq_ok ok
  obtain ⟨first, second, parts⟩ := QualifiedE2eiClientId.split_of_tryFrom base64 accepted
  obtain ⟨whole, absent, single⟩ := (split_eq_pair_iff 58).mp parts
  obtain ⟨-, rfl⟩ := (delimited_inj 58 noColon absent).mp whole
  exact single more

/-! ### Plain spellings -/

/-- The spelling of an id that is printed for its client: the user id hyphenated and without
capitals, the device id without sign, capitals and leading zeros; and no colon in the domain. -/
def PlainSpelling (bytes : Bytes) : Prop :=
  ∃ user device domain, bytes = user ++ 58 :: (device ++ 64 :: domain) ∧ 58 ∉ user ∧
    64 ∉ device ∧ (user.length = 36 ∧ ∀ b ∈ user, ¬ IsCapital b) ∧ PlainDevice device ∧
    58 ∉ domain

/-- The id is the one that is made of its client, and comes back from a certificate. -/
def Canonical (bytes : Bytes) (client : DeserializedClientId) : Prop :=
  bytes = (ClientId.new client.userId client.deviceId client.domain).bytes ∧
    throughCertificate base64 bytes = .ok ⟨bytes⟩

theorem canonical_iff_plainSpelling {client : DeserializedClientId}
    (accepted : ClientId.tryParseBytes bytes = .ok client) :
    Canonical base64 bytes client ↔ PlainSpelling bytes := by
  obtain ⟨text, user, device, rfl, noColon, noAt, isUser, isDevice⟩ :=
    ClientId.tryParseBytes_eq_ok_iff.mp accepted
  have deviceColon : 58 ∉ device := by
    intro member
    rcases fromStrRadix16_mem isDevice member with value | clash
    · exact value (hexVal_delimiter (.inl rfl))
    · cases clash
  have printed : user ++ 58 :: (device ++ 64 :: client.domain) =
      (ClientId.new client.userId client.deviceId client.domain).bytes ↔
      client.userId.hyphenated = user ∧ printHex client.deviceId.toNat = device := by
    rw [eq_comm, ClientId.new, delimited_inj 58 client.userId.colon_not_mem_hyphenated noColon,
      delimited_inj 64 (fun member => hexVal_of_mem_printHex member
        (hexVal_delimiter (.inr (.inl rfl)))) noAt]
    simp
  have plain : PlainSpelling (user ++ 58 :: (device ++ 64 :: client.domain)) ↔
      client.userId.hyphenated = user ∧ printHex client.deviceId.toNat = device ∧
        58 ∉ client.domain := by
    rw [Uuid.hyphenated_eq_iff isUser, printHex_eq_iff_plain isDevice]
    constructor
    · rintro ⟨user', device', domain', whole, noColon', noAt', plainUser, plainDevice, free⟩
      obtain ⟨rfl, rest⟩ := (delimited_inj 58 noColon noColon').mp whole
      obtain ⟨rfl, rfl⟩ := (delimited_inj 64 noAt noAt').mp rest
      exact ⟨plainUser, plainDevice, free⟩
    · rintro ⟨plainUser, plainDevice, free⟩
      exact ⟨user, device, client.domain, rfl, noColon, noAt, plainUser, plainDevice, free⟩
  rw [Canonical, printed, plain, and_assoc]
  refine and_congr_right fun hyphenated => and_congr_right fun _ => ?_
  by_cases free : 58 ∈ client.domain
  · have more : 58 ∈ device ++ 64 :: client.domain := by simp [free]
    simp only [free, not_true, iff_false]
    exact throughCertificate_of_colons base64 noColon more _
  · have single : 58 ∉ device ++ 64 :: client.domain := by simp [free, deviceColon]
    rw [throughCertificate_of_noColon base64 noColon single isUser, hyphenated,
      ClientId.newFromBytes, accepted]
    simp [free]

/-- **Client ids.** An id that is made of a client is read as this client.  An accepted id is the
one that is made of its client and comes back from a certificate iff it is spelled plainly; among
the ids spelled plainly, those of one client are equal. -/
theorem accepted_canonical_iff_plain :
    (∀ userId deviceId domain, utf8Valid domain →
      (ClientId.new userId deviceId domain).deserialize = some ⟨userId, deviceId, domain⟩) ∧
    (∀ bytes client, ClientId.tryParseBytes bytes = .ok client →
      (Canonical base64 bytes client ↔ PlainSpelling bytes)) ∧
    (∀ bytes other client otherClient, ClientId.tryParseBytes bytes = .ok client →
      ClientId.tryParseBytes other = .ok otherClient → PlainSpelling bytes →
      PlainSpelling other → (bytes = other ↔ client = otherClient)) := by
  refine ⟨fun userId deviceId domain isStr => ?_, fun bytes client accepted =>
    canonical_iff_plainSpelling base64 accepted, ?_⟩
  · rw [ClientId.deserialize, ClientId.tryParseBytes_new userId deviceId isStr]
    rfl
  · intro bytes other client otherClient accepted otherAccepted plain otherPlain
    constructor
    · rintro rfl
      exact Except.ok.inj (accepted.symm.trans otherAccepted)
    · rintro rfl
      have made := ((canonical_iff_plainSpelling base64 accepted).mpr plain).1
      have otherMade := ((canonical_iff_plainSpelling base64 otherAccepted).mpr otherPlain).1
      rw [made, otherMade]

/-- An encoding without colons that is easily computed. -/
def sampleBase64 : Base64 where
  encode := encodeHex
  decode := decodeHex
  decode_encode := decodeHex_encodeHex
  noColon bytes colon :=
    hexVal_of_mem_decoded (decodeHex_encodeHex bytes) colon (hexVal_delimiter (.inl rfl))

/-- The UUID that is zero up to the last digit, which is written so. -/
def sampleUser (digit : UInt8) : Bytes :=
  joinGroups 45 [8, 4, 4, 4] (List.replicate 31 48 ++ [digit])

/-- Device 1 of this user. -/
def sampleId (digit : UInt8) (domain : Bytes) : Bytes :=
  sampleUser digit ++ 58 :: 49 :: 64 :: domain

theorem small_letter_is_canonical :
    ∃ client, ClientId.tryParseBytes (sampleId 97 [119]) = .ok client ∧
      Canonical sampleBase64 (sampleId 97 [119]) client := by
  cases accepted : ClientId.tryParseBytes (sampleId 97 [119]) with
  | error err =>
    have isOk : (ClientId.tryParseBytes (sampleId 97 [119])).toOption.isSome := by decide +kernel
    rw [accepted] at isOk
    cases isOk
  | ok client =>
    refine ⟨client, rfl, ((accepted_canonical_iff_plain sampleBase64).2.1 _ _ accepted).mpr ?_⟩
    have plain : (sampleUser 97).length = 36 ∧ ∀ b ∈ sampleUser 97, ¬ IsCapital b := by
      decide +kernel
    exact ⟨sampleUser 97, [49], [119], rfl, by decide +kernel, by decide +kernel, plain,
      by decide +kernel, by decide +kernel⟩

/-- With a last digit `a` or `A`, the two ids are accepted as those of one client; and an id whose
domain has a colon is accepted, but does not get into the form with base64. -/
theorem capital_is_second_id :
    sampleId 97 [119] ≠ sampleId 65 [119] ∧
      (ClientId.tryParseBytes (sampleId 97 [119])).toOption.isSome ∧
      ClientId.tryParseBytes (sampleId 97 [119]) = ClientId.tryParseBytes (sampleId 65 [119]) ∧
      (ClientId.tryParseBytes (sampleId 97 [119, 58, 49])).toOption.isSome ∧
      ∀ base64 id, throughCertificate base64 (sampleId 97 [119, 58, 49]) ≠ .ok id :=
  ⟨by decide, by decide +kernel, by decide +kernel, by decide +kernel, fun base64 id =>
    throughCertificate_of_colons base64 (by decide) (by decide) id⟩

end CoreCrypto.Session
