import CoreCrypto.Library.Except

/-!
# ACME orders

A Wire order has two identifiers, one for the user and one for the device.  `verify` looks at the
contents of the two, and the functions that use an order look for the one of the device.
-/

namespace CoreCrypto.Acquisition

open Library.Fallible

inductive AcmeIdentifier where
  | wireappUser (value : String)
  | wireappDevice (value : String)
  deriving DecidableEq, Repr

structure WireIdentifier where
  clientId : Option String
  handle : String
  displayName : String
  domain : String
  deriving DecidableEq, Repr

structure CanonicalIdentifier where
  clientId : String
  handle : String
  displayName : String
  domain : String
  deriving DecidableEq, Repr

inductive AcmeOrderStatus where
  | pending | ready | processing | valid | invalid
  deriving DecidableEq, Repr

inductive AcmeOrderError where
  | invalid | notYetValid | expired | wrongIdentifiers
  deriving DecidableEq, Repr

inductive RustyAcmeError where
  | jsonError (message : String)
  | clientImplementationError (reason : String)
  | implementationError
  | orderError (error : AcmeOrderError)
  | other (message : String)
  deriving DecidableEq, Repr

/-- A date and time, of which the functions here read the timestamp. -/
structure OffsetDateTime where
  unixTimestamp : Int
  nanosecond : Nat
  offset : Int
  deriving DecidableEq, Repr

structure AcmeOrder where
  status : AcmeOrderStatus
  finalize : String
  identifiers : AcmeIdentifier × AcmeIdentifier
  authorizations : String × String
  expires : Option OffsetDateTime
  notBefore : Option OffsetDateTime
  notAfter : Option OffsetDateTime
  deriving DecidableEq, Repr

section Orders

-- `serde_json::from_str` for the value of an identifier
variable (fromStr : String → Except String WireIdentifier)

namespace AcmeIdentifier

def toWireIdentifier : AcmeIdentifier → Except RustyAcmeError WireIdentifier
  | wireappDevice id => (fromStr id).mapError .jsonError
  | wireappUser id => (fromStr id).mapError .jsonError

def isDevice : AcmeIdentifier → Bool
  | wireappDevice _ => true
  | wireappUser _ => false

end AcmeIdentifier

/-- `CanonicalIdentifier::try_from`. -/
def CanonicalIdentifier.tryFrom (i : WireIdentifier) : Except RustyAcmeError CanonicalIdentifier :=
  match i.clientId with
  | none => .error .implementationError
  | some clientId => .ok ⟨clientId, i.handle, i.displayName, i.domain⟩

namespace AcmeOrder

/-- The set of the identifiers in the order in which it yields them. -/
def distinctIdentifiers (secondFirst : Bool) (order : AcmeOrder) : List AcmeIdentifier :=
  if order.identifiers.1 = order.identifiers.2 then [order.identifiers.1]
  else if secondFirst then [order.identifiers.2, order.identifiers.1]
  else [order.identifiers.1, order.identifiers.2]

def verify (secondFirst : Bool) (now : Int) (order : AcmeOrder) : Except RustyAcmeError Unit := do
  match ← (order.distinctIdentifiers secondFirst).mapM (·.toWireIdentifier fromStr) with
  | [a, b] =>
    if ¬ (a.handle = b.handle ∧ a.displayName = b.displayName ∧ a.domain = b.domain) then
      throw (.orderError .wrongIdentifiers)
    if order.expires.any (·.unixTimestamp < now) then
      throw (.orderError .expired)
    if order.notAfter.any (·.unixTimestamp < now) then
      throw (.orderError .expired)
    if order.notBefore.any (now < ·.unixTimestamp) then
      throw (.orderError .notYetValid)
  | _ => throw (.orderError .wrongIdentifiers)

def tryGetCoalesceIdentifier (order : AcmeOrder) : Except RustyAcmeError CanonicalIdentifier := do
  match [order.identifiers.1, order.identifiers.2].find? (·.isDevice) with
  | none => throw (.orderError .wrongIdentifiers)
  | some i => CanonicalIdentifier.tryFrom (← i.toWireIdentifier fromStr)

end AcmeOrder

/-- The check of the status in `new_order_response`. -/
def newOrderStatus : AcmeOrderStatus → Except RustyAcmeError Unit
  | .pending => .ok ()
  | .processing | .valid | .ready => .error (.clientImplementationError
      ("an order is not supposed to be 'processing | valid | ready' at this point. " ++
        "You should only be using this method after account creation, not after finalize"))
  | .invalid => .error (.orderError .invalid)

/-- The check of the status in `check_order_response`. -/
def checkOrderStatus : AcmeOrderStatus → Except RustyAcmeError Unit
  | .ready => .ok ()
  | .pending => .error (.clientImplementationError
      ("an order is not supposed to be 'pending' at this point. " ++
        "It means you have forgotten to create authorizations"))
  | .processing => .error (.clientImplementationError
      ("an order is not supposed to be 'processing' at this point. You should not have called " ++
        "finalize yet ; in fact, you should only call finalize once this order turns 'ready'"))
  | .valid => .error (.clientImplementationError
      ("an order is not supposed to be 'valid' at this point. It means a certificate has already " ++
        "been delivered which defeats the purpose of using this method"))
  | .invalid => .error (.orderError .invalid)

/-- What both functions make of the order that a response deserializes to. -/
def orderResponse (status : AcmeOrderStatus → Except RustyAcmeError Unit) (secondFirst : Bool)
    (now : Int) (response : Except String AcmeOrder) : Except RustyAcmeError AcmeOrder := do
  let order ← response.mapError .jsonError
  status order.status
  order.verify fromStr secondFirst now
  return order

def newOrderResponse := orderResponse fromStr newOrderStatus

def checkOrderResponse := orderResponse fromStr checkOrderStatus

/-- `finalize_req`: the account URL, and the signed request for a canonical identifier. -/
def finalizeReq {Jws : Type} (acctUrl : Except RustyAcmeError String)
    (request : String → CanonicalIdentifier → Except RustyAcmeError Jws) (secondFirst : Bool)
    (now : Int) (order : AcmeOrder) : Except RustyAcmeError Jws := do
  let acctUrl ← acctUrl
  order.verify fromStr secondFirst now
  request acctUrl (← order.tryGetCoalesceIdentifier fromStr)

/-! ### The shape of an order -/

/-- The identifiers are one user without a client id and one device with one, for the same handle,
display name and domain. -/
def WireShape (order : AcmeOrder) : Prop :=
  ∃ user device u d clientId,
    (order.identifiers = (.wireappUser user, .wireappDevice device) ∨
      order.identifiers = (.wireappDevice device, .wireappUser user)) ∧
    fromStr user = .ok u ∧ fromStr device = .ok d ∧ u.clientId = none ∧ d.clientId = some clientId ∧
    u.handle = d.handle ∧ u.displayName = d.displayName ∧ u.domain = d.domain

/-- The canonical identifier is found in either order of the identifiers, and `finalize_req` goes on
with it. -/
def Coalesces (order : AcmeOrder) : Prop :=
  ∃ canonical, order.tryGetCoalesceIdentifier fromStr = .ok canonical ∧
    { order with identifiers := order.identifiers.swap }.tryGetCoalesceIdentifier fromStr =
      .ok canonical ∧
    ∀ (Jws : Type) acctUrl (request : String → CanonicalIdentifier → Except RustyAcmeError Jws)
      secondFirst now, finalizeReq fromStr acctUrl request secondFirst now order = do
        let acctUrl ← acctUrl
        order.verify fromStr secondFirst now
        request acctUrl canonical

/-- The identifiers are of different kinds, and the one of the device alone has a client id. -/
def KindsTold (order : AcmeOrder) : Prop :=
  order.identifiers.1.isDevice ≠ order.identifiers.2.isDevice ∧
    ∀ i ∈ [order.identifiers.1, order.identifiers.2], ∀ wire,
      i.toWireIdentifier fromStr = .ok wire → wire.clientId.isSome = i.isDevice

variable {fromStr} {secondFirst : Bool} {now : Int} {order : AcmeOrder}

theorem verify_of_orderResponse {status : AcmeOrderStatus → Except RustyAcmeError Unit}
    {response : Except String AcmeOrder}
    (accepted : orderResponse fromStr status secondFirst now response = .ok order) :
    order.verify fromStr secondFirst now = .ok () := by
  obtain ⟨_, -, rest⟩ := bind_eq_ok accepted
  obtain ⟨_, -, rest⟩ := bind_eq_ok rest
  obtain ⟨_, verified, ⟨⟩⟩ := bind_eq_ok rest
  exact verified

/-- What `verify` checks of the identifiers: both can be read, and they agree. -/
theorem verify_eq_ok (verified : order.verify fromStr secondFirst now = .ok ()) :
    ∃ a b, order.identifiers.1.toWireIdentifier fromStr = .ok a ∧
      order.identifiers.2.toWireIdentifier fromStr = .ok b ∧
      a.handle = b.handle ∧ a.displayName = b.displayName ∧ a.domain = b.domain := by
  obtain ⟨wires, read, rest⟩ := bind_eq_ok verified
  have related := mapM_eq_ok_iff.mp read
  split at rest
  next a b =>
    by_cases agree : a.handle = b.handle ∧ a.displayName = b.displayName ∧ a.domain = b.domain
    · unfold AcmeOrder.distinctIdentifiers at related
      split at related
      · simp at related
      split at related
      · simp only [List.forall₂_cons, List.forall₂_nil_left_iff, and_true] at related
        exact ⟨b, a, related.2, related.1, agree.1.symm, agree.2.1.symm, agree.2.2.symm⟩
      · simp only [List.forall₂_cons, List.forall₂_nil_left_iff, and_true] at related
        exact ⟨a, b, related.1, related.2, agree⟩
    · simp only [agree, not_false_eq_true, if_true] at rest
      cases rest
  next => cases rest

/-- The one device of an order gives the canonical identifier. -/
theorem tryGetCoalesceIdentifier_eq {user device clientId : String} {d : WireIdentifier}
    (kinds : order.identifiers = (.wireappUser user, .wireappDevice device) ∨
      order.identifiers = (.wireappDevice device, .wireappUser user))
    (read : fromStr device = .ok d) (has : d.clientId = some clientId) :
    order.tryGetCoalesceIdentifier fromStr = .ok ⟨clientId, d.handle, d.displayName, d.domain⟩ := by
  have found : [order.identifiers.1, order.identifiers.2].find? (·.isDevice) =
      some (.wireappDevice device) := by
    rcases kinds with same | same <;> rw [same] <;> rfl
  simp [AcmeOrder.tryGetCoalesceIdentifier, found, AcmeIdentifier.toWireIdentifier, read,
    Except.mapError, CanonicalIdentifier.tryFrom, has]

theorem WireShape.coalesces (shape : WireShape fromStr order) : Coalesces fromStr order := by
  obtain ⟨user, device, u, d, clientId, kinds, -, read, -, has, -⟩ := shape
  have found := tryGetCoalesceIdentifier_eq kinds read has
  have swapped : order.identifiers.swap = (.wireappUser user, .wireappDevice device) ∨
      order.identifiers.swap = (.wireappDevice device, .wireappUser user) := by
    rcases kinds with same | same <;> simp [same]
  refine ⟨_, found, tryGetCoalesceIdentifier_eq swapped read has, fun Jws acctUrl request _ _ => ?_⟩
  rw [finalizeReq, found]
  rfl

end Orders

/-- **Verified orders have the Wire shape**, and the canonical identifier can be taken from them, if
and only if the identifiers are of different kinds and the one of the device alone has a client id. -/
theorem wireShape_iff_kindsTold (fromStr : String → Except String WireIdentifier)
    (secondFirst : Bool) (now : Int) (response : Except String AcmeOrder) (order : AcmeOrder)
    (accepted : newOrderResponse fromStr secondFirst now response = .ok order ∨
      checkOrderResponse fromStr secondFirst now response = .ok order) :
    (WireShape fromStr order ∧ Coalesces fromStr order) ↔ KindsTold fromStr order := by
  rw [and_iff_left_of_imp WireShape.coalesces]
  obtain ⟨a, b, readA, readB, agree⟩ :=
    verify_eq_ok (accepted.elim verify_of_orderResponse verify_of_orderResponse)
  constructor
  · rintro ⟨user, device, u, d, clientId, kinds, readUser, readDevice, without, has, -⟩
    rcases kinds with same | same
    all_goals
      simp only [KindsTold, same, AcmeIdentifier.isDevice, AcmeIdentifier.toWireIdentifier, readUser,
        readDevice, List.forall_mem_cons]
      simp [Except.mapError, without, has]
  · rintro ⟨different, told⟩
    have toldA := told _ (by simp) a readA
    have toldB := told _ (by simp) b readB
    obtain ⟨sameHandle, sameName, sameDomain⟩ := agree
    rcases kinds : order.identifiers with ⟨user | device, user' | device'⟩
    all_goals
      simp only [kinds, AcmeIdentifier.toWireIdentifier, mapError_eq_ok, AcmeIdentifier.isDevice]
        at readA readB toldA toldB different
    · exact absurd rfl different
    · obtain ⟨clientId, has⟩ := Option.isSome_iff_exists.mp toldB
      exact ⟨user, device', a, b, clientId, .inl kinds, readA, readB, by simpa using toldA, has,
        sameHandle, sameName, sameDomain⟩
    · obtain ⟨clientId, has⟩ := Option.isSome_iff_exists.mp toldA
      exact ⟨user', device, b, a, clientId, .inr kinds, readB, readA, by simpa using toldB, has,
        sameHandle.symm, sameName.symm, sameDomain.symm⟩
    · exact absurd rfl different

/-- Every value is of one user, and one of them has a client id. -/
def readAlice (value : String) : Except String WireIdentifier :=
  .ok ⟨if value = "device" then some "client" else none, "alice", "Alice", "wire.com"⟩

def pendingOrder (first second : AcmeIdentifier) : AcmeOrder :=
  ⟨.pending, "finalize", (first, second), ("user", "device"), none, none, none⟩

theorem wireShape_iff_kindsTold_sample :
    WireShape readAlice (pendingOrder (.wireappUser "user") (.wireappDevice "device")) ∧
      Coalesces readAlice (pendingOrder (.wireappUser "user") (.wireappDevice "device")) := by
  refine (wireShape_iff_kindsTold readAlice false 0
    (.ok (pendingOrder (.wireappUser "user") (.wireappDevice "device"))) _ (.inl rfl)).mpr
    ⟨by decide, ?_⟩
  simp only [pendingOrder, List.forall_mem_cons]
  simp [AcmeIdentifier.toWireIdentifier, AcmeIdentifier.isDevice, readAlice, Except.mapError]

/-- Two users with one content in different texts are accepted, and no identifier is found. -/
theorem order_of_two_users_accepted :
    newOrderResponse readAlice false 0
        (.ok (pendingOrder (.wireappUser "a") (.wireappUser "b"))) =
      .ok (pendingOrder (.wireappUser "a") (.wireappUser "b")) ∧
    (pendingOrder (.wireappUser "a") (.wireappUser "b")).tryGetCoalesceIdentifier readAlice =
      .error (.orderError .wrongIdentifiers) :=
  ⟨rfl, rfl⟩

end CoreCrypto.Acquisition
