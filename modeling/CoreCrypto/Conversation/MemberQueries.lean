import CoreCrypto.Conversation.SampleBackend
import CoreCrypto.Session.ClientId

/-!
# Queries about the members of a group

`get_client_ids` leaves history clients out.  The other queries read the identities of all members
as client ids, and the identity of a history client is none, so they fail.  The order of hash sets
and the reading of a credential are parameters.
-/

namespace CoreCrypto.Conversation

open Session Library Library.Fallible

variable {b : Backend} {members : List Member}

/-- The errors of the queries; those of callees carry the context they are wrapped in. -/
inductive QueryError where
  | mlsClient (context : String) (source : Session.Error)
  | mlsCredential (context : String) (code : Nat)
  | callerError (text : String)
  | panicked
deriving DecidableEq, Repr

/-- The order in which the entries of a hash set and of a hash map are traversed. -/
structure HashOrder where
  set : List ClientId → List ClientId
  map : List (ClientId × CredentialWithKey) → List (ClientId × CredentialWithKey)
  set_perm : ∀ entries, (set entries).Perm entries
  map_perm : ∀ entries, (map entries).Perm entries

def clientIdFrom (context : String) (member : Member) : Except QueryError ClientId :=
  (ClientId.newFromBytes member.credential.identity).mapError (.mlsClient context)

def getClientIds (group : b.Group) : Except QueryError (List ClientId) :=
  (group.members.filter fun member => !isHistoryClient member.credential.identity).mapM
    (clientIdFrom "new client id from bytes")

def pendingRemovals (group : b.Group) : List Nat :=
  group.pendingProposals.filterMap (·.proposal.removed?)

def membersInNextEpoch (order : HashOrder) (group : b.Group) :
    Except QueryError (List ClientId) := do
  let clients ← (group.members.filter fun member => member.index ∉ pendingRemovals group).mapM
    (clientIdFrom "new client id from bytes")
  return order.set clients.dedup

/-- `members_with_key`: of the members with one id, the last one stays in the map. -/
def membersWithKey (group : b.Group) :
    Except QueryError (List (ClientId × CredentialWithKey)) := do
  let ids ← group.members.mapM (clientIdFrom "client id from bytes")
  return (ids.zip (group.members.map (·.credential))).foldl
    (fun entries entry => entries.filter (·.1 ≠ entry.1) ++ [entry]) []

section Identities

variable {Identity : Type} (order : HashOrder)
  (extractIdentity : CredentialWithKey → Except Nat Identity)

def extract (credential : CredentialWithKey) : Except QueryError Identity :=
  (extractIdentity credential).mapError (.mlsCredential "extracting identity")

def emptyIds : QueryError :=
  .callerError "This function accepts a list of IDs as a parameter, but that list was empty."

def getDeviceIdentities (group : b.Group) (deviceIds : List ClientId) :
    Except QueryError (List Identity) := do
  if deviceIds.isEmpty then
    throw emptyIds
  let entries ← membersWithKey group
  (order.map entries).foldlM (fun identities (id, credential) => do
    if id ∈ deviceIds then
      let identity ← extract extractIdentity credential
      return identities ++ [identity]
    else return identities) []

/-- `entry(user).or_insert_with(Vec::new).push(identity)`. -/
def pushIdentity (identities : List (Uuid × List Identity)) (user : Uuid) (identity : Identity) :
    List (Uuid × List Identity) :=
  if user ∈ identities.map Prod.fst then
    identities.map fun entry => if entry.1 = user then (user, entry.2 ++ [identity]) else entry
  else identities ++ [(user, [identity])]

def getUserIdentities (group : b.Group) (userIds : List Uuid) :
    Except QueryError (List (Uuid × List Identity)) := do
  if userIds.isEmpty then
    throw emptyIds
  let entries ← membersWithKey group
  (order.map entries).foldlM (fun identities (id, credential) => do
    match id.deserialize with
    | none => throw .panicked
    | some client =>
      if client.userId ∈ userIds then
        let identity ← extract extractIdentity credential
        return pushIdentity identities client.userId identity
      else return identities) []

end Identities

/-! ### Ids of history clients -/

/-- `ClientId::new_ephemeral` with the UUID it draws. -/
def newEphemeral (userId : Uuid) : ClientId :=
  ⟨historyClientIdPrefix ++ 58 :: userId.hyphenated⟩

theorem isHistoryClient_newEphemeral (u : Uuid) : isHistoryClient (newEphemeral u).bytes := by
  simp [isHistoryClient, newEphemeral, List.isPrefixOf_iff_prefix]

/-- The id of a history client is not accepted as a client id. -/
theorem tryParseBytes_newEphemeral (u : Uuid) :
    ClientId.tryParseBytes (newEphemeral u).bytes = .error .invalidQualifiedClientId := by
  cases parsed : ClientId.tryParseBytes (newEphemeral u).bytes with
  | error e => rw [ClientId.tryParseBytes_eq_error parsed]
  | ok client =>
    obtain ⟨-, user, device, whole, noColon, -, isUser, -⟩ :=
      ClientId.tryParseBytes_eq_ok_iff.mp parsed
    have noColonHere : 58 ∉ historyClientIdPrefix := by decide
    obtain ⟨rfl, -⟩ := (Text.delimited_inj 58 noColonHere noColon).mp whole
    cases isUser

/-! ### Members whose identity is no client id -/

/-- The identity of the member is accepted as a client id. -/
def Readable (member : Member) : Prop :=
  ∃ client, ClientId.tryParseBytes member.credential.identity = .ok client

theorem clientIdFrom_error (context : String) (member : Member) (e : QueryError)
    (failed : clientIdFrom context member = .error e) :
    e = .mlsClient context .invalidQualifiedClientId := by
  unfold clientIdFrom ClientId.newFromBytes at failed
  cases parsed : ClientId.tryParseBytes member.credential.identity with
  | error source =>
    rw [parsed] at failed
    cases failed
    rw [ClientId.tryParseBytes_eq_error parsed]
  | ok client =>
    rw [parsed] at failed
    cases failed

theorem clientIdFrom_ok_iff (context : String) (member : Member) :
    (∃ id, clientIdFrom context member = .ok id) ↔ Readable member := by
  unfold clientIdFrom ClientId.newFromBytes Readable
  cases ClientId.tryParseBytes member.credential.identity with
  | error e =>
    constructor
    · rintro ⟨id, clash⟩
      cases clash
    · rintro ⟨client, clash⟩
      cases clash
  | ok client => exact ⟨fun _ => ⟨client, rfl⟩, fun _ => ⟨_, rfl⟩⟩

theorem mapM_clientIdFrom_of_unreadable (context : String)
    (unreadable : ∃ member ∈ members, ¬ Readable member) :
    members.mapM (clientIdFrom context) =
      .error (.mlsClient context .invalidQualifiedClientId) := by
  obtain ⟨member, isMember, fails⟩ := unreadable
  refine mapM_eq_error (clientIdFrom_error context) ⟨member, isMember, fun id ok => fails ?_⟩
  exact (clientIdFrom_ok_iff context member).mp ⟨id, ok⟩

theorem mapM_clientIdFrom_of_readable (context : String)
    (readable : ∀ member ∈ members, Readable member) :
    ∃ ids, members.mapM (clientIdFrom context) = .ok ids := by
  have each : ∀ member ∈ members, ∃ id, clientIdFrom context member = .ok id :=
    fun member isMember => (clientIdFrom_ok_iff context member).mpr (readable member isMember)
  obtain ⟨ids, ok, -⟩ := mapM_eq_ok each
  exact ⟨ids, ok⟩

section Identities

variable {Identity : Type} (order : HashOrder)
  (extractIdentity : CredentialWithKey → Except Nat Identity)

theorem membersWithKey_of_unreadable {group : b.Group}
    (unreadable : ∃ member ∈ group.members, ¬ Readable member) :
    membersWithKey group =
      .error (.mlsClient "client id from bytes" .invalidQualifiedClientId) := by
  rw [membersWithKey, mapM_clientIdFrom_of_unreadable _ unreadable]
  rfl

theorem getDeviceIdentities_of_unreadable {group : b.Group}
    (unreadable : ∃ member ∈ group.members, ¬ Readable member) (deviceIds : List ClientId) :
    getDeviceIdentities order extractIdentity group deviceIds =
      .error (if deviceIds.isEmpty then emptyIds
        else .mlsClient "client id from bytes" .invalidQualifiedClientId) := by
  unfold getDeviceIdentities
  rw [membersWithKey_of_unreadable unreadable]
  cases deviceIds.isEmpty <;> rfl

theorem getUserIdentities_of_unreadable {group : b.Group}
    (unreadable : ∃ member ∈ group.members, ¬ Readable member) (userIds : List Uuid) :
    getUserIdentities order extractIdentity group userIds =
      .error (if userIds.isEmpty then emptyIds
        else .mlsClient "client id from bytes" .invalidQualifiedClientId) := by
  unfold getUserIdentities
  rw [membersWithKey_of_unreadable unreadable]
  cases userIds.isEmpty <;> rfl

theorem getDeviceIdentities_of_readable {group : b.Group}
    (readable : ∀ member ∈ group.members, Readable member) {deviceIds : List ClientId}
    (some : deviceIds ≠ []) (context : String) (source : Session.Error) :
    getDeviceIdentities order extractIdentity group deviceIds ≠
      .error (.mlsClient context source) := by
  obtain ⟨ids, read⟩ := mapM_clientIdFrom_of_readable "client id from bytes" readable
  have nonempty : deviceIds.isEmpty = false := by simpa using some
  intro failed
  unfold getDeviceIdentities membersWithKey at failed
  rw [nonempty, read] at failed
  have fromCredential := foldlM_error (p := fun e => ∃ code, e = .mlsCredential
    "extracting identity" code) ?_ _ _ _ failed
  · obtain ⟨code, clash⟩ := fromCredential
    cases clash
  · rintro identities ⟨id, credential⟩ e stepFailed
    simp only at stepFailed
    split at stepFailed
    · unfold extract at stepFailed
      cases extracted : extractIdentity credential with
      | error code =>
        rw [extracted] at stepFailed
        cases stepFailed
        exact ⟨code, rfl⟩
      | ok identity =>
        rw [extracted] at stepFailed
        cases stepFailed
    · cases stepFailed

end Identities

theorem membersInNextEpoch_of_unreadable (order : HashOrder) {group : b.Group}
    (unreadable : ∃ member ∈ group.members,
      member.index ∉ pendingRemovals group ∧ ¬ Readable member) :
    membersInNextEpoch order group =
      .error (.mlsClient "new client id from bytes" .invalidQualifiedClientId) := by
  obtain ⟨member, isMember, stays, fails⟩ := unreadable
  have found : ∃ member ∈ group.members.filter fun member => member.index ∉ pendingRemovals group,
      ¬ Readable member :=
    ⟨member, List.mem_filter.mpr ⟨isMember, by simpa using stays⟩, fails⟩
  rw [membersInNextEpoch, mapM_clientIdFrom_of_unreadable _ found]
  rfl

theorem membersInNextEpoch_of_readable (order : HashOrder) {group : b.Group}
    (readable : ∀ member ∈ group.members, member.index ∉ pendingRemovals group → Readable member) :
    ∃ ids, membersInNextEpoch order group = .ok ids := by
  have each : ∀ member ∈ group.members.filter fun member => member.index ∉ pendingRemovals group,
      Readable member := by
    intro member inFilter
    obtain ⟨isMember, stays⟩ := List.mem_filter.mp inFilter
    exact readable member isMember (by simpa using stays)
  obtain ⟨ids, read⟩ := mapM_clientIdFrom_of_readable "new client id from bytes" each
  exact ⟨_, by rw [membersInNextEpoch, read]; rfl⟩

/-! ### Groups with one more history client -/

/-- The second group is the first with a history client at some leaf; what is to be removed of
the others is the same. -/
structure AddsHistoryClient (before after : b.Group) (historyClient : Member) : Prop where
  members : ∃ left right, before.members = left ++ right ∧
    after.members = left ++ historyClient :: right
  identity : ∃ u, historyClient.credential.identity = (newEphemeral u).bytes
  removals : ∀ member ∈ before.members,
    member.index ∈ pendingRemovals after ↔ member.index ∈ pendingRemovals before

namespace AddsHistoryClient

variable {before after : b.Group} {historyClient : Member}
  (adds : AddsHistoryClient before after historyClient)
include adds

theorem unreadable : ¬ Readable historyClient := by
  obtain ⟨u, identity⟩ := adds.identity
  rintro ⟨client, parsed⟩
  rw [identity, tryParseBytes_newEphemeral] at parsed
  cases parsed

theorem mem : historyClient ∈ after.members := by
  obtain ⟨left, right, -, members⟩ := adds.members
  simp [members]

theorem mem_of_mem {member : Member} (isMember : member ∈ before.members) :
    member ∈ after.members := by
  obtain ⟨left, right, members, members'⟩ := adds.members
  rw [members, List.mem_append] at isMember
  rw [members', List.mem_append, List.mem_cons]
  exact isMember.imp_right .inr

theorem getClientIds_eq : getClientIds after = getClientIds before := by
  obtain ⟨left, right, members, members'⟩ := adds.members
  obtain ⟨u, identity⟩ := adds.identity
  have history : isHistoryClient historyClient.credential.identity = true := by
    rw [identity]
    exact isHistoryClient_newEphemeral u
  simp only [getClientIds, members, members', List.filter_append, List.filter_cons, history,
    Bool.not_true, Bool.false_eq_true, if_false]

theorem membersInNextEpoch_of_removed (order : HashOrder)
    (removed : historyClient.index ∈ pendingRemovals after) :
    membersInNextEpoch order after = membersInNextEpoch order before := by
  have same : after.members.filter (fun member => member.index ∉ pendingRemovals after) =
      before.members.filter fun member => member.index ∉ pendingRemovals before := by
    obtain ⟨left, right, members, members'⟩ := adds.members
    have others : ∀ part : List Member, (∀ member ∈ part, member ∈ before.members) →
        part.filter (fun member => member.index ∉ pendingRemovals after) =
          part.filter fun member => member.index ∉ pendingRemovals before := by
      intro part within
      refine List.filter_congr fun member inPart => ?_
      simp only [adds.removals member (within member inPart)]
    rw [members', members, List.filter_append, List.filter_append, List.filter_cons,
      others left fun member inLeft => by simp [members, inLeft],
      others right fun member inRight => by simp [members, inRight]]
    simp [removed]
  simp only [membersInNextEpoch, same]

end AddsHistoryClient

section Transparency

variable {Identity : Type} (order : HashOrder)
  (extractIdentity : CredentialWithKey → Except Nat Identity)

/-- The queries about ordinary clients have the same results in both groups. -/
structure Transparent (before after : b.Group) : Prop where
  clientIds : getClientIds after = getClientIds before
  nextEpoch : membersInNextEpoch order after = membersInNextEpoch order before
  deviceIdentities : ∀ deviceIds : List ClientId, (∀ id ∈ deviceIds, ¬ isHistoryClient id.bytes) →
    getDeviceIdentities order extractIdentity after deviceIds =
      getDeviceIdentities order extractIdentity before deviceIds
  userIdentities : ∀ userIds,
    getUserIdentities order extractIdentity after userIds =
      getUserIdentities order extractIdentity before userIds

/-- The queries for identities fail already for a member without a client id, and the query for
the next epoch does too, unless the history client is to be removed. -/
def FailsAlready (before after : b.Group) (historyClient : Member) : Prop :=
  (∃ member ∈ before.members, ¬ Readable member) ∧
    (historyClient.index ∈ pendingRemovals after ∨
      ∃ member ∈ before.members, member.index ∉ pendingRemovals before ∧ ¬ Readable member)

/-- An ordinary client: device 0 of the user with UUID zero, at no domain. -/
def ordinaryClient : ClientId := ClientId.new ⟨List.replicate 16 0, rfl⟩ 0 []

theorem transparent_iff_failsAlready {before after : b.Group} {historyClient : Member}
    (adds : AddsHistoryClient before after historyClient) :
    Transparent order extractIdentity before after ↔ FailsAlready before after historyClient := by
  have afterUnreadable : ∃ member ∈ after.members, ¬ Readable member :=
    ⟨historyClient, adds.mem, adds.unreadable⟩
  constructor
  · intro transparent
    constructor
    · by_contra none
      push Not at none
      -- with all members readable, a query for an ordinary device does not fail for an id
      have failed := getDeviceIdentities_of_unreadable order extractIdentity afterUnreadable
        [ordinaryClient]
      rw [transparent.deviceIdentities [ordinaryClient] (by decide +kernel)] at failed
      exact getDeviceIdentities_of_readable order extractIdentity none (by simp) _ _ failed
    · by_cases removed : historyClient.index ∈ pendingRemovals after
      · exact .inl removed
      · refine .inr ?_
        by_contra none
        push Not at none
        have failed := membersInNextEpoch_of_unreadable order
          ⟨historyClient, adds.mem, removed, adds.unreadable⟩
        obtain ⟨ids, ok⟩ := membersInNextEpoch_of_readable order none
        rw [transparent.nextEpoch, ok] at failed
        cases failed
  · rintro ⟨unreadable, inNextEpoch⟩
    refine ⟨adds.getClientIds_eq, ?_, fun deviceIds _ => ?_, fun userIds => ?_⟩
    · rcases inNextEpoch with removed | ⟨member, isMember, stays, fails⟩
      · exact adds.membersInNextEpoch_of_removed order removed
      · rw [membersInNextEpoch_of_unreadable order ⟨member, isMember, stays, fails⟩,
          membersInNextEpoch_of_unreadable order ⟨member, adds.mem_of_mem isMember, ?_, fails⟩]
        rwa [adds.removals member isMember]
    · rw [getDeviceIdentities_of_unreadable order extractIdentity afterUnreadable,
        getDeviceIdentities_of_unreadable order extractIdentity unreadable]
    · rw [getUserIdentities_of_unreadable order extractIdentity afterUnreadable,
        getUserIdentities_of_unreadable order extractIdentity unreadable]

end Transparency

/-! ### Accessors of the ids that the crate makes -/

/-- `E2eiClientId::try_new`; it takes a user id that is printed from a UUID. -/
structure E2eiClientIds where
  E : Type
  tryNew : Bytes → UInt64 → Bytes → Option E
  accepts : ∀ (u : Uuid) d s, (tryNew u.hyphenated d s).isSome

/-- `as_e2ei_client_id`; `none` is a panic of one of its `expect`s. -/
def asE2eiClientId (e2ei : E2eiClientIds) (id : ClientId) : Option e2ei.E :=
  match ClientId.tryParseBytes id.bytes with
  | .ok client => e2ei.tryNew client.userId.hyphenated client.deviceId client.domain
  | .error _ => none

/-- The ids that the crate makes. -/
inductive CreatedId : ClientId → Prop
  | new (userId : Uuid) (deviceId : UInt64) (domain : Bytes) (isStr : Text.utf8Valid domain) :
      CreatedId (ClientId.new userId deviceId domain)
  | fromBytes (bytes : Bytes) (id : ClientId) (accepted : ClientId.newFromBytes bytes = .ok id) :
      CreatedId id
  | ephemeral (userId : Uuid) : CreatedId (newEphemeral userId)

/-- No accessor panics. -/
def AccessorsReturn (e2ei : E2eiClientIds) (id : ClientId) : Prop :=
  id.deserialize.isSome ∧ (asE2eiClientId e2ei id).isSome

theorem accessorsReturn_of_accepted (e2ei : E2eiClientIds) {id : ClientId}
    {client : DeserializedClientId} (accepted : ClientId.tryParseBytes id.bytes = .ok client) :
    AccessorsReturn e2ei id := by
  simp only [AccessorsReturn, ClientId.deserialize, asE2eiClientId, accepted]
  exact ⟨rfl, e2ei.accepts _ _ _⟩

theorem accessorsReturn_iff (e2ei : E2eiClientIds) {id : ClientId} (created : CreatedId id) :
    AccessorsReturn e2ei id ↔ ∀ u, id ≠ newEphemeral u := by
  constructor
  · rintro returns u rfl
    simp [AccessorsReturn, ClientId.deserialize, tryParseBytes_newEphemeral, Except.toOption]
      at returns
  · intro ordinary
    cases created with
    | new userId deviceId domain isStr =>
      exact accessorsReturn_of_accepted e2ei
        (ClientId.tryParseBytes_new userId deviceId isStr)
    | fromBytes bytes id accepted =>
      obtain ⟨client, parsed, same⟩ := bind_eq_ok accepted
      cases same
      exact accessorsReturn_of_accepted e2ei parsed
    | ephemeral userId => exact absurd rfl (ordinary userId)

/-- **History clients in queries.** A history client that is added leaves the results of the
queries as they are iff they fail already; and the accessors of an id that the crate makes return
iff it is not that of a history client. -/
theorem history_clients_seen_iff {Identity : Type} (order : HashOrder)
    (extractIdentity : CredentialWithKey → Except Nat Identity) (e2ei : E2eiClientIds) :
    (∀ (before after : b.Group) historyClient, AddsHistoryClient before after historyClient →
      (Transparent order extractIdentity before after ↔
        FailsAlready before after historyClient)) ∧
    (∀ id, CreatedId id → (AccessorsReturn e2ei id ↔ ∀ u, id ≠ newEphemeral u)) :=
  ⟨fun _ _ _ adds => transparent_iff_failsAlready order extractIdentity adds,
    fun _ created => accessorsReturn_iff e2ei created⟩

/-- A group of these identities. -/
def sampleMembers (identities : List Bytes) : (Sample.backend (.ok ())).Group :=
  { Sample.newGroup [9] 1 7 with
    members := identities.zipIdx.map fun (identity, leaf) => ⟨leaf, ⟨identity, [], []⟩, []⟩ }

def sampleEphemeral : ClientId := newEphemeral ⟨List.replicate 16 7, rfl⟩

def listOrder : HashOrder := ⟨id, id, fun _ => .refl _, fun _ => .refl _⟩

def sampleE2ei : E2eiClientIds := ⟨Unit, fun _ _ _ => some (), fun _ _ _ => rfl⟩

/-- A second history client makes no difference: the queries fail for the first. -/
theorem second_history_client_transparent :
    Transparent listOrder (fun credential => .ok credential.identity)
      (sampleMembers [ordinaryClient.bytes, sampleEphemeral.bytes])
      (sampleMembers [ordinaryClient.bytes, sampleEphemeral.bytes, sampleEphemeral.bytes]) := by
  have adds : AddsHistoryClient (sampleMembers [ordinaryClient.bytes, sampleEphemeral.bytes])
      (sampleMembers [ordinaryClient.bytes, sampleEphemeral.bytes, sampleEphemeral.bytes])
      ⟨2, ⟨sampleEphemeral.bytes, [], []⟩, []⟩ :=
    ⟨⟨(sampleMembers [ordinaryClient.bytes, sampleEphemeral.bytes]).members, [],
      (List.append_nil _).symm, rfl⟩, ⟨_, rfl⟩, fun _ _ => Iff.rfl⟩
  have first : ¬ Readable ⟨1, ⟨sampleEphemeral.bytes, [], []⟩, []⟩ := by
    rintro ⟨client, parsed⟩
    have failed := tryParseBytes_newEphemeral ⟨List.replicate 16 7, rfl⟩
    cases failed.symm.trans parsed
  refine ((history_clients_seen_iff listOrder (fun credential => .ok credential.identity)
    sampleE2ei).1 _ _ _ adds).mpr ?_
  exact ⟨⟨_, List.mem_cons_of_mem _ (List.mem_singleton.mpr rfl), first⟩,
    .inr ⟨_, List.mem_cons_of_mem _ (List.mem_singleton.mpr rfl), by decide, first⟩⟩

/-- In a group of one ordinary client all queries succeed; with a history client, three of the
four fail, and `deserialize` panics for its id. -/
theorem history_client_breaks_queries : let before := sampleMembers [ordinaryClient.bytes]
    let after := sampleMembers [ordinaryClient.bytes, sampleEphemeral.bytes]
    let read : CredentialWithKey → Except Nat Bytes := fun credential => .ok credential.identity
    AddsHistoryClient before after ⟨1, ⟨sampleEphemeral.bytes, [], []⟩, []⟩ ∧
      (membersInNextEpoch listOrder before).toOption.isSome ∧
      (membersInNextEpoch listOrder after).toOption = none ∧
      (getDeviceIdentities listOrder read before [ordinaryClient]).toOption.isSome ∧
      (getDeviceIdentities listOrder read after [ordinaryClient]).toOption = none ∧
      (getUserIdentities listOrder read after [⟨List.replicate 16 0, rfl⟩]).toOption = none ∧
      sampleEphemeral.deserialize = none := by
  refine ⟨⟨⟨(sampleMembers [ordinaryClient.bytes]).members, [], (List.append_nil _).symm, rfl⟩,
    ⟨_, rfl⟩, fun _ _ => Iff.rfl⟩, ?_⟩
  decide +kernel

end CoreCrypto.Conversation
