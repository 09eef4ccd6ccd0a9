import CoreCrypto.Conversation.SampleBackend
import CoreCrypto.Keystore.Search
import CoreCrypto.Pki.Environment

/-!
# Credentials and conversations in the keystore

A `Credential` is read from its row, and a `Conversation` from the row of its group.  What the code
takes from OpenMLS, and the order of a `HashMap`, are the fields of `MlsLibrary`.
-/

namespace CoreCrypto.Credentials

open Keystore Library.Fallible Revocation

inductive CredentialType where
  | basic
  | x509
  deriving DecidableEq, Repr

/-- The credential of OpenMLS: an identity, with the DER certificates of its chain. -/
inductive MlsCredential where
  | basic (identity : Bytes)
  | x509 (identity : Bytes) (certificates : List Bytes)
  deriving DecidableEq, Repr

namespace MlsCredential

def identity : MlsCredential → Bytes
  | basic identity => identity
  | x509 identity _ => identity

def credentialType : MlsCredential → CredentialType
  | basic _ => .basic
  | x509 _ _ => .x509

end MlsCredential

structure Credential where
  cipherSuite : Nat
  credentialType : CredentialType
  mlsCredential : MlsCredential
  /-- The two halves of `signature_key_pair`. -/
  publicKey : Bytes
  privateKey : Bytes
  earliestValidity : Nat
  deriving DecidableEq, Repr

structure CredentialRef where
  clientId : Bytes
  publicKeyHash : Bytes
  credentialType : CredentialType
  cipherSuite : Nat
  earliestValidity : Nat
  deriving DecidableEq, Repr

/-- The errors of the credential code and of the operations of the context that use it.  The
wrappers of `RecursiveError` are one constructor. -/
inductive Error where
  | tlsDeserialize (item : String)
  | unknownCipherSuite
  | credentialNotFound
  | decodeX509
  | invalidIdentity
  | x509Check (error : RustyX509CheckError)
  | e2eIdentity (error : Pki.Error)
  | keystore (context : String) (error : CryptoKeystoreError)
  | deserialize (context : String) (code : Nat)
  | mlsGroupInvalidState (text : String)
  | leafInternalMlsError
  | openMls (context : String) (code : Nat)
  | mlsNotInitialized
  | wrongCredential
  | credentialStillInUse (id : ConversationId)
  | invalidCredentials (refs : List CredentialRef)
  | recursive (context : String) (source : Error)
  deriving DecidableEq, Repr

/-- The `?` operator. -/
def orThrow {σ α : Type} : Except Error α → EStateM Error σ α
  | .ok a => pure a
  | .error e => throw e

structure MlsLibrary (b : Backend) where
  tlsDeserialize : Bytes → Option MlsCredential
  knowsCipherSuite : Nat → Bool
  credentialOf : CredentialWithKey → MlsCredential
  conversationOrder : List (ConversationId × b.Group) → List (ConversationId × b.Group)
  conversationOrder_perm : ∀ conversations,
    (conversationOrder conversations).Perm conversations

/-! ### Credentials -/

section Credentials

variable {b : Backend} (mls : MlsLibrary b)

/-- `Credential::try_from(&StoredCredential)`. -/
def Credential.tryFrom (stored : StoredCredential) : Except Error Credential :=
  match mls.tlsDeserialize stored.credential with
  | none => .error (.tlsDeserialize "mls credential")
  | some mlsCredential =>
    if mls.knowsCipherSuite stored.ciphersuite then
      .ok {
        cipherSuite := stored.ciphersuite
        credentialType := mlsCredential.credentialType
        mlsCredential
        publicKey := stored.publicKey
        privateKey := stored.privateKey
        earliestValidity := stored.createdAt }
    else
      .error (.recursive "loading cipher suite from db" .unknownCipherSuite)

/-- `Credential::get_all`. -/
def Credential.getAll (db : Database b.State) : Except Error (List Credential) := do
  let stored ← (db.loadAll b.rt .storedCredential).mapError (.keystore "getting all credentials")
  (stored.filterMap Entity.credential?).mapM (Credential.tryFrom mls)

/-- `Credential::find_by_public_key`. -/
def Credential.findByPublicKey (db : Database b.State) (publicKey : Bytes) :
    Except Error Credential := do
  let found ← (db.get b.rt ⟨.storedCredential, b.rt.sha256 publicKey⟩).mapError
    (.keystore "getting credential by public key")
  match found.bind Entity.credential? with
  | none => throw .credentialNotFound
  | some stored => Credential.tryFrom mls stored

/-- `CredentialRef::from_credential`. -/
def CredentialRef.fromCredential (hashes : Hashes) (credential : Credential) : CredentialRef where
  clientId := credential.mlsCredential.identity
  publicKeyHash := hashes.sha256 credential.publicKey
  credentialType := credential.credentialType
  cipherSuite := credential.cipherSuite
  earliestValidity := credential.earliestValidity

/-- `CredentialRef::load`. -/
def CredentialRef.load (credentialRef : CredentialRef) (db : Database b.State) :
    Except Error Credential := do
  let found ← (db.get b.rt ⟨.storedCredential, credentialRef.publicKeyHash⟩).mapError
    (.keystore "finding credential")
  match found.bind Entity.credential? with
  | none => throw .credentialNotFound
  | some stored =>
    (Credential.tryFrom mls stored).mapError (.recursive "creating credential from stored credential")

end Credentials

/-! ### Conversations -/

section Conversations

variable {b : Backend} (mls : MlsLibrary b)

/-- The id and the serialised group of a row. -/
def persistedGroup? {S : Type} : Entity S → Option (ConversationId × S)
  | .persistedMlsGroup id state _ => some (id, state)
  | _ => none

/-- `Conversation::from_serialized_state`. -/
def fromSerializedState (state : b.State) : Except Error b.Group :=
  (b.deser state).mapError (.deserialize "deserializing group state")

/-- The rows of the groups, as `load_all` reads them; there is one for each id. -/
def restoreGroups (rows : List (Entity b.State)) : Except Error (List (ConversationId × b.Group)) :=
  (rows.filterMap persistedGroup?).mapM fun row =>
    (fromSerializedState row.2).map fun group => (row.1, group)

/-- `Conversation::load_all`, in the order of the map that it returns. -/
def loadAllConversations (db : Database b.State) :
    Except Error (List (ConversationId × b.Group)) := do
  let rows ← (db.loadAll b.rt .persistedMlsGroup).mapError
    (.keystore "finding all persisted mls groups")
  return mls.conversationOrder (← restoreGroups rows)

end Conversations

/-! ### What is read -/

section Reading

variable {b : Backend} {db : Database b.State}

/-- A row that `load_all` of its collection lists. -/
def Listed (db : Database b.State) (entity : Entity b.State) : Prop :=
  ∃ rows, db.loadAll b.rt entity.typ = .ok rows ∧ entity ∈ rows

theorem loadAll_connected (connected : db.conn.isSome) (typ : EntityType) :
    ∃ rows, db.loadAll b.rt typ = .ok rows := by
  obtain ⟨stored, isConn⟩ := Option.isSome_iff_exists.mp connected
  cases slot : db.transaction with
  | none => exact ⟨_, Database.loadAll_idle b.rt isConn slot typ⟩
  | some tx => exact ⟨_, Database.loadAll_open b.rt db stored tx isConn slot typ⟩

theorem mem_rows_iff {typ : EntityType} {rows : List (Entity b.State)}
    (loaded : db.loadAll b.rt typ = .ok rows) (entity : Entity b.State) (isTyp : entity.typ = typ) :
    entity ∈ rows ↔ Listed db entity := by
  subst isTyp
  simp [Listed, loaded]

theorem mem_storedCredentials {rows : List (Entity b.State)}
    (loaded : db.loadAll b.rt .storedCredential = .ok rows) (stored : StoredCredential) :
    stored ∈ rows.filterMap Entity.credential? ↔ Listed db (.storedCredential stored) := by
  rw [← mem_rows_iff loaded _ rfl, List.mem_filterMap]
  constructor
  · rintro ⟨entity, member, isCredential⟩
    cases entity <;> cases isCredential
    exact member
  · exact fun member => ⟨_, member, rfl⟩

theorem mem_persistedGroups {rows : List (Entity b.State)}
    (loaded : db.loadAll b.rt .persistedMlsGroup = .ok rows) (row : ConversationId × b.State) :
    row ∈ rows.filterMap persistedGroup? ↔
      ∃ parent, Listed db (.persistedMlsGroup row.1 row.2 parent) := by
  simp only [← mem_rows_iff loaded (.persistedMlsGroup _ _ _) rfl, List.mem_filterMap]
  constructor
  · rintro ⟨entity, member, isGroup⟩
    cases entity <;> cases isGroup
    exact ⟨_, member⟩
  · rintro ⟨parent, member⟩
    exact ⟨_, member, rfl⟩

variable {mls : MlsLibrary b}

theorem Credential.tryFrom_eq_ok {stored : StoredCredential} {credential : Credential}
    (ok : Credential.tryFrom mls stored = .ok credential) :
    credential.credentialType = credential.mlsCredential.credentialType ∧
      credential.publicKey = stored.publicKey ∧ credential.cipherSuite = stored.ciphersuite := by
  unfold Credential.tryFrom at ok
  split at ok
  · cases ok
  · split at ok <;> cases ok
    exact ⟨rfl, rfl, rfl⟩

theorem Credential.getAll_eq {rows : List (Entity b.State)}
    (loaded : db.loadAll b.rt .storedCredential = .ok rows) :
    Credential.getAll mls db = (rows.filterMap Entity.credential?).mapM (Credential.tryFrom mls) := by
  rw [Credential.getAll, loaded]
  rfl

theorem Credential.getAll_succeeds_iff (connected : db.conn.isSome) :
    (∃ credentials, Credential.getAll mls db = .ok credentials) ↔
      ∀ stored, Listed db (.storedCredential stored) →
        ∃ credential, Credential.tryFrom mls stored = .ok credential := by
  obtain ⟨rows, loaded⟩ := loadAll_connected connected .storedCredential
  simp only [Credential.getAll_eq loaded, mapM_succeeds_iff, mem_storedCredentials loaded]

theorem Credential.mem_getAll {credentials : List Credential} (connected : db.conn.isSome)
    (ok : Credential.getAll mls db = .ok credentials) (credential : Credential) :
    credential ∈ credentials ↔ ∃ stored, Listed db (.storedCredential stored) ∧
      Credential.tryFrom mls stored = .ok credential := by
  obtain ⟨rows, loaded⟩ := loadAll_connected connected .storedCredential
  rw [Credential.getAll_eq loaded] at ok
  simp only [mem_of_mapM ok, mem_storedCredentials loaded]

theorem loadAllConversations_eq {rows : List (Entity b.State)}
    (loaded : db.loadAll b.rt .persistedMlsGroup = .ok rows) :
    loadAllConversations mls db = (restoreGroups rows).map mls.conversationOrder := by
  rw [loadAllConversations, loaded]
  change (restoreGroups rows >>= fun groups => pure (mls.conversationOrder groups)) = _
  cases restoreGroups rows <;> rfl

theorem restored_iff {row : ConversationId × b.State} {conversation : ConversationId × b.Group} :
    (fromSerializedState row.2).map (fun group => (row.1, group)) = .ok conversation ↔
      conversation.1 = row.1 ∧ b.deser row.2 = .ok conversation.2 := by
  obtain ⟨id, group⟩ := conversation
  rw [fromSerializedState]
  cases b.deser row.2 <;> simp [Except.mapError, Except.map, eq_comm]

theorem loadAllConversations_succeeds_iff (connected : db.conn.isSome) :
    (∃ conversations, loadAllConversations mls db = .ok conversations) ↔
      ∀ id state parent, Listed db (.persistedMlsGroup id state parent) →
        ∃ group, b.deser state = .ok group := by
  obtain ⟨rows, loaded⟩ := loadAll_connected connected .persistedMlsGroup
  have restored : (∃ conversations, loadAllConversations mls db = .ok conversations) ↔
      ∃ groups, restoreGroups rows = .ok groups := by
    rw [loadAllConversations_eq loaded]
    cases restoreGroups rows <;> simp [Except.map]
  simp only [restored, restoreGroups, mapM_succeeds_iff, mem_persistedGroups loaded, restored_iff]
  constructor
  · intro each id state parent listed
    obtain ⟨conversation, -, group⟩ := each (id, state) ⟨parent, listed⟩
    exact ⟨_, group⟩
  · rintro each ⟨id, state⟩ ⟨parent, listed⟩
    obtain ⟨group, restored⟩ := each id state parent listed
    exact ⟨(id, group), rfl, restored⟩

theorem mem_loadAllConversations {conversations : List (ConversationId × b.Group)}
    (connected : db.conn.isSome) (ok : loadAllConversations mls db = .ok conversations)
    (id : ConversationId) (group : b.Group) :
    (id, group) ∈ conversations ↔ ∃ state parent, Listed db (.persistedMlsGroup id state parent) ∧
      b.deser state = .ok group := by
  obtain ⟨rows, loaded⟩ := loadAll_connected connected .persistedMlsGroup
  rw [loadAllConversations_eq loaded] at ok
  cases restored : restoreGroups rows with
  | error e => simp [restored, Except.map] at ok
  | ok groups =>
    rw [restored] at ok
    cases ok
    rw [(mls.conversationOrder_perm groups).mem_iff, mem_of_mapM restored]
    simp only [mem_persistedGroups loaded, restored_iff]
    constructor
    · rintro ⟨⟨_, state⟩, ⟨parent, listed⟩, rfl, restored⟩
      exact ⟨state, parent, listed, restored⟩
    · rintro ⟨state, parent, listed, restored⟩
      exact ⟨(id, state), ⟨parent, listed⟩, rfl, restored⟩

end Reading

/-! ### A small instance -/

abbrev sampleBackend : Backend := Conversation.Sample.backend (.ok ())

/-- All credentials are basic, and a credential is serialised as its identity. -/
def basicLibrary : MlsLibrary sampleBackend where
  tlsDeserialize identity := some (.basic identity)
  knowsCipherSuite _ := true
  credentialOf leaf := .basic leaf.identity
  conversationOrder := id
  conversationOrder_perm _ := .refl _

end CoreCrypto.Credentials
