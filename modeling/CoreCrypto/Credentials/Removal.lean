import CoreCrypto.Credentials.Stored
import CoreCrypto.Pki.Restored

/-!
# Removing a credential

`remove_credential` refuses if the own leaf of a conversation carries the MLS credential.  A
conversation later looks its credential up by the signature key of its last own update proposal
that is pending, or else of its own leaf.  Basic credentials of one client are all equal whatever
their keys are, and neither pending updates nor pending conversations are looked at.
-/

namespace CoreCrypto.Credentials

open Conversation Keystore Library Library.Fallible Pki

variable {b : Backend}

/-! ### Key packages -/

/-- A key package, with what `hash_ref` computes for it. -/
structure KeyPackage where
  signatureKey : Bytes
  hpkeInitKey : Bytes
  encryptionKey : Bytes
  hashRef : Except Nat Bytes

abbrev RemovalM (b : Backend) (α : Type) := EStateM Error (Database b.State) α

section KeyPackages

variable (mls : MlsLibrary b) (deserKeyPackage : Bytes → Except Nat KeyPackage)
  (session : Option Bytes)

def requireSession {σ : Type} : EStateM Error σ Bytes :=
  match session with
  | some id => pure id
  | none => throw (.recursive "Getting mls session from transaction context" .mlsNotInitialized)

/-- `from_stored`. -/
def fromStored (stored : Entity b.State) : Except Error KeyPackage :=
  (deserKeyPackage (contentOf stored)).mapError (.deserialize "deserializing keypackage")

/-- `get_key_packages`: what cannot be read is skipped. -/
def getKeyPackages (db : Database b.State) : Except Error (List KeyPackage) := do
  let stored ← (db.loadAll b.rt (.plain .keyPackage)).mapError
    (.keystore "finding all keypackages")
  return stored.filterMap fun row => (fromStored deserKeyPackage row).toOption

/-- `load_key_package`. -/
def loadKeyPackage (hashRef : Bytes) (db : Database b.State) :
    Except Error (Option KeyPackage) := do
  match ← (db.get b.rt ⟨.plain .keyPackage, hashRef⟩).mapError
      (.keystore "loading keypackage from database") with
  | none => return none
  | some stored => return some (← fromStored deserKeyPackage stored)

/-- `remove` and `remove_borrowed`. -/
def removeRow (context : String) (id : EntityId) : RemovalM b Unit := fun db =>
  match db.remove id with
  | (.ok (), db) => .ok () db
  | (.error e, db) => .error (.keystore context e) db

def removeKeyPackage (hashRef : Bytes) : RemovalM b Unit := do
  let _ ← requireSession session
  match ← orThrow ((loadKeyPackage deserKeyPackage hashRef (← get)).mapError
      (.recursive "loading key packages on session")) with
  | none => pure ()
  | some kp =>
    removeRow "removing key package from keystore" ⟨.plain .keyPackage, hashRef⟩
    removeRow "removing private key from keystore" ⟨.plain .hpkePrivateKey, kp.hpkeInitKey⟩
    removeRow "removing encryption keypair from keystore" ⟨.plain .encryptionKeyPair, kp.encryptionKey⟩

/-- The loop body of `remove_key_packages_for`: an error is kept if it is the first one. -/
def retainError (firstErr : Option Error) (keyPackage : KeyPackage) : RemovalM b (Option Error) :=
  match keyPackage.hashRef with
  | .error code => pure (firstErr.or (some (.openMls "computing keypackage hash ref" code)))
  | .ok hashRef => do
    match ← attempt (removeKeyPackage deserKeyPackage session hashRef) with
    | .error e => pure (firstErr.or (some e))
    | .ok () => pure firstErr

def removeKeyPackagesFor (credentialRef : CredentialRef) : RemovalM b Unit := do
  let credential ← orThrow ((credentialRef.load mls (← get)).mapError
    (.recursive "loading credential"))
  let _ ← requireSession session
  let keyPackages ← orThrow ((getKeyPackages deserKeyPackage (← get)).mapError
    (.recursive "loading key packages"))
  let firstErr ← (keyPackages.filter fun keyPackage =>
    keyPackage.signatureKey = credential.publicKey).foldlM
      (retainError deserKeyPackage session) none
  match firstErr with
  | none => pure ()
  | some e => throw e

end KeyPackages

/-! ### The credential -/

section Removal

variable (mls : MlsLibrary b) (deserKeyPackage : Bytes → Except Nat KeyPackage)
  (session : Option Bytes)

def ownMlsCredential (group : b.Group) : Except Error MlsCredential :=
  match group.ownLeaf with
  | none => .error (.mlsGroupInvalidState "own_leaf_node not present in group")
  | some leaf => .ok (mls.credentialOf leaf)

/-- The loop body of the check: the conversation does not carry the credential. -/
def ensureUnusedBy (credential : Credential) (conversation : ConversationId × b.Group) :
    Except Error Unit :=
  match ownMlsCredential mls conversation.2 with
  | .error e => .error (.recursive "geting conversation credential" e)
  | .ok conversationCredential =>
    if credential.mlsCredential = conversationCredential then
      .error (.credentialStillInUse conversation.1)
    else .ok ()

/-- The check that no conversation uses the credential. -/
def ensureUnused (credential : Credential) (conversations : List (ConversationId × b.Group)) :
    Except Error Unit :=
  conversations.forM (ensureUnusedBy mls credential)

def removeCredential (credentialRef : CredentialRef) : RemovalM b Unit := do
  if credentialRef.clientId ≠ (← requireSession session) then
    throw .wrongCredential
  let credential ← orThrow ((credentialRef.load mls (← get)).mapError
    (.recursive "loading all credentials from ref to remove from session identities"))
  let conversations ← orThrow ((loadAllConversations mls (← get)).mapError
    (.recursive "loading all conversations to check if the credential to be removed is present"))
  orThrow (ensureUnused mls credential conversations)
  removeKeyPackagesFor mls deserKeyPackage session credentialRef
  EStateM.adaptExcept (.recursive "deleting credential from keystore")
    (removeRow "deleting credential" ⟨.storedCredential, b.rt.sha256 credential.publicKey⟩)

/-- `find_current_credential`. -/
def findCurrentCredential (db : Database b.State) (group : b.Group) : Except Error Credential :=
  match currentLeaf group with
  | none => .error .leafInternalMlsError
  | some leaf =>
    (Credential.findByPublicKey mls db leaf.signatureKey).mapError fun e =>
      .recursive "finding current credential" (.recursive "getting credential by public key" e)

end Removal

/-! ### Use of a credential -/

section Use

variable (mls : MlsLibrary b) (deserKeyPackage : Bytes → Except Nat KeyPackage)
  (session : Option Bytes)

/-- The own leaf or an own update proposal that is pending has the signature key. -/
def UsesKey (group : b.Group) (key : Bytes) : Prop :=
  (∃ leaf, group.ownLeaf = some leaf ∧ leaf.signatureKey = key) ∨
    ∃ pending ∈ group.pendingProposals, pending.sender = .member group.ownLeafIndex ∧
      ∃ leaf, pending.proposal = .update leaf ∧ leaf.signatureKey = key

def IsConversation (db : Database b.State) (group : b.Group) : Prop :=
  ∃ id state parent, Listed db (.persistedMlsGroup id state parent) ∧ b.deser state = .ok group

def IsPendingConversation (db : Database b.State) (group : b.Group) : Prop :=
  ∃ id state parent configuration,
    Listed db (.persistedMlsPendingGroup id state parent configuration) ∧ b.deser state = .ok group

/-- The row that a reference refers to. -/
def RefersTo (credentialRef : CredentialRef) (db : Database b.State) (stored : StoredCredential) :
    Prop :=
  db.get b.rt ⟨.storedCredential, credentialRef.publicKeyHash⟩ = .ok (some (.storedCredential stored))

/-- Some conversation or pending conversation uses the signature key of the credential. -/
def InUse (credentialRef : CredentialRef) (db : Database b.State) : Prop :=
  ∃ stored group, RefersTo credentialRef db stored ∧
    (IsConversation db group ∨ IsPendingConversation db group) ∧ UsesKey group stored.publicKey

/-- A conversation carries the MLS credential in its own leaf, and none that comes before it in the
order of the map lacks an own leaf. -/
def Carried (credential : Credential) (conversations : List (ConversationId × b.Group)) : Prop :=
  ∃ earlier conversation later leaf, conversations = earlier ++ conversation :: later ∧
    conversation.2.ownLeaf = some leaf ∧ credential.mlsCredential = mls.credentialOf leaf ∧
    ∀ other ∈ earlier, other.2.ownLeaf.isSome

/-- The credential of the client can be read, and so can all conversations, and one of these is met
that carries its MLS credential. -/
def Matched (credentialRef : CredentialRef) (db : Database b.State) : Prop :=
  session = some credentialRef.clientId ∧ ∃ credential conversations,
    credentialRef.load mls db = .ok credential ∧
    loadAllConversations mls db = .ok conversations ∧ Carried mls credential conversations

/-- The stored credential can be read, and the own leaf of a stored group carries its MLS
credential. -/
def Carries (credentialRef : CredentialRef) (db : Database b.State) : Prop :=
  ∃ stored credential group leaf, RefersTo credentialRef db stored ∧
    Credential.tryFrom mls stored = .ok credential ∧ IsConversation db group ∧
    group.ownLeaf = some leaf ∧ credential.mlsCredential = mls.credentialOf leaf

/-- Every stored group can be read. -/
def Restorable (db : Database b.State) : Prop :=
  ∀ id state parent, Listed db (.persistedMlsGroup id state parent) →
    ∃ group, b.deser state = .ok group

/-- The stored rows let a removal see whether the key is in use: if it is, the credential is one of
the client, every stored group can be read and has an own leaf, and one of these leaves carries the
MLS credential; if it is not, no such leaf does. -/
structure UseSeen (credentialRef : CredentialRef) (db : Database b.State) : Prop where
  used : InUse credentialRef db → session = some credentialRef.clientId ∧ Restorable db ∧
    (∀ group, IsConversation db group → group.ownLeaf.isSome) ∧ Carries mls credentialRef db
  unused : ¬ InUse credentialRef db → session = some credentialRef.clientId → Restorable db →
    ¬ Carries mls credentialRef db

/-- The rows of a key package: its own, and those of its private keys. -/
def KeyPackage.rows (keyPackage : KeyPackage) (hashRef : Bytes) : List EntityId :=
  [⟨.plain .keyPackage, hashRef⟩, ⟨.plain .hpkePrivateKey, keyPackage.hpkeInitKey⟩,
    ⟨.plain .encryptionKeyPair, keyPackage.encryptionKey⟩]

/-- The rows of the key packages that were made with a signature key. -/
def MadeWith (db : Database b.State) (signatureKey : Bytes) (id : EntityId) : Prop :=
  ∃ hashRef content keyPackage, Listed db (.plain .keyPackage hashRef content) ∧
    deserKeyPackage content = .ok keyPackage ∧ keyPackage.signatureKey = signatureKey ∧
    id ∈ keyPackage.rows hashRef

/-- The rows that belong to a credential. -/
def Belongs (credentialRef : CredentialRef) (db : Database b.State) (id : EntityId) : Prop :=
  id = ⟨.storedCredential, credentialRef.publicKeyHash⟩ ∨
    ∃ stored, RefersTo credentialRef db stored ∧ MadeWith deserKeyPackage db stored.publicKey id

/-- What is asked of a removal in one state. -/
structure RemovalSound (credentialRef : CredentialRef) (db : Database b.State) : Prop where
  refused : (∃ id, outcome (removeCredential mls deserKeyPackage session credentialRef) db =
    .error (.credentialStillInUse id)) ↔ InUse credentialRef db
  unchanged : ∀ id, outcome (removeCredential mls deserKeyPackage session credentialRef) db =
    .error (.credentialStillInUse id) →
      finalState (removeCredential mls deserKeyPackage session credentialRef) db = db
  removed : outcome (removeCredential mls deserKeyPackage session credentialRef) db = .ok () →
    ∀ id, Belongs deserKeyPackage credentialRef db id →
      row b.rt (finalState (removeCredential mls deserKeyPackage session credentialRef) db) id = none
  others : outcome (removeCredential mls deserKeyPackage session credentialRef) db = .ok () →
    ∀ id, ¬ Belongs deserKeyPackage credentialRef db id →
      row b.rt (finalState (removeCredential mls deserKeyPackage session credentialRef) db) id =
        row b.rt db id
  finds : outcome (removeCredential mls deserKeyPackage session credentialRef) db = .ok () →
    ∀ group, IsConversation
        (finalState (removeCredential mls deserKeyPackage session credentialRef) db) group →
      (∃ credential, findCurrentCredential mls db group = .ok credential) →
      ∃ credential, findCurrentCredential mls
        (finalState (removeCredential mls deserKeyPackage session credentialRef) db) group =
          .ok credential

end Use

/-! ### The comparison with the conversations -/

section Comparison

variable {mls : MlsLibrary b}

theorem carried_of_mem {credential : Credential} {conversations : List (ConversationId × b.Group)}
    {conversation : ConversationId × b.Group} {leaf : CredentialWithKey}
    (member : conversation ∈ conversations) (own : conversation.2.ownLeaf = some leaf)
    (carries : credential.mlsCredential = mls.credentialOf leaf)
    (leaves : ∀ other ∈ conversations, other.2.ownLeaf.isSome) :
    Carried mls credential conversations := by
  obtain ⟨earlier, later, rfl⟩ := List.append_of_mem member
  exact ⟨earlier, conversation, later, leaf, rfl, own, carries,
    fun other isEarlier => leaves other (List.mem_append_left _ isEarlier)⟩

theorem carried_cons (credential : Credential) (conversation : ConversationId × b.Group)
    (rest : List (ConversationId × b.Group)) :
    Carried mls credential (conversation :: rest) ↔
      ∃ leaf, conversation.2.ownLeaf = some leaf ∧
        (credential.mlsCredential = mls.credentialOf leaf ∨ Carried mls credential rest) := by
  constructor
  · rintro ⟨earlier, found, later, leaf, split, hasLeaf, carries, present⟩
    cases earlier with
    | nil =>
      cases split
      exact ⟨leaf, hasLeaf, .inl carries⟩
    | cons first earlier =>
      cases split
      obtain ⟨own, isOwn⟩ := Option.isSome_iff_exists.mp (present _ List.mem_cons_self)
      exact ⟨own, isOwn, .inr ⟨earlier, found, later, leaf, rfl, hasLeaf, carries,
        fun other member => present other (List.mem_cons_of_mem _ member)⟩⟩
  · rintro ⟨leaf, hasLeaf, carries | ⟨earlier, found, later, leaf', rfl, hasLeaf', carries, present⟩⟩
    · exact ⟨[], conversation, rest, leaf, rfl, hasLeaf, carries, nofun⟩
    · refine ⟨conversation :: earlier, found, later, leaf', rfl, hasLeaf', carries, ?_⟩
      intro other member
      rcases List.mem_cons.mp member with rfl | inEarlier
      · exact Option.isSome_iff_exists.mpr ⟨leaf, hasLeaf⟩
      · exact present other inEarlier

theorem ensureUnused_refuses_iff (credential : Credential)
    (conversations : List (ConversationId × b.Group)) :
    (∃ id, ensureUnused mls credential conversations = .error (.credentialStillInUse id)) ↔
      Carried mls credential conversations := by
  induction conversations with
  | nil =>
    constructor
    · rintro ⟨id, refused⟩
      cases refused
    · rintro ⟨earlier, found, later, leaf, split, -⟩
      simp at split
  | cons conversation rest ih =>
    rw [carried_cons, ← ih]
    have unfolded : ensureUnused mls credential (conversation :: rest) =
        ensureUnusedBy mls credential conversation >>= fun _ => ensureUnused mls credential rest :=
      rfl
    rw [unfolded, ensureUnusedBy, ownMlsCredential]
    cases conversation.2.ownLeaf with
    | none => simp
    | some leaf =>
      by_cases same : credential.mlsCredential = mls.credentialOf leaf
      · simp [same]
      · simp [same]

end Comparison

/-! ### The rows that are removed -/

section Rows

variable {mls : MlsLibrary b} {deserKeyPackage : Bytes → Except Nat KeyPackage}
  {session : Option Bytes} {before db : Database b.State} {gone : EntityId → Prop}
  {hashRef : Bytes} {keyPackage : KeyPackage}

/-- The second database is the first without some of the rows. -/
structure Without (gone : EntityId → Prop) (before after : Database b.State) : Prop where
  inside : Inside b.rt False False after
  absent : ∀ id, gone id → row b.rt after id = none
  others : ∀ id, ¬ gone id → row b.rt after id = row b.rt before id

theorem Without.congr {gone' : EntityId → Prop} (without : Without gone before db)
    (same : ∀ id, gone' id ↔ gone id) : Without gone' before db :=
  ⟨without.inside, fun id isGone => without.absent id ((same id).mp isGone),
    fun id stays => without.others id (fun isGone => stays ((same id).mpr isGone))⟩

theorem removeRow_without (without : Without gone before db) (context : String) (id : EntityId) :
    ∃ after, removeRow context id db = .ok () after ∧
      Without (fun other => gone other ∨ other = id) before after := by
  obtain ⟨rows, connected⟩ := Option.isSome_iff_exists.mp without.inside.healthy.connected
  obtain ⟨tx, slot⟩ := Option.isSome_iff_exists.mp without.inside.opened
  obtain ⟨after, performed, stays, -⟩ := write_inside (.remove id) without.inside False.elim
    False.elim
  have written : after = { db with transaction := some (tx.removeByEntityId id) } := by
    have opened := Write.perform_open b.rt slot (.remove id)
    rw [performed] at opened
    exact congrArg Prod.snd opened
  have seen (other : EntityId) : row b.rt after other =
      if other = id then none else row b.rt db other := by
    rw [written, row_open { db with transaction := some (tx.removeByEntityId id) } connected rfl,
      row_open db connected slot]
    exact read_buffer (.remove id) tx rows other
  refine ⟨after, ?_, stays, fun other isGone => ?_, fun other kept => ?_⟩
  · have removed : db.remove id = (.ok (), after) := performed
    simp only [removeRow, removed]
  · rw [seen]
    split
    · rfl
    next different => exact without.absent other (isGone.resolve_right different)
  · rw [not_or] at kept
    rw [seen, if_neg kept.2, without.others other kept.1]

theorem removeKeyPackage_present (without : Without gone before db) {client : Bytes}
    {stored : Entity b.State} (found : row b.rt db ⟨.plain .keyPackage, hashRef⟩ = some stored)
    (read : deserKeyPackage (contentOf stored) = .ok keyPackage) :
    ∃ after, removeKeyPackage deserKeyPackage (some client) hashRef db = .ok () after ∧
      Without (fun id => gone id ∨ id ∈ keyPackage.rows hashRef) before after := by
  have loaded : loadKeyPackage deserKeyPackage hashRef db = .ok (some keyPackage) := by
    rw [loadKeyPackage, get_eq_row without.inside.healthy _ (by rintro ⟨⟩), found]
    simp only [Except.mapError, ok_bind, fromStored, read]
    rfl
  obtain ⟨first, removedFirst, withoutFirst⟩ := removeRow_without without
    "removing key package from keystore" ⟨.plain .keyPackage, hashRef⟩
  obtain ⟨second, removedSecond, withoutSecond⟩ := removeRow_without withoutFirst
    "removing private key from keystore" ⟨.plain .hpkePrivateKey, keyPackage.hpkeInitKey⟩
  obtain ⟨after, removedThird, withoutThird⟩ := removeRow_without withoutSecond
    "removing encryption keypair from keystore" ⟨.plain .encryptionKeyPair, keyPackage.encryptionKey⟩
  refine ⟨after, ?_, withoutThird.congr fun id => ?_⟩
  · refine (run_bind_ok rfl).trans ((run_bind_ok rfl).trans ?_)
    rw [loaded]
    exact (run_bind_ok rfl).trans
      ((run_bind_ok removedFirst).trans ((run_bind_ok removedSecond).trans removedThird))
  · simp [KeyPackage.rows, or_assoc]

theorem removeKeyPackage_absent (inside : Inside b.rt False False db) {client : Bytes}
    (absent : row b.rt db ⟨.plain .keyPackage, hashRef⟩ = none) :
    removeKeyPackage deserKeyPackage (some client) hashRef db = .ok () db := by
  refine (run_bind_ok rfl).trans ((run_bind_ok rfl).trans ?_)
  rw [loadKeyPackage, get_eq_row inside.healthy _ (by rintro ⟨⟩), absent]
  rfl

/-- A key package that is stored under its reference. -/
def Filed (deserKeyPackage : Bytes → Except Nat KeyPackage) (db : Database b.State)
    (keyPackage : KeyPackage) (hashRef : Bytes) : Prop :=
  keyPackage.hashRef = .ok hashRef ∧ ∃ stored,
    row b.rt db ⟨.plain .keyPackage, hashRef⟩ = some stored ∧
      deserKeyPackage (contentOf stored) = .ok keyPackage

/-- Where the row of a key package is gone, its private keys are gone. -/
def GoneTogether (deserKeyPackage : Bytes → Except Nat KeyPackage) (before : Database b.State)
    (gone : EntityId → Prop) : Prop :=
  ∀ keyPackage hashRef, Filed deserKeyPackage before keyPackage hashRef →
    gone ⟨.plain .keyPackage, hashRef⟩ → ∀ id ∈ keyPackage.rows hashRef, gone id

theorem Filed.unique {first second : KeyPackage} (one : Filed deserKeyPackage before first hashRef)
    (other : Filed deserKeyPackage before second hashRef) : first = second := by
  obtain ⟨-, stored, found, read⟩ := one
  obtain ⟨-, stored', found', read'⟩ := other
  cases found.symm.trans found'
  cases read.symm.trans read'
  rfl

theorem GoneTogether.add (together : GoneTogether deserKeyPackage before gone)
    (filed : Filed deserKeyPackage before keyPackage hashRef) :
    GoneTogether deserKeyPackage before fun id => gone id ∨ id ∈ keyPackage.rows hashRef := by
  intro other otherRef otherFiled isGone id member
  rcases isGone with isGone | isRow
  · exact .inl (together other otherRef otherFiled isGone id member)
  · have same : otherRef = hashRef := by simpa [KeyPackage.rows] using isRow
    subst same
    cases otherFiled.unique filed
    exact .inr member

theorem retainError_filed (without : Without gone before db)
    (together : GoneTogether deserKeyPackage before gone) (client : Bytes)
    (filed : Filed deserKeyPackage before keyPackage hashRef) :
    ∃ after, retainError deserKeyPackage (some client) none keyPackage db = .ok none after ∧
      Without (fun id => gone id ∨ id ∈ keyPackage.rows hashRef) before after := by
  have removes : ∃ after, removeKeyPackage deserKeyPackage (some client) hashRef db = .ok () after ∧
      Without (fun id => gone id ∨ id ∈ keyPackage.rows hashRef) before after := by
    by_cases isGone : gone ⟨.plain .keyPackage, hashRef⟩
    · refine ⟨db, removeKeyPackage_absent without.inside (without.absent _ isGone),
        without.congr fun id => ?_⟩
      exact or_iff_left_of_imp (together keyPackage hashRef filed isGone id)
    · obtain ⟨-, stored, found, read⟩ := filed
      rw [← without.others _ isGone] at found
      exact removeKeyPackage_present without found read
  obtain ⟨after, removed, withoutAfter⟩ := removes
  refine ⟨after, ?_, withoutAfter⟩
  have attempted : (attempt (removeKeyPackage deserKeyPackage (some client) hashRef) :
      RemovalM b _) db = .ok (.ok ()) after := by
    simp only [attempt, removed]
  unfold retainError
  rw [filed.1]
  exact run_bind_ok attempted

theorem retainErrors_filed (client : Bytes) {keyPackages : List KeyPackage}
    (filed : ∀ keyPackage ∈ keyPackages, ∃ hashRef,
      Filed deserKeyPackage before keyPackage hashRef)
    (without : Without gone before db) (together : GoneTogether deserKeyPackage before gone) :
    ∃ after, keyPackages.foldlM (retainError deserKeyPackage (some client)) none db =
        .ok none after ∧
      Without (fun id => gone id ∨ ∃ keyPackage ∈ keyPackages, ∃ hashRef,
        keyPackage.hashRef = .ok hashRef ∧ id ∈ keyPackage.rows hashRef) before after := by
  induction keyPackages generalizing db gone with
  | nil => exact ⟨db, rfl, without.congr fun id => by simp⟩
  | cons keyPackage rest ih =>
    obtain ⟨hashRef, isFiled⟩ := filed keyPackage List.mem_cons_self
    obtain ⟨middle, first, withoutMiddle⟩ := retainError_filed without together client isFiled
    obtain ⟨after, others, withoutAfter⟩ := ih
      (fun other member => filed other (List.mem_cons_of_mem _ member)) withoutMiddle
      (together.add isFiled)
    refine ⟨after, ?_, withoutAfter.congr fun id => ?_⟩
    · rw [List.foldlM_cons]
      exact (run_bind_ok first).trans others
    · simp [isFiled.1, or_assoc]

/-- Key packages are stored under their references, as OpenMLS does it. -/
def StoredByReference (deserKeyPackage : Bytes → Except Nat KeyPackage) (db : Database b.State) :
    Prop :=
  ∀ hashRef content keyPackage, Listed db (.plain .keyPackage hashRef content) →
    deserKeyPackage content = .ok keyPackage → keyPackage.hashRef = .ok hashRef

variable (deserKeyPackage) in
theorem mem_keyPackages {rows : List (Entity b.State)} (inside : Inside b.rt False False db)
    (loaded : db.loadAll b.rt (.plain .keyPackage) = .ok rows) (keyPackage : KeyPackage) :
    keyPackage ∈ rows.filterMap (fun row => (fromStored deserKeyPackage row).toOption) ↔
      ∃ hashRef content, Listed db (.plain .keyPackage hashRef content) ∧
        deserKeyPackage content = .ok keyPackage := by
  have read (stored : Entity b.State) : (fromStored deserKeyPackage stored).toOption =
      some keyPackage ↔ deserKeyPackage (contentOf stored) = .ok keyPackage := by
    rw [fromStored]
    cases deserKeyPackage (contentOf stored) <;> simp [Except.mapError, Except.toOption]
  simp only [List.mem_filterMap, read, ← mem_rows_iff loaded (.plain .keyPackage _ _) rfl]
  constructor
  · rintro ⟨stored, member, isRead⟩
    obtain ⟨rows', loaded', listed⟩ := loadAll_rows inside.healthy (.plain .keyPackage) rfl
    cases loaded.symm.trans loaded'
    obtain ⟨isTyp, -⟩ := (listed stored).mp member
    cases stored with
    | plain collection key content =>
      cases isTyp
      exact ⟨key, content, member, isRead⟩
    | _ => cases isTyp
  · rintro ⟨hashRef, content, member, isRead⟩
    exact ⟨_, member, isRead⟩

theorem listed_row (inside : Inside b.rt False False db) {entity : Entity b.State}
    (upsert : replaced entity.typ) :
    Listed db entity ↔ row b.rt db (b.rt.fromEntity entity) = some entity := by
  obtain ⟨rows, loaded, listed⟩ := loadAll_rows inside.healthy entity.typ upsert
  rw [← mem_rows_iff loaded entity rfl, listed]
  exact and_iff_right rfl

theorem removeKeyPackagesFor_removes (inside : Inside b.rt False False db)
    (stored : StoredByReference deserKeyPackage db) {credentialRef : CredentialRef}
    {credential : Credential} (loaded : credentialRef.load mls db = .ok credential)
    (client : Bytes) :
    ∃ after, removeKeyPackagesFor mls deserKeyPackage (some client) credentialRef db =
        .ok () after ∧
      Without (MadeWith deserKeyPackage db credential.publicKey) db after := by
  obtain ⟨rows, listed⟩ := loadAll_connected inside.healthy.connected (.plain .keyPackage)
  have members := mem_keyPackages deserKeyPackage inside listed
  have got : getKeyPackages deserKeyPackage db =
      .ok (rows.filterMap fun row => (fromStored deserKeyPackage row).toOption) := by
    rw [getKeyPackages, listed]
    rfl
  have start : Without (fun _ => False) db db := ⟨inside, nofun, fun _ _ => rfl⟩
  have filed : ∀ keyPackage ∈ (rows.filterMap fun row =>
      (fromStored deserKeyPackage row).toOption).filter fun keyPackage =>
        keyPackage.signatureKey = credential.publicKey,
      ∃ hashRef, Filed deserKeyPackage db keyPackage hashRef := by
    intro keyPackage member
    obtain ⟨hashRef, content, isListed, read⟩ := (members keyPackage).mp (List.mem_filter.mp member).1
    exact ⟨hashRef, stored hashRef content keyPackage isListed read, _,
      (listed_row inside rfl).mp isListed, read⟩
  obtain ⟨after, removed, without⟩ := retainErrors_filed client filed start nofun
  refine ⟨after, ?_, without.congr fun id => ?_⟩
  · refine (run_bind_ok rfl).trans ?_
    rw [loaded]
    refine (run_bind_ok rfl).trans ((run_bind_ok rfl).trans ((run_bind_ok rfl).trans ?_))
    rw [got]
    exact (run_bind_ok rfl).trans (run_bind_ok removed)
  · simp only [false_or, List.mem_filter, members, decide_eq_true_eq, MadeWith]
    constructor
    · rintro ⟨hashRef, content, keyPackage, isListed, read, made, member⟩
      exact ⟨keyPackage, ⟨⟨hashRef, content, isListed, read⟩, made⟩, hashRef,
        stored hashRef content keyPackage isListed read, member⟩
    · rintro ⟨keyPackage, ⟨⟨hashRef, content, isListed, read⟩, made⟩, hashRef', isRef, member⟩
      cases (stored hashRef content keyPackage isListed read).symm.trans isRef
      exact ⟨hashRef, content, keyPackage, isListed, read, made, member⟩

end Rows

/-! ### The removal -/

section Outcome

variable {mls : MlsLibrary b} {deserKeyPackage : Bytes → Except Nat KeyPackage}
  {session : Option Bytes} {credentialRef : CredentialRef} {db : Database b.State}
  {leaf : CredentialWithKey}

theorem load_eq_ok {credential : Credential} :
    credentialRef.load mls db = .ok credential ↔
      ∃ stored, RefersTo credentialRef db stored ∧ Credential.tryFrom mls stored = .ok credential := by
  unfold CredentialRef.load RefersTo
  cases got : db.get b.rt ⟨.storedCredential, credentialRef.publicKeyHash⟩ with
  | error e => simp [Except.mapError]
  | ok found =>
    rw [Except.mapError, ok_bind]
    cases found with
    | none => simp [throw, throwThe, MonadExceptOf.throw]
    | some entity => cases entity <;> simp [Entity.credential?, mapError_eq_ok, throw, throwThe,
        MonadExceptOf.throw]

variable (mls deserKeyPackage credentialRef) in
/-- What is done once no conversation carries the credential. -/
def removeBelonging (credential : Credential) : RemovalM b Unit := do
  removeKeyPackagesFor mls deserKeyPackage (some credentialRef.clientId) credentialRef
  EStateM.adaptExcept (.recursive "deleting credential from keystore")
    (removeRow "deleting credential" ⟨.storedCredential, b.rt.sha256 credential.publicKey⟩)

/-- The removal of a credential of the own client, up to the first write. -/
theorem removeCredential_own :
    removeCredential mls deserKeyPackage (some credentialRef.clientId) credentialRef db =
      match credentialRef.load mls db with
      | .error e => .error (.recursive
          "loading all credentials from ref to remove from session identities" e) db
      | .ok credential =>
        match loadAllConversations mls db with
        | .error e => .error (.recursive
            "loading all conversations to check if the credential to be removed is present" e) db
        | .ok conversations =>
          match ensureUnused mls credential conversations with
          | .error e => .error e db
          | .ok () => removeBelonging mls deserKeyPackage credentialRef credential db := by
  refine (run_bind_ok rfl).trans ?_
  rw [if_neg (not_not.mpr rfl)]
  refine (run_bind_ok rfl).trans ?_
  cases credentialRef.load mls db with
  | error e => exact run_bind_error rfl
  | ok credential =>
    refine (run_bind_ok rfl).trans ((run_bind_ok rfl).trans ?_)
    cases loadAllConversations mls db with
    | error e => exact run_bind_error rfl
    | ok conversations =>
      refine (run_bind_ok rfl).trans ?_
      dsimp only
      cases ensureUnused mls credential conversations with
      | error e => exact run_bind_error rfl
      | ok _ => exact run_bind_ok rfl

theorem remove_belonging (inside : Inside b.rt False False db)
    (filed : StoredByReference deserKeyPackage db) {credential : Credential}
    (loaded : credentialRef.load mls db = .ok credential) :
    ∃ after, removeBelonging mls deserKeyPackage credentialRef credential db = .ok () after ∧
      Without (Belongs deserKeyPackage credentialRef db) db after := by
  obtain ⟨stored, refers, read⟩ := load_eq_ok.mp loaded
  have publicKey := (Credential.tryFrom_eq_ok read).2.1
  have hash : b.rt.sha256 credential.publicKey = credentialRef.publicKeyHash := by
    rw [RefersTo, get_eq_row inside.healthy _ (by rintro ⟨⟩)] at refers
    rw [publicKey]
    exact congrArg EntityId.id (row_id inside.healthy (Except.ok.inj refers))
  obtain ⟨middle, removed, without⟩ :=
    removeKeyPackagesFor_removes inside filed loaded credentialRef.clientId
  obtain ⟨after, deleted, withoutAfter⟩ := removeRow_without without "deleting credential"
    ⟨.storedCredential, b.rt.sha256 credential.publicKey⟩
  refine ⟨after, (run_bind_ok removed).trans ?_, withoutAfter.congr fun id => ?_⟩
  · simp only [EStateM.adaptExcept, deleted]
  · have only (other : StoredCredential) (refersOther : RefersTo credentialRef db other) :
        other.publicKey = credential.publicKey := by
      cases refers.symm.trans refersOther
      exact publicKey.symm
    rw [hash, Belongs, or_comm]
    refine or_congr_left ⟨?_, fun made => ⟨stored, refers, publicKey ▸ made⟩⟩
    rintro ⟨other, refersOther, made⟩
    exact only other refersOther ▸ made

variable (mls session credentialRef) in
/-- A failed removal leaves the database, and refuses exactly the credentials that are matched.
Other removals take away what belongs to the credential. -/
theorem removeCredential_cases (inside : Inside b.rt False False db)
    (filed : StoredByReference deserKeyPackage db) :
    (∃ e, removeCredential mls deserKeyPackage session credentialRef db = .error e db ∧
        ((∃ id, e = .credentialStillInUse id) ↔ Matched mls session credentialRef db)) ∨
      ¬ Matched mls session credentialRef db ∧ ∃ after,
        removeCredential mls deserKeyPackage session credentialRef db = .ok () after ∧
          Without (Belongs deserKeyPackage credentialRef db) db after := by
  cases session with
  | none => exact .inl ⟨_, run_bind_error rfl, by simp [Matched]⟩
  | some client =>
    by_cases wrong : credentialRef.clientId ≠ client
    · refine .inl ⟨.wrongCredential, (run_bind_ok rfl).trans ?_, ?_⟩
      · rw [if_pos wrong]
        rfl
      · simp [Matched, Ne.symm wrong]
    · obtain rfl := not_not.mp wrong
      rw [removeCredential_own]
      cases loaded : credentialRef.load mls db with
      | error e => exact .inl ⟨_, rfl, by simp [Matched, loaded]⟩
      | ok credential =>
        cases restored : loadAllConversations mls db with
        | error e => exact .inl ⟨_, rfl, by simp [Matched, restored]⟩
        | ok conversations =>
          dsimp only
          have matched : Matched mls (some credentialRef.clientId) credentialRef db ↔
            Carried mls credential conversations := by simp [Matched, loaded, restored]
          rw [matched, ← ensureUnused_refuses_iff]
          cases unused : ensureUnused mls credential conversations with
          | error e => exact .inl ⟨e, rfl, by simp⟩
          | ok _ => exact .inr ⟨nofun, remove_belonging inside filed loaded⟩

theorem usesKey_currentLeaf {group : b.Group}
    (current : currentLeaf group = some leaf) : UsesKey group leaf.signatureKey := by
  rcases Option.or_eq_some_iff.mp current with last | ⟨-, own⟩
  · obtain ⟨pending, member, updates⟩ := List.mem_filterMap.mp (List.mem_of_getLast? last)
    refine .inr ⟨pending, member, ?_⟩
    split at updates
    next index leafNode isMember isUpdate =>
      split at updates
      next isOwn =>
        cases updates
        exact ⟨isOwn ▸ isMember, leaf, isUpdate, rfl⟩
      next => cases updates
    next => cases updates
  · exact .inl ⟨leaf, own, rfl⟩

theorem stored_of_found {group : b.Group} {credential : Credential}
    (current : currentLeaf group = some leaf)
    (found : findCurrentCredential mls db group = .ok credential) :
    ∃ stored, db.get b.rt ⟨.storedCredential, b.rt.sha256 leaf.signatureKey⟩ =
      .ok (some (.storedCredential stored)) := by
  simp only [findCurrentCredential, current, mapError_eq_ok, Credential.findByPublicKey] at found
  obtain ⟨row, got, found⟩ := bind_eq_ok found
  rw [mapError_eq_ok.mp got]
  cases row with
  | none => cases found
  | some entity => cases entity <;> first | exact ⟨_, rfl⟩ | cases found

theorem findCurrentCredential_congr {after : Database b.State} {group : b.Group}
    (same : ∀ leaf, currentLeaf group = some leaf →
      after.get b.rt ⟨.storedCredential, b.rt.sha256 leaf.signatureKey⟩ =
        db.get b.rt ⟨.storedCredential, b.rt.sha256 leaf.signatureKey⟩) :
    findCurrentCredential mls after group = findCurrentCredential mls db group := by
  unfold findCurrentCredential
  cases current : currentLeaf group with
  | none => rfl
  | some leaf =>
    dsimp only
    rw [Credential.findByPublicKey, Credential.findByPublicKey, same leaf current]

theorem typ_of_belongs {id : EntityId} (belongs : Belongs deserKeyPackage credentialRef db id) :
    id.typ ≠ .persistedMlsGroup := by
  rcases belongs with rfl | ⟨stored, -, hashRef, content, keyPackage, -, -, -, member⟩
  · simp
  · simp only [KeyPackage.rows, List.mem_cons, List.not_mem_nil, or_false] at member
    rcases member with rfl | rfl | rfl <;> simp

theorem hash_of_belongs {hash : Bytes}
    (belongs : Belongs deserKeyPackage credentialRef db ⟨.storedCredential, hash⟩) :
    hash = credentialRef.publicKeyHash := by
  rcases belongs with same | ⟨stored, -, hashRef, content, keyPackage, -, -, -, member⟩
  · exact congrArg EntityId.id same
  · simp [KeyPackage.rows] at member

/-- Conversations that do not use the key do not miss the credential. -/
theorem finds_after_removal {after : Database b.State} (inside : Inside b.rt False False db)
    (collisionFree : Function.Injective b.rt.sha256)
    (without : Without (Belongs deserKeyPackage credentialRef db) db after)
    (unused : ¬ InUse credentialRef db) {group : b.Group} (conversation : IsConversation after group)
    {credential : Credential} (found : findCurrentCredential mls db group = .ok credential) :
    findCurrentCredential mls after group = .ok credential := by
  rw [← found]
  refine findCurrentCredential_congr fun leaf current => ?_
  rw [get_eq_row inside.healthy _ (by rintro ⟨⟩),
    get_eq_row without.inside.healthy _ (by rintro ⟨⟩), without.others]
  intro belongs
  have hash := hash_of_belongs belongs
  obtain ⟨stored, got⟩ := stored_of_found current found
  have key : stored.publicKey = leaf.signatureKey := by
    rw [get_eq_row inside.healthy _ (by rintro ⟨⟩)] at got
    exact collisionFree (congrArg EntityId.id (row_id inside.healthy (Except.ok.inj got)))
  obtain ⟨id, state, parent, listed, read⟩ := conversation
  rw [listed_row without.inside rfl, without.others _ fun belongs => typ_of_belongs belongs rfl,
    ← listed_row inside rfl] at listed
  refine unused ⟨stored, group, ?_, .inl ⟨id, state, parent, listed, read⟩, ?_⟩
  · rw [RefersTo, ← hash]
    exact got
  · rw [key]
    exact usesKey_currentLeaf current

/-! A store to evaluate the removal on: basic credentials of one client, told apart by their keys. -/

def noKeyPackages (_ : Bytes) : Except Nat KeyPackage := .error 0

def basicCredential (key : UInt8) : StoredCredential := ⟨[7], [7], 0, 1, [key], [key]⟩

def basicRef (key : UInt8) : CredentialRef := ⟨[7], [key], .basic, 1, 0⟩

/-- A group whose own leaf has the key. -/
def groupOf (key : UInt8) : Sample.Group :=
  { Sample.newGroup [42] 1 5 with ownLeaf := some ⟨[7], [], [key]⟩ }

def inTransaction (rows : List (Entity sampleBackend.State)) : Database sampleBackend.State :=
  ⟨some rows, some .new, 0⟩

/-- A conversation with the key of the only credential. -/
def usingDatabase : Database sampleBackend.State :=
  inTransaction [.storedCredential (basicCredential 2), .persistedMlsGroup [42] (groupOf 2) none]

/-- A conversation with the key of one of two credentials. -/
def twinDatabase : Database sampleBackend.State :=
  inTransaction [.storedCredential (basicCredential 1), .storedCredential (basicCredential 2),
    .persistedMlsGroup [42] (groupOf 1) none]

/-- A pending conversation with the key of the only credential. -/
def joiningDatabase : Database sampleBackend.State :=
  inTransaction [.storedCredential (basicCredential 2),
    .persistedMlsPendingGroup [42] (groupOf 2) none []]

variable (mls deserKeyPackage session credentialRef) in
/-- In one order of the map, a removal is sound exactly where the two notions of use agree. -/
theorem removalSound_iff_matched (healthy : Healthy b.rt db)
    (opened : db.transaction.isSome) (filed : StoredByReference deserKeyPackage db)
    (collisionFree : Function.Injective b.rt.sha256) :
    RemovalSound mls deserKeyPackage session credentialRef db ↔
      (Matched mls session credentialRef db ↔ InUse credentialRef db) := by
  have inside : Inside b.rt False False db := ⟨healthy, opened, False.elim, False.elim⟩
  rcases removeCredential_cases mls session credentialRef inside filed with ⟨e, failed, refuses⟩ | ⟨unmatched, after, removed, without⟩
  · constructor
    · intro sound
      have refused := sound.refused
      simp only [outcome, failed, Except.error.injEq] at refused
      exact refuses.symm.trans refused
    · intro agree
      refine ⟨?_, ?_, ?_, ?_, ?_⟩ <;> simp only [outcome, finalState, failed]
      · simpa only [Except.error.injEq] using refuses.trans agree
      · exact fun _ _ => trivial
      all_goals rintro ⟨⟩
  · constructor
    · intro sound
      have refused := sound.refused
      simp only [outcome, removed] at refused
      exact iff_of_false unmatched fun used => by
        obtain ⟨id, impossible⟩ := refused.mpr used
        cases impossible
    · intro agree
      have unused : ¬ InUse credentialRef db := fun used => unmatched (agree.mpr used)
      refine ⟨?_, ?_, ?_, ?_, ?_⟩ <;> simp only [outcome, finalState, removed]
      · exact iff_of_false (by rintro ⟨id, ⟨⟩⟩) unused
      · rintro id ⟨⟩
      · exact fun _ => without.absent
      · exact fun _ => without.others
      · rintro _ group conversation ⟨credential, found⟩
        exact ⟨credential,
          finds_after_removal inside collisionFree without unused conversation found⟩

theorem matched_iff (connected : db.conn.isSome) : Matched mls session credentialRef db ↔
    session = some credentialRef.clientId ∧ Restorable db ∧ ∃ credential conversations,
      credentialRef.load mls db = .ok credential ∧
      loadAllConversations mls db = .ok conversations ∧ Carried mls credential conversations := by
  refine and_congr_right fun _ => ⟨?_, fun matched => matched.2⟩
  rintro ⟨credential, conversations, loaded, restored, carried⟩
  exact ⟨(loadAllConversations_succeeds_iff connected).mp ⟨_, restored⟩, credential, conversations,
    loaded, restored, carried⟩

theorem carries_of_carried (connected : db.conn.isSome) {credential : Credential}
    {conversations : List (ConversationId × b.Group)}
    (loaded : credentialRef.load mls db = .ok credential)
    (restored : loadAllConversations mls db = .ok conversations)
    (carried : Carried mls credential conversations) : Carries mls credentialRef db := by
  obtain ⟨stored, refers, read⟩ := load_eq_ok.mp loaded
  obtain ⟨earlier, ⟨id, group⟩, later, leaf, rfl, own, carries, -⟩ := carried
  obtain ⟨state, parent, listed, isGroup⟩ :=
    (mem_loadAllConversations connected restored id group).mp (by simp)
  exact ⟨stored, credential, group, leaf, refers, read, ⟨id, state, parent, listed, isGroup⟩, own,
    carries⟩

/-- Where every own leaf is present, every order of the map meets the leaf that carries the
credential. -/
theorem matched_of_carries (connected : db.conn.isSome)
    (own : session = some credentialRef.clientId) (restorable : Restorable db)
    (leaves : ∀ group, IsConversation db group → group.ownLeaf.isSome)
    (carries : Carries mls credentialRef db) : Matched mls session credentialRef db := by
  obtain ⟨conversations, restored⟩ : ∃ conversations, loadAllConversations mls db =
      .ok conversations := (loadAllConversations_succeeds_iff connected).mpr restorable
  have members := mem_loadAllConversations connected restored
  obtain ⟨stored, credential, group, leaf, refers, read, ⟨id, state, parent, listed, isGroup⟩,
    isOwn, same⟩ := carries
  refine ⟨own, credential, conversations, load_eq_ok.mpr ⟨stored, refers, read⟩, restored,
    carried_of_mem ((members id group).mpr ⟨state, parent, listed, isGroup⟩) isOwn same ?_⟩
  rintro ⟨id, group⟩ member
  obtain ⟨state, parent, listed, isGroup⟩ := (members id group).mp member
  exact leaves group ⟨id, state, parent, listed, isGroup⟩

/-- The library with the map in another order. -/
def MlsLibrary.inOrder (mls : MlsLibrary b)
    (order : List (ConversationId × b.Group) → List (ConversationId × b.Group))
    (isOrder : ∀ conversations, (order conversations).Perm conversations) : MlsLibrary b :=
  { mls with conversationOrder := order, conversationOrder_perm := isOrder }

/-- In some order a conversation comes first. -/
theorem exists_order_first (conversation : ConversationId × b.Group) :
    ∃ (order : List (ConversationId × b.Group) → List (ConversationId × b.Group)),
      (∀ conversations, (order conversations).Perm conversations) ∧
        ∀ conversations, conversation ∈ conversations →
          ∃ rest, order conversations = conversation :: rest := by
  classical
  refine ⟨fun conversations => if conversation ∈ conversations
    then conversation :: conversations.erase conversation else conversations, ?_, ?_⟩
  · intro conversations
    dsimp only
    split
    next member => exact (List.perm_cons_erase member).symm
    next => exact .refl _
  · exact fun conversations member => ⟨_, if_pos member⟩

/-- A conversation can be the first one that the check meets. -/
theorem exists_met_first (mls : MlsLibrary b) (connected : db.conn.isSome)
    (restorable : Restorable db) {group : b.Group} (isConversation : IsConversation db group) :
    ∃ order isOrder id rest,
      loadAllConversations (mls.inOrder order isOrder) db = .ok ((id, group) :: rest) := by
  obtain ⟨id, state, parent, listed, isGroup⟩ := isConversation
  obtain ⟨order, isOrder, first⟩ := exists_order_first (b := b) (id, group)
  obtain ⟨rows, loaded⟩ := loadAll_connected connected .persistedMlsGroup
  obtain ⟨conversations, restored⟩ : ∃ conversations,
      loadAllConversations (mls.inOrder order isOrder) db = .ok conversations :=
    (loadAllConversations_succeeds_iff connected).mpr restorable
  have member := (mem_loadAllConversations connected restored id group).mpr
    ⟨state, parent, listed, isGroup⟩
  rw [loadAllConversations_eq loaded] at restored
  cases groups : restoreGroups rows with
  | error e => simp [groups, Except.map] at restored
  | ok found =>
    rw [groups] at restored
    cases restored
    obtain ⟨rest, isFirst⟩ := first found ((isOrder found).mem_iff.mp member)
    refine ⟨order, isOrder, id, rest, ?_⟩
    rw [loadAllConversations_eq loaded, groups]
    exact congrArg Except.ok isFirst

end Outcome

end CoreCrypto.Credentials
