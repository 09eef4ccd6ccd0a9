import CoreCrypto.Credentials.Stored
import CoreCrypto.Keystore.InsertOnly

/-!
# X509 credentials in the keystore

A credential is made from a certificate chain, saved into the open transaction, and read again
through its reference or by its public key.  The signature scheme of its key pair is that of the
leaf certificate when it is made, and that of the cipher suite when it is read.  A save is accepted
even if a row with the same key is stored already, and the commit then fails.
-/

namespace CoreCrypto.Credentials

open Keystore Library.Fallible

/-- A credential with the signature scheme, the third part of its `signature_key_pair`. -/
structure SigningCredential extends Credential where
  signatureScheme : Nat
  deriving DecidableEq, Repr

structure CertificateBundle where
  certificateChain : List Bytes
  privateKey : Bytes

/-- The libraries that read certificates and serialise credentials. -/
structure X509Library (b : Backend) extends MlsLibrary b where
  tlsSerialize : MlsCredential → Bytes
  signatureAlgorithm : Nat → Nat
  /-- `extract_created_at` of a certificate. -/
  createdAt : Bytes → Option Nat
  /-- The public key and the signature scheme that `CertificateKeyPair::new` takes from the leaf. -/
  leafKey : Bytes → Except Nat (Bytes × Nat)
  /-- The identity of `MlsCredential::new_x509`. -/
  x509Identity : List Bytes → Except Nat Bytes

variable {b : Backend} (lib : X509Library b)

/-- `Credential::x509`. -/
def Credential.x509 (cipherSuite : Nat) (cert : CertificateBundle) :
    Except Error SigningCredential := do
  match cert.certificateChain.head?.bind fun leaf => (lib.createdAt leaf).map (leaf, ·) with
  | none => throw (.recursive
      "getting credential 'not before' claim from leaf cert in Credential::x509" .invalidIdentity)
  | some (leaf, earliestValidity) =>
    let (publicKey, signatureScheme) ← (lib.leafKey leaf).mapError
      (.openMls "creating certificate key pair")
    let identity ← (lib.x509Identity cert.certificateChain).mapError
      (.openMls "creating x509 credential")
    return {
      cipherSuite
      credentialType := .x509
      mlsCredential := .x509 identity cert.certificateChain
      publicKey
      privateKey := cert.privateKey
      earliestValidity
      signatureScheme }

namespace SigningCredential

/-- The row of a credential that is saved at a time. -/
def row (now : Nat) (credential : SigningCredential) : StoredCredential where
  sessionId := credential.mlsCredential.identity
  credential := lib.tlsSerialize credential.mlsCredential
  createdAt := now
  ciphersuite := credential.cipherSuite
  publicKey := credential.publicKey
  privateKey := credential.privateKey

/-- `Credential::save`: the reference, and the credential with the time at which it was saved. -/
def save (now : Nat) (credential : SigningCredential) (db : Database b.State) :
    Except Error (CredentialRef × SigningCredential) × Database b.State :=
  match db.save b.rt (.storedCredential (credential.row lib now)) with
  | (.error e, db) => (.error (.keystore "saving credential" e), db)
  | (.ok (), db) =>
    let saved := { credential with earliestValidity := now }
    (.ok (.fromCredential b.rt.toHashes saved.toCredential, saved), db)

/-- Credentials are saved one after the other. -/
def saveAll (credentials : List (Nat × SigningCredential)) (db : Database b.State) :
    Database b.State :=
  credentials.foldl (fun db credential => (credential.2.save lib credential.1 db).2) db

/-- `try_from` makes the key pair with the scheme of the cipher suite. -/
def ofLoaded (credential : Credential) : SigningCredential :=
  ⟨credential, lib.signatureAlgorithm credential.cipherSuite⟩

/-- `CredentialRef::load` and `Credential::find_by_public_key` both yield this credential. -/
def FoundIn (db : Database b.State) (credentialRef : CredentialRef)
    (credential : SigningCredential) : Prop :=
  (credentialRef.load lib.toMlsLibrary db).map (ofLoaded lib) = .ok credential ∧
    (Credential.findByPublicKey lib.toMlsLibrary db credential.publicKey).map (ofLoaded lib) =
      .ok credential

/-- The credential is found while the transaction is open, the transaction can be committed, and the
credential is found after that. -/
structure Survives (db : Database b.State) (credentialRef : CredentialRef)
    (credential : SigningCredential) : Prop where
  opened : FoundIn lib db credentialRef credential
  commits : ∃ committed, db.CommitsTo b.rt committed
  committed : ∀ committed, db.CommitsTo b.rt committed →
    FoundIn lib committed credentialRef credential

end SigningCredential

/-! ### Reading what was saved -/

section Reads

variable {rt : Runtime b.State} {tx : KeystoreTransaction b.State} {rows : List (Entity b.State)}

/-- After some saves the row of an id is the one before, or one of those that were saved. -/
theorem read_saves_cases (rt : Runtime b.State) (tx : KeystoreTransaction b.State)
    (rows entities : List (Entity b.State)) (id : EntityId) :
    (∀ e ∈ entities, rt.fromEntity e ≠ id) ∧
        (entities.foldl (·.save rt ·) tx).read rt rows id = tx.read rt rows id ∨
      ∃ e ∈ entities, rt.fromEntity e = id ∧
        (entities.foldl (·.save rt ·) tx).read rt rows id = some e := by
  induction entities generalizing tx with
  | nil => exact .inl ⟨by simp, rfl⟩
  | cons e rest ih =>
    rw [List.foldl_cons]
    rcases ih (tx.save rt e) with ⟨none, same⟩ | ⟨later, member, isId, found⟩
    · by_cases isId : rt.fromEntity e = id
      · refine .inr ⟨e, by simp, isId, ?_⟩
        rw [same, ← isId, KeystoreTransaction.read_save_self]
      · refine .inl ⟨by simpa [isId] using none, ?_⟩
        rw [same, KeystoreTransaction.read_save_other _ _ (Ne.symm isId)]
    · exact .inr ⟨later, by simp [member], isId, found⟩

theorem wellKeyed_saves (entities : List (Entity b.State)) (keyed : tx.WellKeyed rt) :
    (entities.foldl (·.save rt ·) tx).WellKeyed rt := by
  induction entities generalizing tx with
  | nil => exact keyed
  | cons e rest ih => exact ih (tx.wellKeyed_save rt e keyed)

/-- While the transaction is open and after it was committed, a credential is read alike. -/
theorem get_credential {reached : Database b.State} {permits : Nat} (keyed : tx.WellKeyed rt)
    (reaches : reached = ⟨some rows, some tx, permits⟩ ∨
      (Database.mk (some rows) (some tx) permits).CommitsTo rt reached) (hash : Bytes) :
    reached.get rt ⟨.storedCredential, hash⟩ = .ok (tx.read rt rows ⟨.storedCredential, hash⟩) := by
  rcases reaches with rfl | ⟨_, _, saves, deletes, written, ⟨⟩, ⟨⟩, allSaves, allDeletes, executes, rfl⟩
  · exact Database.get_open rt rfl rfl (by rintro ⟨⟩)
  · rw [Database.get_idle rt rfl rfl (by rintro ⟨⟩)]
    congr 1
    exact tx.storedRow_executeIn rt rows written saves deletes _ keyed allSaves allDeletes
      ⟨by rintro ⟨⟩, fun _ _ => ⟨by rintro ⟨⟩, by rintro ⟨⟩⟩⟩ (by rintro ⟨⟩) executes

end Reads

/-! ### Committing -/

section Commits

variable {rt : Runtime b.State} {tx : KeystoreTransaction b.State} {rows : List (Entity b.State)}

theorem executeSave_succeeds_iff (rt : Runtime b.State) (rows : List (Entity b.State))
    (entity : Entity b.State) : (∃ saved, executeSave rt rows entity = .ok saved) ↔
      (entity.typ.saveMode = .insert → storedRow rt rows (rt.fromEntity entity) = none) := by
  by_cases insert : entity.typ.saveMode = .insert
  · simp [executeSave_insert rt rows _ entity insert, insert, Vacant, storedRow]
  · unfold executeSave
    split <;> simp_all

theorem saves_succeed_iff {saves : List (Entity b.State)} (rows : List (Entity b.State))
    (distinct : Library.DistinctKeys rt.fromEntity saves) :
    (∃ saved, saves.foldlM (executeSave rt) rows = .ok saved) ↔
      ∀ e ∈ saves, e.typ.saveMode = .insert → storedRow rt rows (rt.fromEntity e) = none := by
  induction saves generalizing rows with
  | nil => simp [pure, Except.pure]
  | cons entity rest ih =>
    rw [Library.DistinctKeys, List.map_cons, List.nodup_cons] at distinct
    rw [List.forall_mem_cons, ← executeSave_succeeds_iff, List.foldlM_cons]
    cases first : executeSave rt rows entity with
    | error error => simp [bind, Except.bind]
    | ok next =>
      -- a save leaves the rows of other ids, so that the later ones meet the same rows
      have others (e : Entity b.State) (member : e ∈ rest) :
          storedRow rt next (rt.fromEntity e) = storedRow rt rows (rt.fromEntity e) :=
        storedRow_executeSave_other rt rows next entity _
          (fun same => distinct.1 (same ▸ List.mem_map_of_mem member)) first
      have later := ih next distinct.2
      simp +contextual only [others] at later
      simpa [bind, Except.bind] using later

/-- No stored row has the id of a cached entity that can only be inserted. -/
def Insertable (rt : Runtime b.State) (rows : List (Entity b.State))
    (tx : KeystoreTransaction b.State) : Prop :=
  ∀ id, (tx.cache.lookup id).isSome → id.typ.saveMode = .insert → storedRow rt rows id = none

theorem commits_iff {p : Nat} (keyed : tx.WellKeyed rt) :
    (∃ committed, (Database.mk (some rows) (some tx) p).CommitsTo rt committed) ↔
      Insertable rt rows tx := by
  have succeeds := saves_succeed_iff rows (tx.values_nodup rt keyed)
  have cached : (∀ e ∈ rt.values tx.cache, e.typ.saveMode = .insert →
      storedRow rt rows (rt.fromEntity e) = none) ↔ Insertable rt rows tx := by
    constructor
    · intro each id isCached
      obtain ⟨entity, found⟩ := Option.isSome_iff_exists.mp isCached
      obtain rfl := tx.lookup_id keyed found
      exact each entity ((tx.mem_values rt entity).mpr ⟨_, found⟩)
    · intro insertable entity member
      obtain ⟨id, found⟩ := (tx.mem_values rt entity).mp member
      obtain rfl := tx.lookup_id keyed found
      exact insertable _ (Option.isSome_iff_exists.mpr ⟨_, found⟩)
  rw [← cached]
  constructor
  · rintro ⟨_, _, _, saves, deletes, written, ⟨⟩, ⟨⟩, allSaves, -, executes, -⟩
    obtain ⟨saved, savesOk, -⟩ := executeIn_eq_ok executes
    have distinct : Library.DistinctKeys rt.fromEntity saves :=
      (allSaves.map rt.fromEntity).nodup_iff.mpr (tx.values_nodup rt keyed)
    intro e member
    exact (saves_succeed_iff rows distinct).mp ⟨saved, savesOk⟩ e (allSaves.mem_iff.mpr member)
  · intro each
    obtain ⟨saved, savesOk⟩ := succeeds.mpr each
    exact ⟨_, _, _, _, _, _, rfl, rfl, .refl _, .refl _, by rw [executeIn, savesOk]; rfl, rfl⟩

theorem insertable_saves (rt : Runtime b.State) (rows : List (Entity b.State))
    (tx : KeystoreTransaction b.State) (entities : List (Entity b.State)) :
    Insertable rt rows (entities.foldl (·.save rt ·) tx) ↔ Insertable rt rows tx ∧
      ∀ e ∈ entities, e.typ.saveMode = .insert → storedRow rt rows (rt.fromEntity e) = none := by
  induction entities generalizing tx with
  | nil => simp
  | cons e rest ih =>
    have first : Insertable rt rows (tx.save rt e) ↔ Insertable rt rows tx ∧
        (e.typ.saveMode = .insert → storedRow rt rows (rt.fromEntity e) = none) := by
      simp only [Insertable, KeystoreTransaction.save]
      constructor
      · intro insertable
        refine ⟨fun id isCached => insertable id ?_, insertable (rt.fromEntity e) (by simp)⟩
        by_cases same : id = rt.fromEntity e
        · rw [same, AList.lookup_insert]
          rfl
        · rwa [AList.lookup_insert_ne same]
      · rintro ⟨older, newest⟩ id isCached
        by_cases same : id = rt.fromEntity e
        · exact same ▸ newest
        · exact older id (by rwa [AList.lookup_insert_ne same] at isCached)
    rw [List.foldl_cons, ih, first, List.forall_mem_cons, and_assoc]

end Commits

namespace SigningCredential

variable {lib} {credential : SigningCredential} {db : Database b.State}
  {tx : KeystoreTransaction b.State}

theorem save_open (opened : db.transaction = some tx) (now : Nat) :
    credential.save lib now db =
      (.ok (.fromCredential b.rt.toHashes { credential with earliestValidity := now }.toCredential,
        { credential with earliestValidity := now }),
        ⟨db.conn, some (tx.save b.rt (.storedCredential (credential.row lib now))), db.permits⟩) := by
  simp [save, Database.save, Database.modifyTransaction, opened]

theorem saveAll_open (credentials : List (Nat × SigningCredential))
    (opened : db.transaction = some tx) :
    saveAll lib credentials db = ⟨db.conn, some ((credentials.map fun credential =>
      Entity.storedCredential (credential.2.row lib credential.1)).foldl (·.save b.rt ·) tx),
      db.permits⟩ := by
  induction credentials generalizing db tx with
  | nil =>
    obtain ⟨conn, slot, permits⟩ := db
    cases opened
    rfl
  | cons first rest ih =>
    rw [saveAll, List.foldl_cons, save_open opened]
    exact ih rfl

theorem tryFrom_row (known : lib.knowsCipherSuite credential.cipherSuite) (now : Nat)
    (decodes : lib.tlsDeserialize (lib.tlsSerialize credential.mlsCredential) =
      some credential.mlsCredential) :
    Credential.tryFrom lib.toMlsLibrary (credential.row lib now) =
      .ok { credential.toCredential with
        credentialType := credential.mlsCredential.credentialType
        earliestValidity := now } := by
  simp [Credential.tryFrom, row, decodes, known]

theorem foundIn_iff {stored : StoredCredential} {credentialRef : CredentialRef}
    (isRef : credentialRef.publicKeyHash = b.rt.sha256 credential.publicKey)
    (found : db.get b.rt ⟨.storedCredential, b.rt.sha256 credential.publicKey⟩ =
      .ok (some (.storedCredential stored))) :
    FoundIn lib db credentialRef credential ↔
      ∃ loaded, Credential.tryFrom lib.toMlsLibrary stored = .ok loaded ∧
        ofLoaded lib loaded = credential := by
  rw [FoundIn, CredentialRef.load, Credential.findByPublicKey, isRef, found]
  cases made : Credential.tryFrom lib.toMlsLibrary stored <;>
    simp [Except.mapError, Except.map, Entity.credential?, made, bind, Except.bind]

theorem survives_iff {rows : List (Entity b.State)} {permits : Nat} {stored : StoredCredential}
    {credentialRef : CredentialRef} (keyed : tx.WellKeyed b.rt)
    (isRef : credentialRef.publicKeyHash = b.rt.sha256 credential.publicKey)
    (held : tx.read b.rt rows ⟨.storedCredential, b.rt.sha256 credential.publicKey⟩ =
      some (.storedCredential stored)) :
    Survives lib ⟨some rows, some tx, permits⟩ credentialRef credential ↔
      (∃ loaded, Credential.tryFrom lib.toMlsLibrary stored = .ok loaded ∧
        ofLoaded lib loaded = credential) ∧ Insertable b.rt rows tx := by
  have each (reached : Database b.State) (reaches : reached = ⟨some rows, some tx, permits⟩ ∨
      (Database.mk (some rows) (some tx) permits).CommitsTo b.rt reached) :
      FoundIn lib reached credentialRef credential ↔ _ :=
    foundIn_iff isRef (held ▸ get_credential keyed reaches _)
  rw [← commits_iff (p := permits) keyed]
  constructor
  · intro survives
    exact ⟨(each _ (.inl rfl)).mp survives.opened, survives.commits⟩
  · rintro ⟨made, commits⟩
    exact ⟨(each _ (.inl rfl)).mpr made, commits,
      fun committed commits => (each committed (.inr commits)).mpr made⟩

end SigningCredential

theorem x509_typed {lib : X509Library b} {cipherSuite : Nat} {cert : CertificateBundle}
    {credential : SigningCredential} (made : Credential.x509 lib cipherSuite cert = .ok credential) :
    credential.cipherSuite = cipherSuite ∧
      credential.credentialType = credential.mlsCredential.credentialType := by
  unfold Credential.x509 at made
  split at made
  · cases made
  · obtain ⟨key, -, rest⟩ := bind_eq_ok made
    obtain ⟨identity, -, ⟨⟩⟩ := bind_eq_ok rest
    exact ⟨rfl, rfl⟩

open SigningCredential

/-- **X509 credentials survive persistence** exactly when the signature scheme of the leaf certificate
is that of the cipher suite, no credential of another cipher suite is saved later whose public key
has the same hash, and no stored row has the key of a credential that is saved.  The database holds
any credentials before, in a transaction that could be committed. -/
theorem x509_survives_iff (lib : X509Library b) (db : Database b.State)
    (rows : List (Entity b.State)) (tx : KeystoreTransaction b.State)
    (connected : db.conn = some rows) (opened : db.transaction = some tx) (keyed : tx.WellKeyed b.rt)
    (committable : ∃ committed, db.CommitsTo b.rt committed)
    (cipherSuite : Nat) (known : lib.knowsCipherSuite cipherSuite) (cert : CertificateBundle)
    (credential : SigningCredential) (made : Credential.x509 lib cipherSuite cert = .ok credential)
    (decodes : lib.tlsDeserialize (lib.tlsSerialize credential.mlsCredential) =
      some credential.mlsCredential) (now : Nat) (others : List (Nat × SigningCredential))
    (otherSuites : ∀ other ∈ others, other.2.cipherSuite ≠ cipherSuite) :
    ∃ credentialRef saved after,
      credential.save lib now db = (.ok (credentialRef, saved), after) ∧
      (Survives lib (saveAll lib others after) credentialRef saved ↔
        credential.signatureScheme = lib.signatureAlgorithm cipherSuite ∧
          (∀ other ∈ others, b.rt.sha256 other.2.publicKey ≠ b.rt.sha256 credential.publicKey) ∧
          ∀ each ∈ (now, credential) :: others,
            storedRow b.rt rows ⟨.storedCredential, b.rt.sha256 each.2.publicKey⟩ = none) := by
  obtain ⟨rfl, typed⟩ := x509_typed made
  refine ⟨_, _, _, save_open opened now, ?_⟩
  obtain ⟨_, _, permits⟩ := db
  cases connected
  cases opened
  rw [saveAll_open others rfl]
  have keyedAfter := wellKeyed_saves (others.map fun other => Entity.storedCredential
    (other.2.row lib other.1)) (tx.wellKeyed_save b.rt (.storedCredential (credential.row lib now)) keyed)
  have vacant := insertable_saves b.rt rows tx (((now, credential) :: others).map fun each =>
    Entity.storedCredential (each.2.row lib each.1))
  simp only [and_iff_right ((commits_iff keyed).mp committable), List.forall_mem_map] at vacant
  rcases read_saves_cases b.rt (tx.save b.rt (.storedCredential (credential.row lib now))) rows
    (others.map fun other => Entity.storedCredential (other.2.row lib other.1))
    ⟨.storedCredential, b.rt.sha256 credential.publicKey⟩ with ⟨none, same⟩ | ⟨e, member, isId, last⟩
  · -- the row is the credential's own
    have own := same.trans (tx.read_save_self b.rt rows (.storedCredential (credential.row lib now)))
    refine Iff.trans (survives_iff keyedAfter rfl own) ?_
    rw [← and_assoc]
    refine and_congr ?_ (vacant.trans ⟨fun each e member => each e member rfl,
      fun each e member _ => each e member⟩)
    rw [tryFrom_row known now decodes]
    simp only [Except.ok.injEq, exists_eq_left', ofLoaded, ← typed]
    simp only [SigningCredential.mk.injEq, true_and]
    rw [eq_comm, and_iff_left]
    intro other isOther sameHash
    refine none _ (List.mem_map_of_mem isOther) ?_
    simp [Runtime.fromEntity, Entity.primaryKey, row, sameHash, Entity.typ]
  · -- the row is that of a credential that was saved later
    obtain ⟨other, isOther, rfl⟩ := List.mem_map.mp member
    refine Iff.trans (survives_iff keyedAfter rfl last) ?_
    have sameHash : b.rt.sha256 other.2.publicKey = b.rt.sha256 credential.publicKey :=
      congrArg EntityId.id isId
    refine iff_of_false ?_ fun condition => condition.2.1 other isOther sameHash
    rintro ⟨⟨loaded, made, isSaved⟩, -⟩
    have suite := congrArg (·.cipherSuite) isSaved
    exact otherSuites other isOther ((Credential.tryFrom_eq_ok made).2.2.symm.trans suite)

/-- One certificate, with an Ed25519 key. -/
def edLibrary : X509Library sampleBackend where
  toMlsLibrary := { basicLibrary with tlsDeserialize := fun identity => some (.x509 identity [[5]]) }
  tlsSerialize := MlsCredential.identity
  signatureAlgorithm suite := if suite = 2 then 0x0403 else 0x0807
  createdAt _ := some 0
  leafKey leaf := .ok (leaf, 0x0807)
  x509Identity _ := .ok [9]

def edCredential (cipherSuite : Nat) : SigningCredential :=
  ⟨⟨cipherSuite, .x509, .x509 [9] [[5]], [5], [6], 0⟩, 0x0807⟩

theorem committable_new (rows : List (Entity sampleBackend.State)) :
    ∃ committed, (Database.mk (some rows) (some .new) 0).CommitsTo sampleBackend.rt committed :=
  (commits_iff (KeystoreTransaction.wellKeyed_new _)).mpr fun id cached => by
    simp [KeystoreTransaction.new] at cached

/-- Over a stored credential with another key, and followed by one of another cipher suite. -/
theorem x509_survives_iff_sample :
    ∃ credentialRef saved after, (edCredential 1).save edLibrary 3
        ⟨some [.storedCredential ⟨[9], [9], 0, 1, [4], [4]⟩], some .new, 0⟩ =
        (.ok (credentialRef, saved), after) ∧
      Survives edLibrary (saveAll edLibrary [(4, { edCredential 2 with publicKey := [7] })] after)
        credentialRef saved := by
  obtain ⟨credentialRef, saved, after, saves, found⟩ := x509_survives_iff edLibrary
    ⟨some [.storedCredential ⟨[9], [9], 0, 1, [4], [4]⟩], some .new, 0⟩ _ .new rfl rfl
    (KeystoreTransaction.wellKeyed_new _) (committable_new _) 1 rfl ⟨[[5]], [6]⟩ (edCredential 1) rfl
    rfl 3 [(4, { edCredential 2 with publicKey := [7] })] (by decide)
  exact ⟨credentialRef, saved, after, saves, found.mpr ⟨rfl, by decide, by decide⟩⟩

/-- A credential with an Ed25519 certificate is accepted for a cipher suite with P-256 signatures, and
has the scheme of the cipher suite after it was saved and loaded.  One whose key is stored for another
cipher suite is saved, but the transaction can no longer be committed. -/
theorem ed25519_credential_loaded_as_p256 :
    (Credential.x509 edLibrary 2 ⟨[[5]], [6]⟩ = .ok (edCredential 2) ∧
      ∃ credentialRef saved after, (edCredential 2).save edLibrary 3 ⟨some [], some .new, 0⟩ =
          (.ok (credentialRef, saved), after) ∧ saved.signatureScheme = 0x0807 ∧
        ((credentialRef.load edLibrary.toMlsLibrary after).map (ofLoaded edLibrary)).map
          (·.signatureScheme) = .ok 0x0403) ∧
    ∃ result after, (edCredential 1).save edLibrary 3
        ⟨some [.storedCredential ((edCredential 3).row edLibrary 0)], some .new, 0⟩ =
          (.ok result, after) ∧
      (after.commitTransaction sampleBackend.rt none).1 = .error (.rusqliteError 2067) :=
  ⟨⟨rfl, _, _, _, rfl, rfl, rfl⟩, _, _, rfl, rfl⟩

end CoreCrypto.Credentials
