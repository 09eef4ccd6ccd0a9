import CoreCrypto.Credentials.Stored
import CoreCrypto.Pki.Restored

/-!
# Checking the credentials

`check_credentials` deletes the stored revocation lists of all distribution points that it does not
know to be relevant.  It looks at the trust anchors and the chains of the credentials, and not at
the intermediates, for which `add_intermediate_cert` stores lists as well.
-/

namespace CoreCrypto.Credentials

open Keystore Library Library.Fallible Pki Revocation

variable {b : Backend}

/-! ### The distribution points of certificates -/

section Uris

variable (mls : MlsLibrary b) (x : X509) (out : Surroundings)

/-- The distribution points of one certificate of a chain. -/
def derCrlUris (der : Bytes) : Except Error (List String) :=
  match x.certFromDer der with
  | none => .error .decodeX509
  | some cert =>
    (extractCrlUris x out cert).mapError fun e => .recursive "extracting crl urls" (.x509Check e)

/-- `extract_dp`. -/
def extractDp (certificates : List Bytes) : Except Error (List String) :=
  extendAll (derCrlUris x out) [] certificates

/-- What a credential adds to the URIs: nothing, if it has no certificates. -/
def credentialCrlUris : MlsCredential → Except Error (List String)
  | .basic _ => .ok []
  | .x509 _ certificates => extractDp x out certificates

def extractCrlUrisFromCredentials (credentials : List MlsCredential) :
    Except Error (List String) :=
  extendAll (credentialCrlUris x out) [] credentials

/-- `members_credentials`. -/
def membersCredentials (group : b.Group) : List MlsCredential :=
  group.members.map fun member => mls.credentialOf member.credential

def extractCrlUrisFromGroup (group : b.Group) : Except Error (List String) :=
  extractCrlUrisFromCredentials x out (membersCredentials mls group)

def getCrlUris (trustAnchors : List Certificate) (credentials : List Credential)
    (conversations : List b.Group) : Except Error (List String) := do
  let mlsCredentials := (credentials.filter fun credential =>
    credential.credentialType = .x509).map Credential.mlsCredential
  let crlUris ← (extractCrlUrisFromCredentials x out mlsCredentials).mapError
    (.recursive "extracting CRL URLs from stored credentials")
  let crlUris ← extendAll (fun trustAnchor => (extractCrlUris x out trustAnchor).mapError fun e =>
    Error.recursive "extracting CRL URL from trust anchor" (.x509Check e)) crlUris trustAnchors
  extendAll (fun conversation => (extractCrlUrisFromGroup mls x out conversation).mapError
    (.recursive "extracting CRL URLs from MLS groups")) crlUris conversations

end Uris

/-! ### The check -/

/-- `parse_leaf_cert`. -/
def parseLeafCert (x : X509) : MlsCredential → Except Error (Option Certificate)
  | .basic _ => .ok none
  | .x509 _ certificates =>
    match certificates.head? with
    | none => .error .invalidIdentity
    | some leaf =>
      match x.certFromDer leaf with
      | none => .error .decodeX509
      | some cert => .ok (some cert)

section Check

variable {Pdv Path : Type} (mls : MlsLibrary b) (x : X509) (out : Surroundings)
  (certval : RjtPkiEnvironment → Certval Certificate Pdv Path)

/-- `Credential::check`. -/
def Credential.check (pe : RjtPkiEnvironment) (credential : Credential) : Except Error Unit := do
  if credential.credentialType = .x509 then
    match ← (parseLeafCert x credential.mlsCredential).mapError
        (.recursive "parsing leaf certificate") with
    -- the `expect` of the source: the type is the type of the MLS credential
    | none => throw .invalidIdentity
    | some cert =>
      (validateCertAndRevocation (certval pe) cert).mapError fun e =>
        .recursive "validating credential certificate" (.x509Check e)

/-- `check_credentials` before it changes anything: the credentials, and the relevant URIs. -/
def relevantCrlUris (session : Option Bytes) (env : PkiEnvironment b.State) :
    Except Error (List Credential × List String) := do
  let credentials ← (Credential.getAll mls env.database).mapError
    (.recursive "getting all credentials")
  let trustAnchors := env.rjtPkiEnv.getTrustAnchors
  if session = none then
    throw (.recursive "Getting mls session from transaction context" .mlsNotInitialized)
  let conversations ← (loadAllConversations mls env.database).mapError
    (.recursive "loading all conversations to check if the credential to be removed is present")
  let relevant ← getCrlUris mls x out trustAnchors credentials (conversations.map Prod.snd)
  return (credentials, relevant)

abbrev CheckM (b : Backend) (α : Type) := EStateM Error (PkiEnvironment b.State) α

/-- `database.remove::<E2eiCrl>`. -/
def removeCrl (distributionPoint : Bytes) : CheckM b Unit := fun env =>
  match env.database.remove ⟨.plain .e2eiCrl, distributionPoint⟩ with
  | (.ok (), database) => .ok () { env with database }
  | (.error e, database) => .error (.keystore "removing irrelevant CRL" e) { env with database }

/-- One round of the clean-up.  The distribution point of a list is the key of its row. -/
def cleanUpCrl (relevant : List String) (dbCrl : Entity b.State) : CheckM b Unit :=
  if dbCrl.primaryKey b.rt.toHashes ∈ relevant.map textKey then pure ()
  else removeCrl (dbCrl.primaryKey b.rt.toHashes)

def cleanUpIrrelevantCrls (relevant : List String) : CheckM b Unit := do
  let stored ← orThrow (((← get).database.loadAll b.rt (.plain .e2eiCrl)).mapError
    (.keystore "getting all database CRLs"))
  stored.forM (cleanUpCrl relevant)

/-- Fetches and stores the lists of the relevant distribution points. -/
def refreshCrls (relevant : List String) : CheckM b Unit := do
  let crls ← orThrow ((fetchCrls out (out.uriOrder relevant)).mapError fun e =>
    .recursive "fetching crls" (.e2eIdentity e))
  EStateM.adaptExcept (fun e => .recursive "saving CRL" (.e2eIdentity e))
    (saveCrls x b.rt out crls)

/-- Validates the own credentials and reports those that fail. -/
def reportInvalid (credentials : List Credential) : CheckM b Unit := do
  let pe := (← get).rjtPkiEnv
  let invalid := credentials.filter fun credential =>
    (credential.check x certval pe).toOption.isNone
  if ¬ invalid.isEmpty then
    throw (.invalidCredentials (invalid.map (CredentialRef.fromCredential b.rt.toHashes)))

def checkCredentials (session : Option Bytes) : CheckM b Unit := do
  let (credentials, relevant) ← orThrow (relevantCrlUris mls x out session (← get))
  cleanUpIrrelevantCrls relevant
  refreshCrls x out relevant
  reportInvalid x certval credentials

end Check

/-! ### What is named, and what is stored -/

section Named

variable (mls : MlsLibrary b) (x : X509) (out : Surroundings)

def CertNames (cert : Certificate) (uri : String) : Prop :=
  ∃ uris, extractCrlUris x out cert = .ok uris ∧ uri ∈ uris

def DerNames (der : Bytes) (uri : String) : Prop :=
  ∃ cert, x.certFromDer der = some cert ∧ CertNames x out cert uri

/-- Some certificate of the chain of a credential names the distribution point. -/
def ChainNames (credential : MlsCredential) (uri : String) : Prop :=
  match credential with
  | .basic _ => False
  | .x509 _ certificates => ∃ der ∈ certificates, DerNames x out der uri

def NamedByAnchor (env : PkiEnvironment b.State) (uri : String) : Prop :=
  ∃ cert ∈ env.rjtPkiEnv.getTrustAnchors, CertNames x out cert uri

def NamedByOwnCredential (env : PkiEnvironment b.State) (uri : String) : Prop :=
  ∃ stored credential, Listed env.database (.storedCredential stored) ∧
    Credential.tryFrom mls stored = .ok credential ∧ ChainNames x out credential.mlsCredential uri

def NamedByMember (env : PkiEnvironment b.State) (uri : String) : Prop :=
  ∃ id state parent group, Listed env.database (.persistedMlsGroup id state parent) ∧
    b.deser state = .ok group ∧
    ∃ credential ∈ membersCredentials mls group, ChainNames x out credential uri

def NamedByIntermediate (env : PkiEnvironment b.State) (uri : String) : Prop :=
  ∃ key content, Listed env.database (.plain .e2eiIntermediateCert key content) ∧
    DerNames x out content uri

/-- Named by a source that `get_crl_uris` looks at. -/
def Relevant (env : PkiEnvironment b.State) (uri : String) : Prop :=
  NamedByOwnCredential mls x out env uri ∨ NamedByAnchor x out env uri ∨
    NamedByMember mls x out env uri

def Named (env : PkiEnvironment b.State) (uri : String) : Prop :=
  Relevant mls x out env uri ∨ NamedByIntermediate x out env uri

/-- There is a revocation list of the distribution point in the store. -/
def HasCrl (env : PkiEnvironment b.State) (uri : String) : Prop :=
  ∃ content, Listed env.database (e2eiCrl uri content)

def CertReadable (cert : Certificate) : Prop :=
  ∃ uris, extractCrlUris x out cert = .ok uris

def ChainReadable (credential : MlsCredential) : Prop :=
  match credential with
  | .basic _ => True
  | .x509 _ certificates =>
    ∀ der ∈ certificates, ∃ cert, x.certFromDer der = some cert ∧ CertReadable x out cert

/-- Everything that `get_crl_uris` looks at can be read. -/
structure Readable (session : Option Bytes) (env : PkiEnvironment b.State) : Prop where
  session : session ≠ none
  credentials : ∀ stored, Listed env.database (.storedCredential stored) →
    ∃ credential, Credential.tryFrom mls stored = .ok credential ∧
      ChainReadable x out credential.mlsCredential
  anchors : ∀ cert ∈ env.rjtPkiEnv.getTrustAnchors, CertReadable x out cert
  groups : ∀ id state parent, Listed env.database (.persistedMlsGroup id state parent) →
    ∃ group, b.deser state = .ok group ∧
      ∀ credential ∈ membersCredentials mls group, ChainReadable x out credential

end Named

/-! ### The collected URIs -/

section Collected

variable {mls : MlsLibrary b} {x : X509} {out : Surroundings} {credentials : List Credential}
  {relevant : List String} {env : PkiEnvironment b.State}

theorem extractCrlUris_yields (out : Surroundings) (cert : Certificate) :
    Yields (extractCrlUris x out cert) (CertReadable x out cert) (CertNames x out cert) :=
  ⟨Iff.rfl, fun uris ok uri => by simp [CertNames, ok]⟩

theorem derCrlUris_yields (der : Bytes) :
    Yields (derCrlUris x out der)
      (∃ cert, x.certFromDer der = some cert ∧ CertReadable x out cert) (DerNames x out der) := by
  unfold derCrlUris DerNames
  cases decoded : x.certFromDer der with
  | none => exact ⟨by simp, by simp⟩
  | some cert =>
    refine ((extractCrlUris_yields out cert).mapError _).congr ?_ fun _ uri => ?_ <;> simp

theorem credentialCrlUris_yields (credential : MlsCredential) :
    Yields (credentialCrlUris x out credential) (ChainReadable x out credential)
      (ChainNames x out credential) := by
  cases credential with
  | basic identity =>
    refine ⟨by simp [credentialCrlUris, ChainReadable], ?_⟩
    rintro _ ⟨⟩ uri
    simp [ChainNames]
  | x509 identity certificates => exact .fromEmpty derCrlUris_yields certificates

theorem extractCrlUrisFromCredentials_yields (out : Surroundings) (credentials : List MlsCredential) :
    Yields (extractCrlUrisFromCredentials x out credentials)
      (∀ credential ∈ credentials, ChainReadable x out credential)
      (fun uri => ∃ credential ∈ credentials, ChainNames x out credential uri) :=
  .fromEmpty credentialCrlUris_yields credentials

/-- The credentials that are skipped have no certificates. -/
theorem exists_x509_iff {p : MlsCredential → Prop} (basic : ∀ identity, ¬ p (.basic identity))
    (typed : ∀ credential ∈ credentials,
      credential.credentialType = credential.mlsCredential.credentialType) :
    (∃ credential ∈ (credentials.filter fun credential =>
        credential.credentialType = .x509).map Credential.mlsCredential, p credential) ↔
      ∃ credential ∈ credentials, p credential.mlsCredential := by
  constructor
  · rintro ⟨_, member, holds⟩
    obtain ⟨credential, kept, rfl⟩ := List.mem_map.mp member
    exact ⟨credential, (List.mem_filter.mp kept).1, holds⟩
  · rintro ⟨credential, member, holds⟩
    refine ⟨_, List.mem_map_of_mem (List.mem_filter.mpr ⟨member, ?_⟩), holds⟩
    rw [typed credential member]
    cases chain : credential.mlsCredential with
    | basic identity => exact absurd (chain ▸ holds) (basic identity)
    | x509 identity certificates => rfl

variable (mls x out) in
theorem getCrlUris_yields (trustAnchors : List Certificate) {credentials : List Credential}
    (conversations : List b.Group) (typed : ∀ credential ∈ credentials,
      credential.credentialType = credential.mlsCredential.credentialType) :
    Yields (getCrlUris mls x out trustAnchors credentials conversations)
      ((∀ credential ∈ credentials, ChainReadable x out credential.mlsCredential) ∧
        (∀ cert ∈ trustAnchors, CertReadable x out cert) ∧
        ∀ group ∈ conversations, ∀ credential ∈ membersCredentials mls group,
          ChainReadable x out credential)
      (fun uri => (∃ credential ∈ credentials, ChainNames x out credential.mlsCredential uri) ∨
        (∃ cert ∈ trustAnchors, CertNames x out cert uri) ∨
        ∃ group ∈ conversations, ∃ credential ∈ membersCredentials mls group,
          ChainNames x out credential uri) := by
  have own := (extractCrlUrisFromCredentials_yields (x := x) out
    ((credentials.filter fun credential => credential.credentialType = .x509).map
      Credential.mlsCredential)).mapError
        (Error.recursive "extracting CRL URLs from stored credentials")
  have anchors (cert : Certificate) := (extractCrlUris_yields (x := x) out cert).mapError fun e =>
    Error.recursive "extracting CRL URL from trust anchor" (.x509Check e)
  have groups (group : b.Group) := (extractCrlUrisFromCredentials_yields (x := x) out
    (membersCredentials mls group)).mapError
      (Error.recursive "extracting CRL URLs from MLS groups")
  have all := (own.extendAll anchors trustAnchors).extendAll groups conversations
  rw [bind_assoc] at all
  refine all.congr ?_ fun _ uri => ?_
  · have skipped := exists_x509_iff (p := fun credential => ¬ ChainReadable x out credential)
      (fun identity unreadable => unreadable trivial) typed
    rw [and_assoc]
    refine and_congr_left fun _ => ?_
    simpa only [not_exists, not_and, not_not] using not_congr skipped.symm
  · rw [or_assoc, exists_x509_iff (p := fun credential => ChainNames x out credential uri)
      (fun identity names => names) typed]

theorem relevantCrlUris_eq_ok {session : Option Bytes} :
    relevantCrlUris mls x out session env = .ok (credentials, relevant) ↔
      Credential.getAll mls env.database = .ok credentials ∧ session ≠ none ∧
        ∃ conversations, loadAllConversations mls env.database = .ok conversations ∧
          getCrlUris mls x out env.rjtPkiEnv.getTrustAnchors credentials
            (conversations.map Prod.snd) = .ok relevant := by
  constructor
  · intro ok
    obtain ⟨own, loaded, ok⟩ := bind_eq_ok ok
    split at ok
    next absent => cases ok
    next present =>
      obtain ⟨conversations, restored, ok⟩ := bind_eq_ok ok
      obtain ⟨uris, collected, ok⟩ := bind_eq_ok ok
      cases ok
      exact ⟨mapError_eq_ok.mp loaded, present, conversations, mapError_eq_ok.mp restored, collected⟩
  · rintro ⟨loaded, present, conversations, restored, collected⟩
    simp only [relevantCrlUris, loaded, restored, present, Except.mapError, ok_bind, if_false,
      collected]
    rfl

theorem getCrlUris_loaded
    {conversations : List (ConversationId × b.Group)} (connected : env.database.conn.isSome)
    (loaded : Credential.getAll mls env.database = .ok credentials)
    (restored : loadAllConversations mls env.database = .ok conversations) :
    Yields (getCrlUris mls x out env.rjtPkiEnv.getTrustAnchors credentials
        (conversations.map Prod.snd))
      ((∀ credential ∈ credentials, ChainReadable x out credential.mlsCredential) ∧
        (∀ cert ∈ env.rjtPkiEnv.getTrustAnchors, CertReadable x out cert) ∧
        ∀ id group, (id, group) ∈ conversations → ∀ credential ∈ membersCredentials mls group,
          ChainReadable x out credential)
      (Relevant mls x out env) := by
  have own := Credential.mem_getAll connected loaded
  have groups := mem_loadAllConversations connected restored
  have typed : ∀ credential ∈ credentials,
      credential.credentialType = credential.mlsCredential.credentialType := by
    intro credential member
    obtain ⟨stored, -, read⟩ := (own credential).mp member
    exact (Credential.tryFrom_eq_ok read).1
  refine (getCrlUris_yields mls x out _ (conversations.map Prod.snd) typed).congr ?_ fun _ uri => ?_
  · refine and_congr_right fun _ => and_congr_right fun _ => ?_
    constructor
    · intro each group member
      obtain ⟨⟨id, _⟩, listed, rfl⟩ := List.mem_map.mp member
      exact each id _ listed
    · exact fun each id group member => each group (List.mem_map_of_mem member)
  · simp only [own, List.mem_map, Prod.exists, groups]
    refine or_congr ?_ (or_congr Iff.rfl ?_)
    · exact ⟨fun ⟨stored, credential, listed, read, names⟩ =>
        ⟨credential, ⟨stored, listed, read⟩, names⟩,
        fun ⟨credential, ⟨stored, listed, read⟩, names⟩ =>
        ⟨stored, credential, listed, read, names⟩⟩
    · constructor
      · rintro ⟨id, state, parent, group, listed, restored, names⟩
        exact ⟨group, ⟨id, group, ⟨state, parent, listed, restored⟩, rfl⟩, names⟩
      · rintro ⟨_, ⟨id, group, ⟨state, parent, listed, restored⟩, rfl⟩, names⟩
        exact ⟨id, state, parent, group, listed, restored, names⟩

theorem relevant_of_collected {session : Option Bytes}
    (connected : env.database.conn.isSome)
    (collected : relevantCrlUris mls x out session env = .ok (credentials, relevant))
    (uri : String) : uri ∈ relevant ↔ Relevant mls x out env uri := by
  obtain ⟨loaded, -, conversations, restored, got⟩ := relevantCrlUris_eq_ok.mp collected
  exact (getCrlUris_loaded connected loaded restored).mem_iff relevant got uri

/-- The URIs can be collected iff everything that is looked at can be read. -/
theorem collected_iff_readable {session : Option Bytes} (connected : env.database.conn.isSome) :
    (∃ credentials relevant,
        relevantCrlUris mls x out session env = .ok (credentials, relevant)) ↔
      Readable mls x out session env := by
  simp only [relevantCrlUris_eq_ok]
  constructor
  · rintro ⟨credentials, relevant, loaded, present, conversations, restored, got⟩
    obtain ⟨chains, anchors, members⟩ :=
      (getCrlUris_loaded connected loaded restored).succeeds_iff.mp ⟨relevant, got⟩
    refine ⟨present, fun stored listed => ?_, anchors, fun id state parent listed => ?_⟩
    · obtain ⟨credential, read⟩ :=
        (Credential.getAll_succeeds_iff connected).mp ⟨_, loaded⟩ stored listed
      exact ⟨credential, read, chains credential
        ((Credential.mem_getAll connected loaded credential).mpr ⟨stored, listed, read⟩)⟩
    · obtain ⟨group, read⟩ :=
        (loadAllConversations_succeeds_iff connected).mp ⟨_, restored⟩ id state parent listed
      exact ⟨group, read, members id group
        ((mem_loadAllConversations connected restored id group).mpr ⟨state, parent, listed, read⟩)⟩
  · intro readable
    obtain ⟨credentials, loaded⟩ := (Credential.getAll_succeeds_iff connected).mpr
      fun stored listed => (readable.credentials stored listed).imp fun _ read => read.1
    have restores : ∃ conversations, loadAllConversations mls env.database = .ok conversations :=
      (loadAllConversations_succeeds_iff connected).mpr fun id state parent listed =>
        (readable.groups id state parent listed).imp fun _ read => read.1
    obtain ⟨conversations, restored⟩ := restores
    have chains : ∀ credential ∈ credentials, ChainReadable x out credential.mlsCredential := by
      intro credential member
      obtain ⟨stored, listed, read⟩ := (Credential.mem_getAll connected loaded credential).mp member
      obtain ⟨_, read', chain⟩ := readable.credentials stored listed
      cases read.symm.trans read'
      exact chain
    have members : ∀ id group, (id, group) ∈ conversations →
        ∀ credential ∈ membersCredentials mls group, ChainReadable x out credential := by
      intro id group member
      obtain ⟨state, parent, listed, read⟩ :=
        (mem_loadAllConversations connected restored id group).mp member
      obtain ⟨_, read', chains⟩ := readable.groups id state parent listed
      cases read.symm.trans read'
      exact chains
    obtain ⟨relevant, got⟩ := (getCrlUris_loaded connected loaded restored).succeeds_iff.mpr
      ⟨chains, readable.anchors, members⟩
    exact ⟨credentials, relevant, loaded, readable.session, conversations, restored, got⟩

end Collected

/-! ### The stored lists -/

section StoredLists

variable {mls : MlsLibrary b} {x : X509} {out : Surroundings} {own : Prop}
  {env : PkiEnvironment b.State}

/-- The row of the revocation list of a distribution point. -/
def crlId (distributionPoint : Bytes) : EntityId := ⟨.plain .e2eiCrl, distributionPoint⟩

theorem hasCrl_iff (healthy : Healthy b.rt env.database) (uri : String) :
    HasCrl env uri ↔ (row b.rt env.database (crlId (textKey uri))).isSome := by
  obtain ⟨rows, loaded, listed⟩ := loadAll_rows healthy (.plain .e2eiCrl) rfl
  have seen (content : Bytes) : Listed env.database (e2eiCrl uri content) ↔
      row b.rt env.database (crlId (textKey uri)) = some (e2eiCrl uri content) := by
    rw [← mem_rows_iff loaded (e2eiCrl uri content) rfl, listed]
    exact ⟨fun found => found.2, fun found => ⟨rfl, found⟩⟩
  simp only [HasCrl, seen, Option.isSome_iff_exists]
  constructor
  · rintro ⟨content, found⟩
    exact ⟨_, found⟩
  · rintro ⟨entity, found⟩
    have id := row_id healthy found
    cases entity with
    | plain collection key content =>
      cases id
      exact ⟨content, found⟩
    | _ => cases congrArg EntityId.typ id

theorem crlId_inj {key other : Bytes} : crlId key = crlId other ↔ key = other :=
  ⟨congrArg EntityId.id, congrArg crlId⟩

theorem crl_wrote {write : Write b.State} {before after : Database b.State} (written : Bytes)
    (onCrl : write.id b.rt = crlId written) (wrote : Wrote b.rt write before after) (key : Bytes) :
    row b.rt after (crlId key) =
      if key = written then write.value else row b.rt before (crlId key) := by
  have seen := wrote (crlId key) rfl
  simpa only [onCrl, crlId_inj] using seen

theorem cleanUpCrl_inside (relevant : List String) (dbCrl : Entity b.State)
    (env : PkiEnvironment b.State) (inside : Inside b.rt own False env.database) :
    ∃ database, cleanUpCrl relevant dbCrl env = .ok () { env with database } ∧
      Inside b.rt own False database ∧
      ∀ key, row b.rt database (crlId key) =
        if key = dbCrl.primaryKey b.rt.toHashes ∧ key ∉ relevant.map textKey then none
        else row b.rt env.database (crlId key) := by
  unfold cleanUpCrl
  split
  next relevantKey =>
    refine ⟨env.database, rfl, inside, fun key => ?_⟩
    rw [if_neg]
    rintro ⟨rfl, irrelevant⟩
    exact irrelevant relevantKey
  next irrelevant =>
    obtain ⟨database, removed, stays, wrote⟩ := write_inside
      (.remove (crlId (dbCrl.primaryKey b.rt.toHashes))) inside (fun _ => by rintro ⟨⟩)
      False.elim
    refine ⟨database, ?_, stays, fun key => ?_⟩
    · have called : env.database.remove (crlId (dbCrl.primaryKey b.rt.toHashes)) =
          (.ok (), database) := removed
      simp only [removeCrl, crlId] at called ⊢
      rw [called]
    · rw [crl_wrote _ rfl wrote]
      by_cases same : key = dbCrl.primaryKey b.rt.toHashes
      · subst same
        rw [if_pos rfl, if_pos ⟨rfl, irrelevant⟩]
        rfl
      · rw [if_neg same, if_neg (fun both => same both.1)]

theorem cleanUp_inside (relevant : List String) (stored : List (Entity b.State))
    (env : PkiEnvironment b.State) (inside : Inside b.rt own False env.database) :
    ∃ database, stored.forM (cleanUpCrl relevant) env = .ok () { env with database } ∧
      Inside b.rt own False database ∧
      ∀ key, row b.rt database (crlId key) =
        if key ∈ stored.map (Entity.primaryKey b.rt.toHashes) ∧ key ∉ relevant.map textKey then none
        else row b.rt env.database (crlId key) := by
  induction stored generalizing env with
  | nil => exact ⟨env.database, rfl, inside, fun key => by simp⟩
  | cons dbCrl rest ih =>
    obtain ⟨middle, first, insideMiddle, rowsMiddle⟩ := cleanUpCrl_inside relevant dbCrl env inside
    obtain ⟨database, others, insideAfter, rowsAfter⟩ := ih { env with database := middle } insideMiddle
    refine ⟨database, (run_bind_ok first).trans others, insideAfter, fun key => ?_⟩
    rw [rowsAfter, rowsMiddle]
    grind

theorem mem_textKeys {relevant : List String} {uri : String} :
    textKey uri ∈ relevant.map textKey ↔ uri ∈ relevant :=
  List.mem_map_of_injective textKey_injective

/-- The clean-up leaves the lists of the relevant distribution points, and no others. -/
theorem cleanUpIrrelevantCrls_inside (relevant : List String)
    (inside : Inside b.rt own False env.database) :
    ∃ database, cleanUpIrrelevantCrls relevant env = .ok () { env with database } ∧
      Inside b.rt own False database ∧
      ∀ uri, row b.rt database (crlId (textKey uri)) =
        if uri ∈ relevant then row b.rt env.database (crlId (textKey uri)) else none := by
  obtain ⟨stored, loaded, listed⟩ := loadAll_rows inside.healthy (.plain .e2eiCrl) rfl
  obtain ⟨database, cleaned, stays, seen⟩ := cleanUp_inside relevant stored env inside
  refine ⟨database, ?_, stays, fun uri => ?_⟩
  · have all : cleanUpIrrelevantCrls relevant env = stored.forM (cleanUpCrl relevant) env := by
      refine (run_bind_ok rfl).trans (run_bind_ok ?_)
      rw [loaded]
      rfl
    rw [all, cleaned]
  · rw [seen]
    simp only [mem_textKeys]
    by_cases isRelevant : uri ∈ relevant
    · simp [isRelevant]
    · simp only [isRelevant, not_false_eq_true, and_true, if_false, ite_eq_left_iff]
      intro absent
      -- a list that is not listed is not there either
      cases found : row b.rt env.database (crlId (textKey uri)) with
      | none => rfl
      | some entity =>
        have id := row_id inside.healthy found
        refine absurd (List.mem_map.mpr ⟨entity, (listed entity).mpr ⟨?_, ?_⟩, ?_⟩) absent
        · exact congrArg EntityId.typ id
        · rw [id]
          exact found
        · exact congrArg EntityId.id id

theorem saveCrl_cases (out : Surroundings) (crlDp : String) (crlDer : Bytes) (env : PkiEnvironment b.State)
    (inside : Inside b.rt own False env.database) :
    (∃ e pe, saveCrl x b.rt out crlDp crlDer env = .error e ⟨pe, env.database⟩) ∨
      ∃ pe content database, saveCrl x b.rt out crlDp crlDer env = .ok () ⟨pe, database⟩ ∧
        Inside b.rt own False database ∧
        Wrote b.rt (.save (e2eiCrl crlDp content)) env.database database := by
  cases validated : env.rjtPkiEnv.validateCrlWithRaw x crlDer with
  | error e =>
    obtain ⟨e, failed⟩ := saveCrl_rejected crlDp (.inl ⟨e, validated⟩)
    exact .inl ⟨e, _, failed⟩
  | ok crl =>
    cases clock : out.now with
    | none =>
      obtain ⟨e, failed⟩ := saveCrl_rejected (x := x) crlDp (.inr clock)
      exact .inl ⟨e, _, failed⟩
    | some toi =>
      cases encoded : x.codec.encodeCrl crl with
      | none =>
        refine .inl ⟨.x509Error .derError, withCrl x toi crl env.rjtPkiEnv, ?_⟩
        rw [saveCrl_accepted out crlDp crlDer env validated clock, encoded]
        rfl
      | some content =>
        obtain ⟨database, saved⟩ := saveCrl_inside clock crlDp crlDer env inside validated encoded
        exact .inr ⟨withCrl x toi crl env.rjtPkiEnv, content, database, saved⟩

/-- Lists were stored under some of the distribution points, and no list was lost. -/
structure Refreshed (own : Prop) (crls : List (String × Bytes)) (before after : Database b.State) :
    Prop where
  inside : Inside b.rt own False after
  others : ∀ key, key ∉ crls.map (fun list => textKey list.1) →
    row b.rt after (crlId key) = row b.rt before (crlId key)
  kept : ∀ key, (row b.rt before (crlId key)).isSome → (row b.rt after (crlId key)).isSome

theorem saveCrls_refreshes (out : Surroundings) (crls : List (String × Bytes)) (env : PkiEnvironment b.State)
    (inside : Inside b.rt own False env.database) :
    Refreshed own crls env.database (finalState (saveCrls x b.rt out crls) env).database ∧
      (outcome (saveCrls x b.rt out crls) env = .ok () → ∀ list ∈ crls,
        (row b.rt (finalState (saveCrls x b.rt out crls) env).database
          (crlId (textKey list.1))).isSome) := by
  induction crls generalizing env with
  | nil => exact ⟨⟨inside, fun _ _ => rfl, fun _ => id⟩, fun _ list member => absurd member List.not_mem_nil⟩
  | cons list rest ih =>
    rcases saveCrl_cases (x := x) out list.1 list.2 env inside with
      ⟨e, pe, failed⟩ | ⟨pe, content, middle, saved, insideMiddle, wrote⟩
    · have stopped : saveCrls x b.rt out (list :: rest) env = .error e ⟨pe, env.database⟩ :=
        run_bind_error failed
      simp only [finalState, outcome, stopped]
      exact ⟨⟨inside, fun _ _ => rfl, fun _ => id⟩, by rintro ⟨⟩⟩
    · have continued : saveCrls x b.rt out (list :: rest) env =
          saveCrls x b.rt out rest ⟨pe, middle⟩ := run_bind_ok saved
      have seen := crl_wrote (textKey list.1) rfl wrote
      obtain ⟨refreshed, stored⟩ := ih ⟨pe, middle⟩ insideMiddle
      simp only [finalState, outcome, continued] at refreshed stored ⊢
      have present : (row b.rt middle (crlId (textKey list.1))).isSome := by
        rw [seen, if_pos rfl]
        rfl
      refine ⟨⟨refreshed.inside, fun key absent => ?_, fun key held => ?_⟩, fun ok => ?_⟩
      · rw [List.map_cons, List.mem_cons, not_or] at absent
        rw [refreshed.others key absent.2, seen, if_neg absent.1]
      · refine refreshed.kept key ?_
        rw [seen]
        split
        · rfl
        · exact held
      · intro other member
        rcases List.mem_cons.mp member with rfl | inRest
        · exact refreshed.kept _ present
        · exact stored ok other inRest

theorem refreshCrls_refreshes (out : Surroundings) (relevant : List String) (env : PkiEnvironment b.State)
    (inside : Inside b.rt own False env.database) :
    ∃ crls : List (String × Bytes), (∀ list ∈ crls, list.1 ∈ relevant) ∧
      Refreshed own crls env.database (finalState (refreshCrls x out relevant) env).database ∧
      (outcome (refreshCrls x out relevant) env = .ok () → ∀ uri ∈ relevant,
        (row b.rt (finalState (refreshCrls x out relevant) env).database
          (crlId (textKey uri))).isSome) := by
  cases fetched : fetchCrls out (out.uriOrder relevant) with
  | error e =>
    have stopped : refreshCrls x out relevant env =
        .error (.recursive "fetching crls" (.e2eIdentity e)) env := by
      refine run_bind_error ?_
      rw [fetched]
      rfl
    simp only [finalState, outcome, stopped]
    exact ⟨[], by simp, ⟨inside, fun _ _ => rfl, fun _ => id⟩, by rintro ⟨⟩⟩
  | ok crls =>
    have saving : refreshCrls x out relevant env = EStateM.adaptExcept
        (fun e => .recursive "saving CRL" (.e2eIdentity e)) (saveCrls x b.rt out crls) env := by
      refine run_bind_ok ?_
      rw [fetched]
      rfl
    have names (uri : String) : uri ∈ crls.map Prod.fst ↔ uri ∈ relevant :=
      (fetchCrls_names fetched).mem_iff.trans (out.uriOrder_perm relevant).mem_iff
    obtain ⟨refreshed, stored⟩ := saveCrls_refreshes (x := x) out crls env inside
    have left : finalState (refreshCrls x out relevant) env =
        finalState (saveCrls x b.rt out crls) env := by
      rw [← finalState_adaptExcept (fun e => Error.recursive "saving CRL" (.e2eIdentity e))]
      simp only [finalState, saving]
    rw [left]
    refine ⟨crls, fun list member => (names _).mp (List.mem_map_of_mem member), refreshed, ?_⟩
    intro ok uri isRelevant
    have saved : outcome (saveCrls x b.rt out crls) env = .ok () := by
      simp only [outcome, saving] at ok
      exact outcome_adaptExcept_ok ok
    obtain ⟨list, member, rfl⟩ := List.mem_map.mp ((names uri).mpr isRelevant)
    exact stored saved list member

theorem finalState_reportInvalid {Pdv Path : Type}
    (certval : RjtPkiEnvironment → Certval Certificate Pdv Path) (credentials : List Credential)
    (env : PkiEnvironment b.State) :
    finalState (reportInvalid x certval credentials) env = env := by
  simp only [reportInvalid, finalState, bind, EStateM.bind, get, getThe, MonadStateOf.get,
    EStateM.get]
  split
  next called => split at called <;> cases called; rfl
  next called => split at called <;> cases called; rfl

end StoredLists

/-! ### The lists after a check -/

section Checked

variable {Pdv Path : Type} (mls : MlsLibrary b) (x : X509) (out : Surroundings)
  (certval : RjtPkiEnvironment → Certval Certificate Pdv Path) (session : Option Bytes)
  {env : PkiEnvironment b.State}

/-- The lists of the relevant distribution points were kept, and only those. -/
structure CleanedUp (relevant : String → Prop) (before after : PkiEnvironment b.State) : Prop where
  gone : ∀ uri, ¬ relevant uri → ¬ HasCrl after uri
  kept : ∀ uri, relevant uri → HasCrl before uri → HasCrl after uri

variable {mls x out session}

theorem checkCredentials_collected {credentials : List Credential}
    {relevant : List String} (inside : Inside b.rt False False env.database)
    (collected : relevantCrlUris mls x out session env = .ok (credentials, relevant)) :
    CleanedUp (· ∈ relevant) env (finalState (checkCredentials mls x out certval session) env) ∧
      (outcome (checkCredentials mls x out certval session) env = .ok () →
        ∀ uri ∈ relevant,
          HasCrl (finalState (checkCredentials mls x out certval session) env) uri) := by
  obtain ⟨cleaned, cleaning, insideCleaned, seen⟩ := cleanUpIrrelevantCrls_inside relevant inside
  obtain ⟨crls, names, refreshed, stored⟩ := refreshCrls_refreshes (x := x) out relevant
    { env with database := cleaned } insideCleaned
  have started : checkCredentials mls x out certval session env =
      (refreshCrls x out relevant >>= fun _ => reportInvalid x certval credentials)
        { env with database := cleaned } := by
    refine (run_bind_ok rfl).trans ?_
    rw [collected]
    exact (run_bind_ok rfl).trans (run_bind_ok cleaning)
  have left : finalState (checkCredentials mls x out certval session) env =
      finalState (refreshCrls x out relevant) { env with database := cleaned } := by
    refine Eq.trans ?_ (finalState_bind_pure (fun (_ : Unit) =>
      finalState_reportInvalid (x := x) certval credentials) _)
    simp only [finalState, started]
  rw [left]
  have healthy := refreshed.inside.healthy
  refine ⟨⟨fun uri irrelevant => ?_, fun uri isRelevant => ?_⟩, fun ok uri isRelevant => ?_⟩
  · rw [hasCrl_iff healthy, refreshed.others, seen, if_neg irrelevant]
    · simp
    · rw [List.mem_map]
      rintro ⟨list, member, same⟩
      exact irrelevant (textKey_injective same ▸ names list member)
  · rw [hasCrl_iff inside.healthy, hasCrl_iff healthy]
    intro held
    refine refreshed.kept _ ?_
    rw [seen, if_pos isRelevant]
    exact held
  · rw [hasCrl_iff healthy]
    refine stored ?_ uri isRelevant
    simp only [outcome, started] at ok
    exact (outcome_of_bind ok).elim fun _ done => done

theorem checkCredentials_unreadable
    (connected : env.database.conn.isSome) (unreadable : ¬ Readable mls x out session env) :
    ∃ e, checkCredentials mls x out certval session env = .error e env := by
  cases collected : relevantCrlUris mls x out session env with
  | ok got => exact absurd ((collected_iff_readable connected).mp ⟨_, _, collected⟩) unreadable
  | error e =>
    refine ⟨e, (run_bind_ok rfl).trans (run_bind_error ?_)⟩
    rw [collected]
    rfl

theorem checkCredentials_readable
    (inside : Inside b.rt False False env.database) (readable : Readable mls x out session env) :
    CleanedUp (Relevant mls x out env) env
        (finalState (checkCredentials mls x out certval session) env) ∧
      (outcome (checkCredentials mls x out certval session) env = .ok () →
        ∀ uri, Relevant mls x out env uri →
          HasCrl (finalState (checkCredentials mls x out certval session) env) uri) := by
  have connected := inside.healthy.connected
  obtain ⟨credentials, relevant, collected⟩ := (collected_iff_readable connected).mpr readable
  obtain ⟨cleaned, stored⟩ := checkCredentials_collected certval inside collected
  have same := relevant_of_collected connected collected
  simp only [same] at cleaned stored
  exact ⟨cleaned, stored⟩

variable (mls x out session)

/-! A store to evaluate the check on: the certificate with key 2 names a distribution point, which
serves a list that is signed with key 1. -/

def pointingX509 : X509 :=
  { sampleX509 with
    pdvCertificate := fun cert => .ok
      ⟨.ok (some cert.subjectPublicKeyInfo), .ok none,
        if cert.subjectPublicKeyInfo = [2] then
          some [some (.fullName [.uniformResourceIdentifier "dp"])]
        else none⟩ }

def servingSurroundings : Surroundings :=
  { sampleSurroundings with httpRequest := fun _ => .ok ⟨200, [1]⟩ }

def noCertval (_ : RjtPkiEnvironment) : Certval Certificate Unit Unit :=
  ⟨none, fun _ => .error .derError, fun _ _ => .error .derError, fun _ _ => none, fun _ _ => none⟩

/-- An environment with trust anchors and stored rows, in an open transaction. -/
def openedEnvironment (anchors : List Certificate) (rows : List (Entity sampleBackend.State)) :
    PkiEnvironment sampleBackend.State :=
  ⟨⟨[anchors], [], []⟩, ⟨some rows, some .new, 0⟩⟩

/-- **Needed revocation lists are kept as far as intermediates do not need them.**  A check that
can read all of its sources deletes a needed list exactly if a stored intermediate names its
distribution point and no trust anchor, own credential or member does.  After `Ok` there is a list
of every named distribution point exactly if the intermediates name no others. -/
theorem needed_crls_kept_iff (env : PkiEnvironment b.State) (healthy : Healthy b.rt env.database)
    (opened : env.database.transaction.isSome) :
    ((∀ uri, Named mls x out env uri → HasCrl env uri →
        HasCrl (finalState (checkCredentials mls x out certval session) env) uri) ↔
      (Readable mls x out session env → ∀ uri, NamedByIntermediate x out env uri → HasCrl env uri →
        Relevant mls x out env uri)) ∧
    (outcome (checkCredentials mls x out certval session) env = .ok () →
      ((∀ uri, Named mls x out env uri →
          HasCrl (finalState (checkCredentials mls x out certval session) env) uri) ↔
        ∀ uri, NamedByIntermediate x out env uri → Relevant mls x out env uri)) := by
  by_cases readable : Readable mls x out session env
  · obtain ⟨cleaned, stored⟩ := checkCredentials_readable certval
      ⟨healthy, opened, False.elim, False.elim⟩ readable
    refine ⟨⟨fun kept _ uri named held => ?_, fun covered uri named held => ?_⟩,
      fun ok => ⟨fun all uri named => ?_, fun covered uri named => ?_⟩⟩
    · by_contra irrelevant
      exact cleaned.gone uri irrelevant (kept uri (.inr named) held)
    · exact cleaned.kept uri (named.elim id fun named => covered readable uri named held) held
    · by_contra irrelevant
      exact cleaned.gone uri irrelevant (all uri (.inr named))
    · exact stored ok uri (named.elim id (covered uri))
  · obtain ⟨e, failed⟩ := checkCredentials_unreadable certval healthy.connected readable
    simp only [finalState, outcome, failed]
    exact ⟨⟨fun _ able => absurd able readable, fun _ _ _ held => held⟩, by rintro ⟨⟩⟩

/-- The list that a trust anchor needs is still there. -/
theorem list_of_anchor_kept :
    HasCrl (finalState
      (checkCredentials basicLibrary pointingX509 servingSurroundings noCertval (some []))
      (openedEnvironment [sampleCertificate 2] [e2eiCrl "dp" [2]])) "dp" := by
  have healthy : Healthy sampleBackend.rt
      (openedEnvironment [sampleCertificate 2] [e2eiCrl "dp" [2]]).database :=
    .justOpened (List.nodup_singleton _)
  refine (needed_crls_kept_iff basicLibrary pointingX509 servingSurroundings noCertval (some [])
    (openedEnvironment [sampleCertificate 2] [e2eiCrl "dp" [2]]) healthy rfl).1.mpr ?_ "dp" ?_ ?_
  · rintro - uri ⟨key, content, ⟨rows, loaded, listed⟩, -⟩
    cases loaded
    cases listed
  · exact .inl (.inr (.inl ⟨sampleCertificate 2, List.mem_singleton.mpr rfl, ["dp"], rfl,
      List.mem_singleton.mpr rfl⟩))
  · exact ⟨[2], [e2eiCrl "dp" [2]], rfl, List.mem_singleton.mpr rfl⟩

/-- `add_intermediate_cert` stores the list of an intermediate, and the next check deletes it. -/
theorem list_of_intermediate_deleted :
    let before := finalState
      (addIntermediateCert pointingX509 sampleBackend.rt servingSurroundings (sampleCertificate 2))
      (openedEnvironment [sampleCertificate 1] [])
    let check := checkCredentials basicLibrary pointingX509 servingSurroundings noCertval (some [])
    NamedByIntermediate pointingX509 servingSurroundings before "dp" ∧ HasCrl before "dp" ∧
      outcome check before = .ok () ∧ ¬ HasCrl (finalState check before) "dp" := by
  refine ⟨⟨textKey "02:", [2], ⟨[_], rfl, List.mem_singleton.mpr rfl⟩, sampleCertificate 2, rfl,
    ["dp"], rfl, List.mem_singleton.mpr rfl⟩, ⟨[1], [_], rfl, List.mem_singleton.mpr rfl⟩, ?_, ?_⟩
  · decide +kernel
  · rintro ⟨content, rows, loaded, listed⟩
    cases loaded
    cases listed

end Checked

end CoreCrypto.Credentials
