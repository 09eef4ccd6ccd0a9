import CoreCrypto.Library.Run
import CoreCrypto.Pki.Environment

/-!
# Which revocation lists are accepted

`save_crl` takes a list whose signature verifies under any key that a lookup by key id or by name
yields, and intermediates are added without a look at who issued them.
-/

namespace CoreCrypto.Pki

open Keystore Library Revocation RjtPkiEnvironment

variable {S : Type}

/-- A certification path: issued by a trust anchor, or by a certificate that has such a path. -/
inductive HasPath (Issued : Certificate → Certificate → Prop) (anchors : List Certificate) :
    Certificate → Prop where
  | anchored {anchor cert : Certificate} (configured : anchor ∈ anchors)
      (issued : Issued anchor cert) : HasPath Issued anchors cert
  | through {intermediate cert : Certificate} (path : HasPath Issued anchors intermediate)
      (issued : Issued intermediate cert) : HasPath Issued anchors cert

/-- The bytes of a list are signed by its issuer: by a configured trust anchor, or by an
intermediate that has a path to one. -/
def Anchored (x : X509) (Issued : Certificate → Certificate → Prop) (pe : RjtPkiEnvironment)
    (der : Bytes) (crl : CertificateList) : Prop :=
  ∃ cert tbs, x.deferDecodeSigned der = some tbs ∧
    x.verifySignatureMessage tbs crl.signature crl.signatureAlgorithm
      cert.subjectPublicKeyInfo = true ∧
    cert.subject = crl.issuer ∧
    (cert ∈ pe.getTrustAnchors ∨
      cert ∈ pe.certificates ∧ HasPath Issued pe.getTrustAnchors cert)

/-- Every intermediate has a path, and every list was anchored. -/
structure Sound (x : X509) (Issued : Certificate → Certificate → Prop)
    (pe : RjtPkiEnvironment) : Prop where
  paths : ∀ cert ∈ pe.certificates, HasPath Issued pe.getTrustAnchors cert
  lists : ∀ crl ∈ pe.crls, ∃ der, x.crlFromDer der = some crl ∧ Anchored x Issued pe der crl

/-- certval finds certificates of its sources, by name or by key id. -/
structure X509.LooksUp (x : X509) : Prop where
  trustAnchor : ∀ certs akid cert, x.getTrustAnchor certs akid = some cert → cert ∈ certs
  bySkid : ∀ certs akid found, x.getIntermediatesBySkid certs akid = some found →
    ∀ cert ∈ found, cert ∈ certs
  anchorByName : ∀ certs name cert, x.getTrustAnchorByName certs name = some cert →
    cert ∈ certs ∧ cert.subject = name
  certByName : ∀ certs name, ∀ cert ∈ x.getCertByName certs name,
    cert ∈ certs ∧ cert.subject = name

/-! ### The condition on a call -/

/-- The certificates found under the key id of a list are of its issuer. -/
def KeyIdOfIssuer (x : X509) (pe : RjtPkiEnvironment) (der : Bytes) : Prop :=
  ∀ crl akid, x.crlFromDer der = some crl → authorityKeyId crl = some akid →
    ∀ cert ∈ foundByKeyId x pe akid, cert.subject = crl.issuer

/-- An intermediate is added only if it has a path to a configured trust anchor, and a list is
looked at only if its key id leads to certificates of its issuer. -/
def Vouched (x : X509) (Issued : Certificate → Certificate → Prop) (env : PkiEnvironment S) :
    Call × Surroundings → Prop
  | (.addTrustAnchor _, _) => True
  | (.addIntermediateCert cert, out) =>
    HasPath Issued env.rjtPkiEnv.getTrustAnchors cert ∧
      ∀ crls, revocationLists x out cert = .ok crls →
        ∀ crl ∈ crls, KeyIdOfIssuer x env.rjtPkiEnv crl.2
  | (.saveCrl _ crlDer, _) => KeyIdOfIssuer x env.rjtPkiEnv crlDer

/-- What it means for the acceptance of a list to be justified. -/
def AcceptsAnchored (x : X509) (rt : Runtime S) (Issued : Certificate → Certificate → Prop)
    (env : PkiEnvironment S) (call : Call × Surroundings) : Prop :=
  ∀ crlDp crlDer after, call.1 = .saveCrl crlDp crlDer →
    saveCrl x rt call.2 crlDp crlDer env = .ok () after →
      ∃ crl, x.crlFromDer crlDer = some crl ∧ Anchored x Issued after.rjtPkiEnv crlDer crl

/-! ### Paths and anchored lists as sources are added -/

section Sources

variable {x : X509} {Issued : Certificate → Certificate → Prop} {pe : RjtPkiEnvironment}
  {der spki : Bytes} {cert : Certificate} {crl : CertificateList}

theorem HasPath.mono {anchors more : List Certificate} (path : HasPath Issued anchors cert)
    (kept : ∀ anchor ∈ anchors, anchor ∈ more) : HasPath Issued more cert := by
  induction path with
  | anchored configured issued => exact .anchored (kept _ configured) issued
  | through _ issued ih => exact .through ih issued

theorem Anchored.mono {more : RjtPkiEnvironment} (anchored : Anchored x Issued pe der crl)
    (anchors : ∀ cert ∈ pe.getTrustAnchors, cert ∈ more.getTrustAnchors)
    (certificates : ∀ cert ∈ pe.certificates, cert ∈ more.certificates) :
    Anchored x Issued more der crl := by
  obtain ⟨cert, tbs, decoded, verified, issuer, from'⟩ := anchored
  refine ⟨cert, tbs, decoded, verified, issuer, ?_⟩
  rcases from' with configured | ⟨listed, path⟩
  · exact .inl (anchors cert configured)
  · exact .inr ⟨certificates cert listed, path.mono anchors⟩

theorem Sound.addTrustAnchorSource (sound : Sound x Issued pe) (source : List Certificate) :
    Sound x Issued (pe.addTrustAnchorSource source) where
  paths cert listed := (sound.paths cert listed).mono fun _ member => by simp [member]
  lists crl listed := by
    obtain ⟨der, decoded, anchored⟩ := sound.lists crl listed
    exact ⟨der, decoded, anchored.mono (fun _ member => by simp [member]) (fun _ => id)⟩

theorem Sound.addCertificateSource (sound : Sound x Issued pe)
    (path : HasPath Issued pe.getTrustAnchors cert) :
    Sound x Issued (pe.addCertificateSource [cert]) where
  paths other listed := by
    simp only [certificates_addCertificateSource, List.mem_append, List.mem_singleton] at listed
    rcases listed with earlier | rfl
    · exact sound.paths other earlier
    · exact path
  lists crl listed := by
    obtain ⟨der, decoded, anchored⟩ := sound.lists crl listed
    exact ⟨der, decoded, anchored.mono (fun _ => id) (fun _ member => by simp [member])⟩

theorem Sound.addCrlSource (sound : Sound x Issued pe) (store : CrlStore) (der : Bytes)
    (crl : CertificateList) (only : store.crls = [crl]) (decoded : x.crlFromDer der = some crl)
    (anchored : Anchored x Issued pe der crl) : Sound x Issued (pe.addCrlSource store) where
  paths := sound.paths
  lists other listed := by
    simp only [crls_addCrlSource, only, List.mem_append, List.mem_singleton] at listed
    rcases listed with earlier | rfl
    · exact sound.lists other earlier
    · exact ⟨der, decoded, anchored⟩

/-! ### The keys a list is tried with -/

theorem mem_spkisByKeyId (member : spki ∈ spkisByKeyId x pe crl) :
    ∃ cert : Certificate, cert.subjectPublicKeyInfo = spki ∧
      ∃ akid, authorityKeyId crl = some akid ∧ cert ∈ foundByKeyId x pe akid := by
  unfold spkisByKeyId at member
  cases keyId : authorityKeyId crl with
  | none => simp [keyId] at member
  | some akid =>
    simp only [keyId, List.mem_map] at member
    obtain ⟨cert, found, same⟩ := member
    exact ⟨cert, same, akid, rfl, found⟩

/-- Each key is that of a certificate that one of the lookups found. -/
theorem mem_spkiList (member : spki ∈ spkiList x pe crl) :
    ∃ cert : Certificate, cert.subjectPublicKeyInfo = spki ∧
      ((∃ akid, authorityKeyId crl = some akid ∧ cert ∈ foundByKeyId x pe akid) ∨
        x.getTrustAnchorByName pe.getTrustAnchors crl.issuer = some cert ∨
        cert ∈ x.getCertByName pe.certificates crl.issuer) := by
  have byKeyId (listed : spki ∈ spkisByKeyId x pe crl) := mem_spkisByKeyId listed
  have found := (List.destutter_sublist _ _).mem member
  rw [List.mem_append, List.mem_map] at found
  rcases found with first | ⟨cert, named, same⟩
  · cases anchor : x.getTrustAnchorByName pe.getTrustAnchors crl.issuer with
    | none =>
      simp only [anchor] at first
      obtain ⟨cert, same, found⟩ := byKeyId first
      exact ⟨cert, same, .inl found⟩
    | some ta =>
      simp only [anchor] at first
      split at first
      · obtain ⟨cert, same, found⟩ := byKeyId first
        exact ⟨cert, same, .inl found⟩
      · rw [List.mem_append, List.mem_singleton] at first
        rcases first with earlier | rfl
        · obtain ⟨cert, same, found⟩ := byKeyId earlier
          exact ⟨cert, same, .inl found⟩
        · exact ⟨ta, rfl, .inr (.inl rfl)⟩
  · exact ⟨cert, same, .inr (.inr named)⟩

theorem mem_of_foundByKeyId (lookups : x.LooksUp) {akid : Bytes}
    (found : cert ∈ foundByKeyId x pe akid) :
    cert ∈ pe.getTrustAnchors ∨ cert ∈ pe.certificates := by
  unfold foundByKeyId at found
  cases anchor : x.getTrustAnchor pe.getTrustAnchors akid with
  | some ta =>
    simp only [anchor, List.mem_singleton] at found
    subst found
    exact .inl (lookups.trustAnchor _ _ _ anchor)
  | none =>
    cases bySkid : x.getIntermediatesBySkid pe.certificates akid with
    | none => simp [anchor, bySkid] at found
    | some certs =>
      simp only [anchor, bySkid, Option.getD_some] at found
      exact .inr (lookups.bySkid _ _ _ bySkid cert found)

/-- **A validated list is anchored**, if the intermediates are and its key id leads to its
issuer. -/
theorem anchored_of_validateCrlWithRaw (lookups : x.LooksUp) (sound : Sound x Issued pe)
    (keyId : KeyIdOfIssuer x pe der) (ok : validateCrlWithRaw x pe der = .ok crl) :
    x.crlFromDer der = some crl ∧ Anchored x Issued pe der crl := by
  obtain ⟨decoded, tbs, deferred, spki, tried, verified⟩ := validateCrlWithRaw_eq_ok ok
  obtain ⟨cert, rfl, found⟩ := mem_spkiList tried
  have known : cert.subject = crl.issuer ∧
      (cert ∈ pe.getTrustAnchors ∨ cert ∈ pe.certificates) := by
    rcases found with ⟨akid, isKeyId, byKeyId⟩ | named | named
    · exact ⟨keyId crl akid decoded isKeyId cert byKeyId, mem_of_foundByKeyId lookups byKeyId⟩
    · obtain ⟨listed, subject⟩ := lookups.anchorByName _ _ _ named
      exact ⟨subject, .inl listed⟩
    · obtain ⟨listed, subject⟩ := lookups.certByName _ _ _ named
      exact ⟨subject, .inr listed⟩
  refine ⟨decoded, cert, tbs, deferred, verified, known.1, ?_⟩
  exact known.2.imp_right fun listed => ⟨listed, sound.paths cert listed⟩

end Sources

/-! ### What the operations do to the sources -/

section Operations

/-- A property of the sources, whatever the database holds. -/
def Memory (P : RjtPkiEnvironment → Prop) (env : PkiEnvironment S) : Prop := P env.rjtPkiEnv

variable {err : Error → PkiEnvironment S → Prop} {pre : PkiEnvironment S → Prop} {α : Type}

theorem triple_orFail {ε : Type} {convert : ε → Error} {result : Except ε α}
    (failed : ∀ e env, pre env → err e env) :
    Triple pre (orFail convert result) (fun a env => pre env ∧ result = .ok a) err := by
  intro env holds
  cases result with
  | ok a => exact ⟨holds, rfl⟩
  | error e => exact failed _ env holds

theorem triple_orElse {error : Error} {result : Option α} (failed : ∀ e env, pre env → err e env) :
    Triple pre (orElse error result) (fun a env => pre env ∧ result = some a) err := by
  intro env holds
  cases result with
  | some a => exact ⟨holds, rfl⟩
  | none => exact failed _ env holds

variable {P Q : RjtPkiEnvironment → Prop}

theorem triple_onSources {f : RjtPkiEnvironment → RjtPkiEnvironment}
    (becomes : ∀ pe, P pe → Q (f pe)) : Triple (Memory P) (onSources f) (fun _ => Memory Q) err :=
  fun env holds => becomes env.rjtPkiEnv holds

theorem triple_onDatabase (call : Database S → Except CryptoKeystoreError Unit × Database S) :
    Triple (Memory P) (onDatabase call) (fun _ => Memory P) (fun _ => Memory P) := by
  intro env holds
  unfold onDatabase
  rcases call env.database with ⟨_ | _, _⟩ <;> exact holds

/-- A transaction around an operation leaves the sources as the operation does. -/
theorem triple_transactionally (rt : Runtime S)
    (engine : Option CryptoKeystoreError) {operation : PkiM S α} (weaker : ∀ pe, Q pe → P pe)
    (triple : Triple (Memory P) operation (fun _ => Memory Q) (fun _ => Memory P)) :
    Triple (Memory P) (transactionally rt engine operation) (fun _ => Memory Q)
      (fun _ => Memory P) := by
  intro env holds
  simp only [transactionally, Database.tryNewImmediateTransaction]
  cases env.database.newTransaction with
  | none => exact triple env holds
  | some database =>
    have inner := triple { env with database } holds
    dsimp only
    cases ran : operation { env with database } with
    | ok a after =>
      rw [ran] at inner
      dsimp only
      rcases after.database.commitTransaction rt engine with ⟨_ | _, _⟩
      · exact weaker _ inner
      · exact inner
    | error e after =>
      rw [ran] at inner
      dsimp only
      rcases after.database.rollbackTransaction with ⟨_ | _, _⟩ <;> exact inner

variable {x : X509} {Issued : Certificate → Certificate → Prop} {origin : RjtPkiEnvironment}

/-- A sound environment with the trust anchors and the intermediates of another one. -/
structure Beside (x : X509) (Issued : Certificate → Certificate → Prop)
    (origin pe : RjtPkiEnvironment) : Prop where
  sound : Sound x Issued pe
  anchors : pe.getTrustAnchors = origin.getTrustAnchors
  certificates : pe.certificates = origin.certificates

theorem Beside.keyIdOfIssuer {pe : RjtPkiEnvironment} {der : Bytes}
    (beside : Beside x Issued origin pe) (keyId : KeyIdOfIssuer x origin der) :
    KeyIdOfIssuer x pe der := by
  intro crl akid decoded isKeyId cert found
  unfold foundByKeyId at found
  rw [beside.anchors, beside.certificates] at found
  exact keyId crl akid decoded isKeyId cert found

theorem saveCrl_triple (lookups : x.LooksUp) (rt : Runtime S) (out : Surroundings) (crlDp : String)
    {crlDer : Bytes} (keyId : KeyIdOfIssuer x origin crlDer) :
    Triple (Memory (Beside x Issued origin)) (saveCrl x rt out crlDp crlDer)
      (fun _ => Memory fun pe => Beside x Issued origin pe ∧
        ∃ crl, x.crlFromDer crlDer = some crl ∧ Anchored x Issued pe crlDer crl)
      (fun _ => Memory (Beside x Issued origin)) := by
  unfold saveCrl
  apply triple_get_bind
  intro env _
  refine triple_bind _ (triple_orFail fun _ _ holds => holds.2) fun crl => ?_
  refine triple_bind _ (triple_orElse fun _ _ holds => holds.1.2) fun toi => ?_
  -- from here on the list is in memory, whether it is written or not
  refine triple_bind (fun _ => Memory fun pe => Beside x Issued origin pe ∧
    ∃ crl, x.crlFromDer crlDer = some crl ∧ Anchored x Issued pe crlDer crl) ?_ fun _ => ?_
  · rintro _ ⟨⟨⟨rfl, beside⟩, validated⟩, -⟩
    obtain ⟨decoded, anchored⟩ := anchored_of_validateCrlWithRaw lookups beside.sound
      (beside.keyIdOfIssuer keyId) validated
    have added := beside.sound.addCrlSource
      ((CrlStore.ofList [crl]).indexCrls x.codec toi) crlDer crl (by simp [CrlStore.ofList])
      decoded anchored
    exact ⟨⟨added, beside.anchors, beside.certificates⟩, crl, decoded, anchored⟩
  · refine triple_bind _ (triple_orElse fun _ _ holds => holds.1) fun content => ?_
    exact triple_weaken (triple_transactionally rt _ (fun _ holds => holds) (triple_onDatabase _))
      (fun _ holds => holds.1) (fun _ _ holds => holds) (fun _ _ holds => holds.1)

theorem addTrustAnchor_triple (rt : Runtime S) (out : Surroundings) (cert : Certificate) :
    Triple (Memory (Sound x Issued)) (addTrustAnchor x rt out cert)
      (fun _ => Memory (Sound x Issued)) (fun _ => Memory (Sound x Issued)) := by
  unfold addTrustAnchor
  refine triple_bind _ (triple_orFail fun _ _ holds => holds) fun _ => ?_
  refine triple_bind _ (triple_orElse fun _ _ holds => holds.1) fun content => ?_
  refine triple_bind (fun _ => Memory (Sound x Issued)) ?_ fun _ => ?_
  · exact triple_of_pre (triple_transactionally rt _ (fun _ holds => holds) (triple_onDatabase _))
      fun _ holds => holds.1.1
  refine triple_bind _ (triple_orFail fun _ _ holds => holds) fun _ => ?_
  exact triple_of_pre (triple_onSources fun pe sound => sound.addTrustAnchorSource [cert])
    fun _ holds => holds.1

theorem addIntermediateCert_triple (lookups : x.LooksUp) (rt : Runtime S) {out : Surroundings}
    {cert : Certificate} (path : HasPath Issued origin.getTrustAnchors cert)
    (keyIds : ∀ crls, revocationLists x out cert = .ok crls →
      ∀ crl ∈ crls, KeyIdOfIssuer x origin crl.2) :
    Triple (Memory (Beside x Issued origin)) (addIntermediateCert x rt out cert)
      (fun _ => Memory (Sound x Issued)) (fun _ => Memory (Sound x Issued)) := by
  have forget (_ : Error) (env : PkiEnvironment S) (holds : Memory (Beside x Issued origin) env) :
      Memory (Sound x Issued) env := holds.sound
  unfold addIntermediateCert
  refine triple_bind _ (triple_orFail forget) fun ids => ?_
  refine triple_bind _ (triple_orElse fun _ _ holds => holds.1.sound) fun content => ?_
  refine triple_bind (fun _ => Memory (Beside x Issued origin)) ?_ fun _ => ?_
  · refine triple_weaken (triple_transactionally rt _ (fun _ holds => holds) ?_)
      (fun _ holds => holds.1.1) (fun _ _ holds => holds) forget
    refine triple_bind _ (triple_onDatabase _) fun _ => ?_
    refine triple_bind _ (triple_orFail fun _ _ holds => holds) fun crls => ?_
    -- each list is checked against the certificates that were there before the call
    rintro env ⟨beside, listed⟩
    refine triple_forM (fun crl member => ?_) env beside
    exact triple_weaken
      (saveCrl_triple lookups rt out crl.1 (keyIds crls listed crl member))
      (fun _ holds => holds) (fun _ _ holds => holds.1) (fun _ _ holds => holds)
  refine triple_bind _ (triple_orElse forget) fun toi => ?_
  refine triple_bind _ (triple_orFail fun _ _ holds => holds.1.sound) fun _ => ?_
  exact triple_of_pre (triple_onSources fun pe (beside : Beside x Issued origin pe) =>
    beside.sound.addCertificateSource (beside.anchors ▸ path)) fun _ holds => holds.1.1

end Operations

/-! ### Runs -/

section Runs

variable {x : X509} {Issued : Certificate → Certificate → Prop}

theorem sound_afterCall (lookups : x.LooksUp) (rt : Runtime S) (env : PkiEnvironment S)
    (call : Call × Surroundings) (sound : Sound x Issued env.rjtPkiEnv)
    (vouched : Vouched x Issued env call) : Sound x Issued (afterCall x rt env call).rjtPkiEnv := by
  have beside : Beside x Issued env.rjtPkiEnv env.rjtPkiEnv := ⟨sound, rfl, rfl⟩
  obtain ⟨call, out⟩ := call
  cases call with
  | addTrustAnchor cert => exact triple_finalState (addTrustAnchor_triple rt out cert) sound
  | addIntermediateCert cert =>
    exact triple_finalState
      (addIntermediateCert_triple lookups rt vouched.1 vouched.2) beside
  | saveCrl crlDp crlDer =>
    have saved : Beside x Issued env.rjtPkiEnv
        (finalState (saveCrl x rt out crlDp crlDer) env).rjtPkiEnv :=
      triple_finalState (triple_weaken (saveCrl_triple lookups rt out crlDp vouched)
        (fun _ holds => holds) (fun _ _ holds => holds.1) (fun _ _ holds => holds)) beside
    exact saved.sound

theorem acceptsAnchored_of_vouched (lookups : x.LooksUp) (rt : Runtime S)
    (env : PkiEnvironment S) (call : Call × Surroundings) (sound : Sound x Issued env.rjtPkiEnv)
    (vouched : Vouched x Issued env call) : AcceptsAnchored x rt Issued env call := by
  obtain ⟨call, out⟩ := call
  rintro crlDp crlDer after rfl accepted
  have result := saveCrl_triple lookups rt out crlDp vouched env
    (⟨sound, rfl, rfl⟩ : Beside x Issued env.rjtPkiEnv env.rjtPkiEnv)
  rw [accepted] at result
  exact result.2

/-- **Accepted lists are anchored** in every run in which each intermediate has a path to a
configured trust anchor when it is added, and the key id of each list leads to certificates of
its issuer. -/
theorem accepted_lists_are_anchored (lookups : x.LooksUp) (rt : Runtime S) (env : PkiEnvironment S)
    (initially : Sound x Issued env.rjtPkiEnv) (calls : List (Call × Surroundings))
    (vouched : Guarded (afterCall x rt) (Vouched x Issued) env calls) :
    Guarded (afterCall x rt) (AcceptsAnchored x rt Issued) env calls ∧
      Sound x Issued (run (afterCall x rt) env calls).rjtPkiEnv := by
  constructor
  · exact guarded_of_invariant _ _ _ (fun env => Sound x Issued env.rjtPkiEnv)
      (sound_afterCall lookups rt) (acceptsAnchored_of_vouched lookups rt) env calls initially
      vouched
  · exact run_invariant _ _ (fun env => Sound x Issued env.rjtPkiEnv) (sound_afterCall lookups rt)
      env calls initially vouched

end Runs

theorem sampleX509_looksUp : sampleX509.LooksUp where
  trustAnchor _ _ _ found := List.mem_of_find?_eq_some found
  bySkid _ _ _ found cert member := by
    cases found
    exact List.mem_of_mem_filter member
  anchorByName _ _ _ found :=
    ⟨List.mem_of_find?_eq_some found, by simpa using List.find?_some found⟩
  certByName _ _ _ member := by simpa [sampleX509] using member

/-- The root has issued one certificate. -/
def sampleIssued (parent child : Certificate) : Prop :=
  parent = sampleCertificate 1 ∧ child = sampleCertificate 2

theorem sampleFresh_sound : Sound sampleX509 sampleIssued sampleFresh.rjtPkiEnv where
  paths _ listed := by simp [sampleFresh, certificates] at listed
  lists _ listed := by simp [sampleFresh, RjtPkiEnvironment.crls, CrlStore.ofList] at listed

/-- The root, and an intermediate with the name of the root and with the given key. -/
def sampleCalls (key : UInt8) : List (Call × Surroundings) :=
  [(.addTrustAnchor (sampleCertificate 1), sampleSurroundings),
    (.addIntermediateCert (sampleCertificate key), sampleSurroundings)]

theorem sample_keyIdOfIssuer (pe : RjtPkiEnvironment) (der : Bytes) :
    KeyIdOfIssuer sampleX509 pe der := by
  intro crl akid decoded isKeyId
  cases decoded
  simp [authorityKeyId, sampleCrl] at isKeyId

theorem accepted_lists_are_anchored_sample :
    outcome (saveCrl sampleX509 (.newestFirst id) sampleSurroundings "dp" [2])
        (run (afterCall sampleX509 (.newestFirst id)) sampleFresh (sampleCalls 2)) = .ok () ∧
      Sound sampleX509 sampleIssued (run (afterCall sampleX509 (.newestFirst id)) sampleFresh
        (sampleCalls 2 ++ [(.saveCrl "dp" [2], sampleSurroundings)])).rjtPkiEnv := by
  have root : sampleCertificate 1 ∈ (afterCall sampleX509 (.newestFirst id) sampleFresh
      (.addTrustAnchor (sampleCertificate 1), sampleSurroundings)).rjtPkiEnv.getTrustAnchors := by
    decide +kernel
  have vouched : Guarded (afterCall sampleX509 (.newestFirst id))
      (Vouched sampleX509 sampleIssued) sampleFresh
      (sampleCalls 2 ++ [(.saveCrl "dp" [2], sampleSurroundings)]) := by
    simp only [sampleCalls, List.cons_append, List.nil_append, guarded_cons, guarded_nil, and_true]
    exact ⟨trivial, ⟨.anchored root ⟨rfl, rfl⟩, fun _ _ _ _ => sample_keyIdOfIssuer _ _⟩,
      sample_keyIdOfIssuer _ _⟩
  exact ⟨rfl, (accepted_lists_are_anchored sampleX509_looksUp (.newestFirst id) sampleFresh
    sampleFresh_sound _ vouched).2⟩

/-- An intermediate that nobody has issued, but with the name of the root: a list signed with its
key is accepted as one of the root. -/
theorem list_of_unissued_intermediate_accepted :
    outcome (saveCrl sampleX509 (.newestFirst id) sampleSurroundings "dp" [3])
        (run (afterCall sampleX509 (.newestFirst id)) sampleFresh (sampleCalls 3)) = .ok () ∧
      ¬ Anchored sampleX509 sampleIssued
        (finalState (saveCrl sampleX509 (.newestFirst id) sampleSurroundings "dp" [3])
          (run (afterCall sampleX509 (.newestFirst id)) sampleFresh (sampleCalls 3))).rjtPkiEnv
        [3] (sampleCrl [3]) := by
  refine ⟨rfl, ?_⟩
  generalize sources : (finalState (saveCrl sampleX509 (.newestFirst id) sampleSurroundings "dp" [3])
    (run (afterCall sampleX509 (.newestFirst id)) sampleFresh (sampleCalls 3))).rjtPkiEnv = pe
  have anchors : pe.getTrustAnchors = [sampleCertificate 1] := by
    rw [← sources]
    decide +kernel
  have intermediates : pe.certificates = [sampleCertificate 3] := by
    rw [← sources]
    decide +kernel
  rintro ⟨cert, tbs, -, verified, -, configured | ⟨listed, path⟩⟩
  · rw [anchors, List.mem_singleton] at configured
    subst configured
    exact absurd verified (by simp [sampleX509, sampleCrl, sampleCertificate])
  · -- the root has issued another certificate only
    rw [intermediates, List.mem_singleton] at listed
    subst listed
    cases path with
    | anchored _ issued => exact absurd issued.2 (by decide)
    | through _ issued => exact absurd issued.2 (by decide)

end CoreCrypto.Pki
