import CoreCrypto.Pki.InStep

/-!
# Restoring the PKI environment

What `restore_pki_env` loads, in terms of the rows that readers see, and the theorem about runs:
after careful events, memory holds what would be restored.
-/

namespace CoreCrypto.Pki

open Keystore Library Library.Fallible Revocation RjtPkiEnvironment TransactionContext

variable {S : Type} {x : X509} {rt : Runtime S} {env : PkiEnvironment S} {pe : RjtPkiEnvironment}
  {out : Surroundings} {α : Type} {fromDer : Bytes → Option α}

/-! ### Reading the tables -/

theorem get_eq_row {database : Database S} (healthy : Healthy rt database) (id : EntityId)
    (found : id.typ.saveMode ≠ .upsertText) : database.get rt id = .ok (row rt database id) := by
  obtain ⟨rows, connected⟩ := Option.isSome_iff_exists.mp healthy.connected
  cases slot : database.transaction with
  | none => rw [Database.get_idle rt connected slot found, row_idle database connected slot]
  | some tx =>
    rw [Database.get_open rt connected slot found, row_open database connected slot]

theorem loadAll_rows {database : Database S} (healthy : Healthy rt database) (typ : EntityType)
    (upsert : replaced typ) :
    ∃ rows, database.loadAll rt typ = .ok rows ∧
      ∀ e, e ∈ rows ↔ e.typ = typ ∧ row rt database (rt.fromEntity e) = some e := by
  obtain ⟨rows, connected⟩ := Option.isSome_iff_exists.mp healthy.connected
  have distinct := healthy.distinct rows connected typ upsert
  cases slot : database.transaction with
  | none =>
    refine ⟨_, Database.loadAll_idle rt connected slot typ, fun e => ?_⟩
    rw [mem_ofType, row_idle database connected slot, and_comm]
    exact and_congr_right fun isTyp => (storedRow_iff rt typ rows distinct e isTyp).symm
  | some tx =>
    refine ⟨_, Database.loadAll_open rt database rows tx connected slot typ, fun e => ?_⟩
    rw [tx.mem_findAll rt typ rows (healthy.keyed tx slot) distinct e,
      row_open database connected slot]

theorem loadAll_contents {database : Database S} (healthy : Healthy rt database)
    {collection : PlainCollection} (upsert : replaced (.plain collection)) :
    ∃ rows, database.loadAll rt (.plain collection) = .ok rows ∧
      ∀ content, content ∈ rows.map contentOf ↔
        ∃ key, contentAt rt database collection key = some content := by
  obtain ⟨rows, loaded, listed⟩ := loadAll_rows healthy (.plain collection) upsert
  refine ⟨rows, loaded, fun content => ?_⟩
  rw [List.mem_map]
  constructor
  · rintro ⟨entity, member, rfl⟩
    obtain ⟨isTyp, seen⟩ := (listed entity).mp member
    cases entity with
    | plain other key content =>
      cases isTyp
      exact ⟨key, congrArg (Option.map contentOf) seen⟩
    | _ => cases isTyp
  · rintro ⟨key, found⟩
    obtain ⟨entity, seen, rfl⟩ := Option.map_eq_some_iff.mp found
    have filed := row_id healthy seen
    refine ⟨entity, (listed entity).mpr ⟨congrArg EntityId.typ filed, ?_⟩, rfl⟩
    rw [filed]
    exact seen

theorem decodeAll_eq_ok {contents : List Bytes} {decoded : List α} :
    decodeAll fromDer contents = .ok decoded ↔
      (∀ content ∈ contents, (fromDer content).isSome) ∧ decoded = contents.filterMap fromDer := by
  induction contents generalizing decoded with
  | nil =>
    constructor
    · intro ok
      cases ok
      simp
    · rintro ⟨-, rfl⟩
      rfl
  | cons content rest ih =>
    unfold decodeAll at ih ⊢
    rw [List.mapM_cons]
    cases first : fromDer content with
    | none =>
      constructor
      · intro ok
        cases ok
      · rintro ⟨all, -⟩
        simpa [first] using all content List.mem_cons_self
    | some a =>
      constructor
      · intro ok
        obtain ⟨_, here, ok⟩ := bind_eq_ok ok
        obtain ⟨others, restOk, ok⟩ := bind_eq_ok ok
        cases here
        cases ok
        obtain ⟨all, rfl⟩ := ih.mp restOk
        simp only [List.mem_cons, forall_eq_or_imp, first, Option.isSome_some, true_and,
          List.filterMap_cons]
        exact ⟨all, trivial⟩
      · rintro ⟨all, rfl⟩
        have restOk := ih.mpr ⟨fun other member => all other (List.mem_cons_of_mem _ member), rfl⟩
        simp only [ok_bind, restOk, List.filterMap_cons, first]
        rfl

/-! ### What is loaded -/

theorem loadCollection_replica {database : Database S} (healthy : Healthy rt database)
    {collection : PlainCollection} (upsert : replaced (.plain collection))
    {held : List α} (replica : Replica (contentAt rt database collection) fromDer held) :
    ∃ loaded, loadCollection rt database collection fromDer = .ok loaded ∧
      ∀ a, a ∈ loaded ↔ a ∈ held := by
  obtain ⟨rows, listed, contents⟩ := loadAll_contents healthy upsert
  refine ⟨_, ?_, replica.mem_filterMap contents⟩
  rw [loadCollection, listed]
  refine decodeAll_eq_ok.mpr ⟨fun content member => ?_, rfl⟩
  obtain ⟨key, found⟩ := (contents content).mp member
  exact replica.decodes key content found

theorem loadTrustRoots_replica {database : Database S} (healthy : Healthy rt database)
    {held : List Certificate}
    (replica : Replica (fun _ : Unit => contentAt rt database .e2eiAcmeCA uniqueKey)
      x.certFromDer held) :
    ∃ loaded, loadTrustRoots x rt database = .ok loaded ∧ ∀ cert, cert ∈ loaded ↔ cert ∈ held := by
  have stored : contentAt rt database .e2eiAcmeCA uniqueKey =
      (row rt database acmeCaId).map contentOf := rfl
  unfold loadTrustRoots
  rw [get_eq_row healthy acmeCaId (by rintro ⟨⟩)]
  cases seen : row rt database acmeCaId with
  | none =>
    rw [seen] at stored
    exact ⟨[], rfl, fun cert => by simp [replica.same, stored]⟩
  | some taRaw =>
    rw [seen] at stored
    have decodes := replica.decodes () (contentOf taRaw) stored
    refine ⟨_, decodeAll_eq_ok.mpr ⟨by simpa using decodes, rfl⟩, ?_⟩
    exact replica.mem_filterMap fun content => by simp [stored, eq_comm]

/-! ### What a new environment starts with -/

theorem replica_of_loadCollection {database : Database S} (healthy : Healthy rt database)
    {collection : PlainCollection} (upsert : replaced (.plain collection))
    {loaded : List α} (ok : loadCollection rt database collection fromDer = .ok loaded) :
    Replica (contentAt rt database collection) fromDer loaded := by
  obtain ⟨rows, listed, contents⟩ := loadAll_contents healthy upsert
  rw [loadCollection, listed] at ok
  obtain ⟨decodes, rfl⟩ := decodeAll_eq_ok.mp ok
  exact .of_filterMap contents decodes

theorem replica_of_loadTrustRoots {database : Database S} (healthy : Healthy rt database)
    {loaded : List Certificate} (ok : loadTrustRoots x rt database = .ok loaded) :
    Replica (fun _ : Unit => contentAt rt database .e2eiAcmeCA uniqueKey) x.certFromDer loaded := by
  have stored : contentAt rt database .e2eiAcmeCA uniqueKey =
      (row rt database acmeCaId).map contentOf := rfl
  unfold loadTrustRoots at ok
  rw [get_eq_row healthy acmeCaId (by rintro ⟨⟩)] at ok
  cases seen : row rt database acmeCaId with
  | none =>
    rw [seen] at ok stored
    cases ok
    exact .empty fun _ => stored
  | some taRaw =>
    rw [seen] at ok stored
    obtain ⟨decodes, rfl⟩ := decodeAll_eq_ok.mp ok
    refine .of_filterMap (fun content => ?_) decodes
    simp [stored, eq_comm]

theorem init_eq_ok {params : PkiEnvironmentParams} (ok : init x out params = .ok pe) :
    pe.getTrustAnchors = params.trustRoots ∧ pe.certificates = params.intermediates ∧
      pe.crls = params.crls := by
  unfold init at ok
  cases clock : out.now with
  | none => simp [clock] at ok
  | some toi =>
    rw [clock] at ok
    obtain ⟨_, -, ok⟩ := bind_eq_ok ok
    obtain ⟨_, -, ok⟩ := bind_eq_ok ok
    obtain ⟨_, -, ok⟩ := bind_eq_ok ok
    obtain ⟨_, -, ok⟩ := bind_eq_ok ok
    cases ok
    simp [getTrustAnchors, certificates, RjtPkiEnvironment.crls, CrlStore.ofList]

theorem restorePkiEnv_eq_ok {database : Database S}
    (ok : restorePkiEnv x rt out database = .ok pe) :
    ∃ params, loadParams x rt database = .ok params ∧ pe.getTrustAnchors = params.trustRoots ∧
      pe.certificates = params.intermediates ∧ pe.crls = params.crls := by
  obtain ⟨params, loaded, rest⟩ := bind_eq_ok ok
  cases made : init x out params with
  | error e => simp [made] at rest
  | ok sources =>
    rw [made] at rest
    cases rest
    exact ⟨params, loaded, init_eq_ok made⟩

/-- **In step, the same is restored.** -/
theorem InStep.sameAsRestored (inStep : InStep x rt env) : SameAsRestored x rt env := by
  obtain ⟨⟨healthy, -⟩, holds⟩ := inStep
  obtain ⟨roots, rootsLoaded, anchors⟩ := loadTrustRoots_replica healthy holds.anchors
  obtain ⟨certs, certsLoaded, intermediates⟩ := loadCollection_replica healthy
    (pki_upsert .e2eiIntermediateCert (by decide)) holds.intermediates
  obtain ⟨lists, listsLoaded, crls⟩ := loadCollection_replica healthy
    (pki_upsert .e2eiCrl (by decide)) holds.crls
  have loads : loadParams x rt env.database = .ok ⟨roots, certs, lists⟩ := by
    unfold loadParams
    rw [rootsLoaded, certsLoaded, listsLoaded]
    rfl
  refine ⟨⟨_, loads, anchors, intermediates, crls⟩, fun out restored ok => ?_⟩
  obtain ⟨params, loaded, sameAnchors, sameCerts, sameLists⟩ := restorePkiEnv_eq_ok ok
  rw [loads] at loaded
  cases loaded
  rw [sameAnchors, sameCerts, sameLists]
  exact ⟨anchors, intermediates, crls⟩

theorem open_steady {rows : List (Entity S)}
    (distinct : ∀ typ : EntityType, replaced typ →
      DistinctKeys rt.fromEntity (ofType typ rows)) : Steady rt (Database.open' rows) where
  connected := rfl
  distinct := by
    rintro _ ⟨⟩
    exact distinct
  keyed := by
    rintro tx ⟨⟩
  balanced := rfl
  removes := by
    rintro tx ⟨⟩

theorem inStep_new {database : Database S} (steady : Steady rt database)
    (ok : PkiEnvironment.new x rt out database = .ok env) : InStep x rt env := by
  obtain ⟨pe, restored, made⟩ := bind_eq_ok ok
  cases made
  obtain ⟨params, loaded, anchors, intermediates, crls⟩ := restorePkiEnv_eq_ok restored
  obtain ⟨roots, rootsLoaded, loaded⟩ := bind_eq_ok loaded
  obtain ⟨certs, certsLoaded, loaded⟩ := bind_eq_ok loaded
  obtain ⟨lists, listsLoaded, loaded⟩ := bind_eq_ok loaded
  cases loaded
  have healthy := steady.toHealthy
  refine ⟨steady, ?_, ?_, ?_⟩
  · rw [anchors]
    exact replica_of_loadTrustRoots healthy rootsLoaded
  · rw [intermediates]
    exact replica_of_loadCollection healthy (pki_upsert .e2eiIntermediateCert (by decide))
      certsLoaded
  · rw [crls]
    exact replica_of_loadCollection healthy (pki_upsert .e2eiCrl (by decide)) listsLoaded

/-! ### Runs -/

/-- **Memory holds what would be restored** in every state that careful events lead to, and on
the way calls that return `Ok` do what they are for and nothing that was saved is lost.  While a
transaction is open, `restore_pki_env` would read through it. -/
theorem memory_matches_restored (roundTrip : x.RoundTrip) (rows : List (Entity S))
    (distinct : ∀ typ : EntityType, replaced typ →
      DistinctKeys rt.fromEntity (ofType typ rows)) (out : Surroundings) (env : PkiEnvironment S)
    (opened : PkiEnvironment.new x rt out (.open' rows) = .ok env) (events : List (Event S))
    (careful : Guarded (after x rt) (Careful x rt) env events) :
    Guarded (after x rt) (Kept x rt) env events ∧
      SameAsRestored x rt (run (after x rt) env events) := by
  have initially := inStep_new (open_steady distinct) opened
  have step (env : PkiEnvironment S) (event : Event S) (inStep : InStep x rt env)
      (careful : Careful x rt env event) := stepsWell_of_careful roundTrip inStep careful
  constructor
  · exact guarded_of_invariant _ _ _ (InStep x rt) (fun env event inStep careful =>
      (step env event inStep careful).1) (fun env event inStep careful =>
      (step env event inStep careful).2) env events initially careful
  · exact (run_invariant _ _ (InStep x rt) (fun env event inStep careful =>
      (step env event inStep careful).1) env events initially careful).sameAsRestored

theorem sampleX509_roundTrip : sampleX509.RoundTrip where
  certificate cert der encoded := by
    simp only [sampleX509] at encoded ⊢
    split at encoded
    · split at encoded
      next key _ same =>
        cases encoded
        exact congrArg some same.symm
      next => cases encoded
    · cases encoded
  crl crl der encoded := by
    simp only [sampleX509, sampleCodec] at encoded ⊢
    split at encoded
    next same =>
      cases encoded
      exact congrArg some same.symm
    next => cases encoded

/-- A trust anchor and a list signed by it, added within a transaction of another task. -/
def sampleEvents : List (Event Unit) :=
  [.newTransaction, .call (.addTrustAnchor (sampleCertificate 1)) sampleSurroundings,
    .call (.saveCrl "dp" [1]) sampleSurroundings, .commitTransaction none]

theorem memory_matches_restored_sample :
    SameAsRestored sampleX509 (.newestFirst id)
      (run (after sampleX509 (.newestFirst id)) sampleFresh sampleEvents) := by
  have careful : Guarded (after sampleX509 (.newestFirst id))
      (Careful sampleX509 (.newestFirst id)) sampleFresh sampleEvents := by
    simp only [sampleEvents, guarded_cons, guarded_nil, and_true]
    refine ⟨trivial, ⟨rfl, rfl, by decide +kernel⟩, ⟨rfl, fun crl validated => ?_⟩, trivial⟩
    cases (validateCrlWithRaw_eq_ok validated).1
    refine ⟨rfl, fun old found => ?_⟩
    exact absurd found (by rw [show contentAt _ _ _ _ = none by decide +kernel]; rintro ⟨⟩)
  exact (memory_matches_restored sampleX509_roundTrip [] (fun _ _ => by simp [ofType, DistinctKeys])
    sampleSurroundings sampleFresh rfl sampleEvents careful).2

/-- Two trust anchors, one after the other: the second one replaces the first in the database, but
validation goes on to trust both. -/
theorem replaced_anchor_still_trusted :
    let env := run (after sampleX509 (.newestFirst id)) sampleFresh
      [.call (.addTrustAnchor (sampleCertificate 1)) sampleSurroundings,
        .call (.addTrustAnchor (sampleCertificate 2)) sampleSurroundings]
    env.database.transaction = none ∧ sampleCertificate 1 ∈ env.rjtPkiEnv.getTrustAnchors ∧
      (loadParams sampleX509 (.newestFirst id) env.database).toOption.map
        PkiEnvironmentParams.trustRoots = some [sampleCertificate 2] ∧
      ¬ SameAsRestored sampleX509 (.newestFirst id) env := by
  intro env
  have trusted : sampleCertificate 1 ∈ env.rjtPkiEnv.getTrustAnchors := by decide +kernel
  have stored : (loadParams sampleX509 (.newestFirst id) env.database).toOption.map
      PkiEnvironmentParams.trustRoots = some [sampleCertificate 2] := by decide +kernel
  refine ⟨rfl, trusted, stored, ?_⟩
  rintro ⟨⟨params, loaded, same⟩, -⟩
  rw [loaded] at stored
  have restored := (same.anchors (sampleCertificate 1)).mpr trusted
  rw [Option.some.inj stored] at restored
  exact absurd restored (by decide)

end CoreCrypto.Pki
