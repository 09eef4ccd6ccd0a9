import CoreCrypto.Library.Replica
import CoreCrypto.Pki.Environment
import CoreCrypto.Pki.Rows

/-!
# The PKI environment in memory and the one on disk

The sources in memory are a replica of three tables, as they are seen through whatever transaction
is open.  Sources only grow, rows are replaced, and a write joins the transaction of anybody: the
module says which calls keep the two in step.
-/

namespace CoreCrypto.Pki

open Keystore Library Library.Fallible Revocation RjtPkiEnvironment TransactionContext

section Definitions

variable {S : Type} (x : X509) (rt : Runtime S)

/-- What is stored under a key of a collection, as readers see it. -/
def contentAt (database : Database S) (collection : PlainCollection) (key : Bytes) :
    Option Bytes :=
  (row rt database ⟨.plain collection, key⟩).map contentOf

/-- The sources are a replica of the tables. -/
structure Holds (database : Database S) (pe : RjtPkiEnvironment) : Prop where
  anchors : Replica (fun _ : Unit => contentAt rt database .e2eiAcmeCA uniqueKey) x.certFromDer
    pe.getTrustAnchors
  intermediates : Replica (contentAt rt database .e2eiIntermediateCert) x.certFromDer
    pe.certificates
  crls : Replica (contentAt rt database .e2eiCrl) x.crlFromDer pe.crls

/-- The certificates and lists of a PKI environment, as it would be made from the parameters. -/
structure SameSets (params : PkiEnvironmentParams) (pe : RjtPkiEnvironment) : Prop where
  anchors : ∀ cert, cert ∈ params.trustRoots ↔ cert ∈ pe.getTrustAnchors
  intermediates : ∀ cert, cert ∈ params.intermediates ↔ cert ∈ pe.certificates
  crls : ∀ crl, crl ∈ params.crls ↔ crl ∈ pe.crls

/-- `restore_pki_env` loads what memory holds, and whatever it makes of it holds the same. -/
structure SameAsRestored (env : PkiEnvironment S) : Prop where
  loads : ∃ params, loadParams x rt env.database = .ok params ∧ SameSets params env.rjtPkiEnv
  restores : ∀ out restored, restorePkiEnv x rt out env.database = .ok restored →
    SameSets ⟨restored.getTrustAnchors, restored.certificates, restored.crls⟩ env.rjtPkiEnv

/-- Reading DER gives back what was written. -/
structure X509.RoundTrip (x : X509) : Prop where
  certificate : ∀ cert der, x.certToDer cert = some der → x.certFromDer der = some cert
  crl : ∀ crl der, x.codec.encodeCrl crl = some der → x.crlFromDer der = some crl

/-! ### Events -/

def pkiCollections : List PlainCollection := [.e2eiAcmeCA, .e2eiIntermediateCert, .e2eiCrl]

/-- The rows of the environment are written by the environment only. -/
def isForeign (write : Write S) : Prop :=
  ∀ collection ∈ pkiCollections, writeType write ≠ .plain collection

/-- The calls of the environment, and what is done with the transactions of the database by
anybody. -/
inductive Event (S : Type) where
  | call (call : Call) (out : Surroundings)
  | removeTrustAnchor (serialNumber : Bytes) (out : Surroundings)
  | newTransaction
  | commitTransaction (engine : Option CryptoKeystoreError)
  | rollbackTransaction
  | write (write : Write S) (foreign : isForeign write)

/-- The environment after an event; who waits for a transaction does so without a change. -/
def after (env : PkiEnvironment S) : Event S → PkiEnvironment S
  | .call call out => afterCall x rt env (call, out)
  | .removeTrustAnchor serialNumber out => finalState (removeTrustAnchor x rt out serialNumber) env
  | .newTransaction => { env with database := env.database.newTransaction.getD env.database }
  | .commitTransaction engine =>
    { env with database := (env.database.commitTransaction rt engine).2 }
  | .rollbackTransaction => { env with database := env.database.rollbackTransaction.2 }
  | .write write _ => { env with database := (write.perform rt env.database).2 }

/-- A key is free for a value: there is nothing under it, or that value. -/
def FreeFor {α : Type} (env : PkiEnvironment S) (collection : PlainCollection) (key : Bytes)
    (fromDer : Bytes → Option α) (a : α) : Prop :=
  ∀ old, contentAt rt env.database collection key = some old → fromDer old = some a

/-- A list that can be written, under a distribution point without another one. -/
def Storable (env : PkiEnvironment S) (crlDp : String) (crl : CertificateList) : Prop :=
  (x.codec.encodeCrl crl).isSome ∧ FreeFor rt env .e2eiCrl (textKey crlDp) x.crlFromDer crl

/-- The calls that keep memory and disk in step.  The engine commits; a trust anchor is added
beside none but itself and removed when it is the only one; no row is replaced by another one; an
intermediate whose lists cannot be fetched is added outside of other transactions, and the lists
that can be fetched are accepted.  A transaction is only rolled back if the environment has not
written into it. -/
def Careful (env : PkiEnvironment S) : Event S → Prop
  | .call (.addTrustAnchor cert) out =>
    out.engine = none ∧ x.taInitialize [cert] = .ok () ∧
      ∀ other ∈ env.rjtPkiEnv.getTrustAnchors, other = cert
  | .call (.addIntermediateCert cert) out =>
    out.engine = none ∧
      match revocationLists x out cert with
      | .error _ => env.database.transaction = none
      | .ok crls =>
        (∃ toi, out.now = some toi ∧ x.certInitialize toi [cert] = .ok ()) ∧
          (∀ ids, extractSkiAkiFromCert x cert = .ok ids →
            FreeFor rt env .e2eiIntermediateCert (textKey (skiAkiPair ids)) x.certFromDer cert) ∧
          ∀ list ∈ crls, ∃ crl, validateCrlWithRaw x env.rjtPkiEnv list.2 = .ok crl ∧
            Storable x rt env list.1 crl
  | .call (.saveCrl crlDp crlDer) out =>
    out.engine = none ∧
      ∀ crl, validateCrlWithRaw x env.rjtPkiEnv crlDer = .ok crl → Storable x rt env crlDp crl
  | .removeTrustAnchor serialNumber out =>
    out.engine = none ∧ x.taInitialize [] = .ok () ∧
      ∀ cert ∈ env.rjtPkiEnv.getTrustAnchors, cert.serialNumber = serialNumber
  | .rollbackTransaction =>
    ∀ tx, env.database.transaction = some tx → ∀ collection ∈ pkiCollections, ∀ key,
      tx.getByEntityId ⟨.plain collection, key⟩ = none
  | .newTransaction | .commitTransaction _ | .write _ _ => True

/-- What a call that returns `Ok` has done. -/
def Done (env : PkiEnvironment S) : Event S → Prop
  | .call (.addTrustAnchor cert) out =>
    outcome (addTrustAnchor x rt out cert) env = .ok () →
      ∀ other, other ∈ (after x rt env (.call (.addTrustAnchor cert) out)).rjtPkiEnv.getTrustAnchors ↔
        other = cert
  | .call (.addIntermediateCert cert) out =>
    outcome (addIntermediateCert x rt out cert) env = .ok () →
      cert ∈ (after x rt env (.call (.addIntermediateCert cert) out)).rjtPkiEnv.certificates
  | .call (.saveCrl crlDp crlDer) out =>
    outcome (saveCrl x rt out crlDp crlDer) env = .ok () →
      ∃ crl, x.crlFromDer crlDer = some crl ∧
        crl ∈ (after x rt env (.call (.saveCrl crlDp crlDer) out)).rjtPkiEnv.crls
  | .removeTrustAnchor serialNumber out =>
    outcome (removeTrustAnchor x rt out serialNumber) env = .ok () →
      ∀ cert,
        cert ∈ (after x rt env (.removeTrustAnchor serialNumber out)).rjtPkiEnv.getTrustAnchors ↔
          cert ∈ env.rjtPkiEnv.getTrustAnchors ∧ cert.serialNumber ≠ serialNumber
  | _ => True

/-- A call that returns `Ok` has done what it is for, and no event loses intermediates or
lists. -/
structure Kept (env : PkiEnvironment S) (event : Event S) : Prop where
  done : Done x rt env event
  intermediates : ∀ cert ∈ env.rjtPkiEnv.certificates,
    cert ∈ (after x rt env event).rjtPkiEnv.certificates
  crls : ∀ crl ∈ env.rjtPkiEnv.crls, crl ∈ (after x rt env event).rjtPkiEnv.crls

end Definitions

variable {S : Type} {x : X509} {rt : Runtime S} {content serialNumber crlDer : Bytes}
  {cert : Certificate} {crl : CertificateList} {middle : Database S} {event : Event S} {toi : Nat}
  {env : PkiEnvironment S} {own safe : Prop} {pe : RjtPkiEnvironment} {ids : String × Option String}
  {out : Surroundings} {α : Type}

/-! ### Tables and rows -/

theorem contentAt_congr {before after : Database S} (same : SameRows rt before after)
    {collection : PlainCollection} (upsert : replaced (.plain collection)) :
    contentAt rt after collection = contentAt rt before collection := by
  funext key
  rw [contentAt, contentAt, same ⟨.plain collection, key⟩ upsert]

theorem contentAt_save {before after : Database S} {collection : PlainCollection}
    {key : Bytes} (wrote : Wrote rt (.save (.plain collection key content)) before after)
    (upsert : replaced (.plain collection)) :
    contentAt rt after collection =
      Function.update (contentAt rt before collection) key (some content) := by
  funext other
  have seen := wrote ⟨.plain collection, other⟩ upsert
  by_cases same : other = key
  · subst same
    have here : (⟨.plain collection, other⟩ : EntityId) =
        Write.id rt (.save (.plain collection other content)) := rfl
    rw [Function.update_self, contentAt, seen, if_pos here]
    rfl
  · rw [Function.update_of_ne same, contentAt, seen, if_neg, contentAt]
    rintro ⟨⟩
    exact same rfl

theorem contentAt_other {write : Write S} {before after : Database S}
    (wrote : Wrote rt write before after) {collection : PlainCollection}
    (upsert : replaced (.plain collection))
    (other : writeType write ≠ .plain collection) :
    contentAt rt after collection = contentAt rt before collection := by
  funext key
  rw [contentAt, contentAt, wrote ⟨.plain collection, key⟩ upsert, if_neg]
  intro same
  refine other ?_
  rw [← writeType_eq, ← same]

theorem pki_upsert : ∀ collection ∈ pkiCollections, replaced (.plain collection) := by
  decide

/-- The sources stay a replica as long as the three tables do not change. -/
theorem Holds.congr {before after : Database S} (holds : Holds x rt before pe)
    (same : ∀ collection ∈ pkiCollections,
      contentAt rt after collection = contentAt rt before collection) : Holds x rt after pe where
  anchors := by
    rw [same .e2eiAcmeCA (by decide)]
    exact holds.anchors
  intermediates := by
    rw [same .e2eiIntermediateCert (by decide)]
    exact holds.intermediates
  crls := by
    rw [same .e2eiCrl (by decide)]
    exact holds.crls

/-! ### Transactions around operations -/

/-- A call of the database, as one of its writes. -/
def performing (rt : Runtime S) (write : Write S) : PkiM S Unit :=
  onDatabase fun database => write.perform rt database

theorem Wrote.sameRows {write : Write S} {before after : Database S}
    (wrote : Wrote rt write before middle) (same : SameRows rt middle after) :
    Wrote rt write before after :=
  fun id upsert => (same id upsert).trans (wrote id upsert)

theorem SameRows.wrote {write : Write S} {before after : Database S}
    (same : SameRows rt before middle) (wrote : Wrote rt write middle after) :
    Wrote rt write before after := by
  intro id upsert
  rw [wrote id upsert, same id upsert]

theorem performing_inside (env : PkiEnvironment S) (write : Write S)
    (inside : Inside rt own safe env.database) (upsert : own → (writeType write).saveMode ≠ .insert)
    (effective : safe → ∀ id, write = .remove id → Effective id) :
    ∃ database, performing rt write env = .ok () { env with database } ∧
      Inside rt own safe database ∧ Wrote rt write env.database database := by
  obtain ⟨database, performed, stays, wrote⟩ := write_inside write inside upsert effective
  refine ⟨database, ?_, stays, wrote⟩
  simp only [performing, onDatabase, performed]

theorem transactionally_inside (env : PkiEnvironment S) (engine : Option CryptoKeystoreError)
    (operation : PkiM S α) (inside : Inside rt own safe env.database) :
    transactionally rt engine operation env = operation env := by
  simp only [transactionally, Database.tryNewImmediateTransaction,
    newTransaction_busy inside.healthy inside.opened]

/-- An operation that succeeds inside of any transaction succeeds in one that is made for it, if
the engine commits.  What it has done is seen by readers, in memory and among the rows. -/
theorem transactionally_ok {operation : PkiM S α} {a : α}
    (did : RjtPkiEnvironment → Database S → Prop) (healthy : Steady rt env.database)
    (succeeds : ∀ own database, Inside rt own True database → SameRows rt env.database database →
      ∃ pe after, operation { env with database } = .ok a ⟨pe, after⟩ ∧ Inside rt own True after ∧
        did pe after)
    (seen : ∀ pe before after, did pe before → SameRows rt before after → did pe after) :
    ∃ pe database, transactionally rt none operation env = .ok a ⟨pe, database⟩ ∧
      Steady rt database ∧ did pe database := by
  cases slot : env.database.transaction with
  | some tx =>
    have joined : Inside rt False True env.database :=
      ⟨healthy.toHealthy, by simp [slot], False.elim, fun _ => healthy.removes⟩
    obtain ⟨pe, database, ran, inside, done⟩ := succeeds False env.database joined
      (fun _ _ => rfl)
    refine ⟨pe, database, ?_, inside.steady, done⟩
    rw [transactionally_inside env none operation joined]
    exact ran
  | none =>
    obtain ⟨opened, began, own, same⟩ := begin_healthy healthy.toHealthy slot
    obtain ⟨pe, written, ran, inside, done⟩ := succeeds True opened own same
    obtain ⟨database, committed, stays, -, sameAfter⟩ := commit_own inside
    refine ⟨pe, database, ?_, stays, seen pe written database done sameAfter⟩
    simp only [transactionally, Database.tryNewImmediateTransaction, began, ran, committed]

theorem transactionally_performing (env : PkiEnvironment S) (write : Write S)
    (healthy : Steady rt env.database) (upsert : (writeType write).saveMode ≠ .insert)
    (effective : ∀ id, write = .remove id → Effective id) :
    ∃ database, transactionally rt none (performing rt write) env =
        .ok () ⟨env.rjtPkiEnv, database⟩ ∧
      Steady rt database ∧ Wrote rt write env.database database := by
  obtain ⟨pe, database, ran, stays, rfl, wrote⟩ := transactionally_ok
    (fun pe database => pe = env.rjtPkiEnv ∧ Wrote rt write env.database database) healthy
    (fun own database inside same => by
      obtain ⟨written, ran, stays, wrote⟩ := performing_inside
        { env with database } write inside (fun _ => upsert) (fun _ => effective)
      exact ⟨env.rjtPkiEnv, written, ran, stays, rfl, same.wrote wrote⟩)
    (fun pe before after did same => ⟨did.1, did.2.sameRows same⟩)
  exact ⟨database, ran, stays, wrote⟩

/-! ### Trust anchors -/

theorem addTrustAnchor_spec (healthy : Steady rt env.database) (commits : out.engine = none)
    (initializes : x.taInitialize [cert] = .ok ()) :
    (∃ e, addTrustAnchor x rt out cert env = .error e env) ∨
      ∃ content database, x.certToDer cert = some content ∧
        addTrustAnchor x rt out cert env =
          .ok () ⟨env.rjtPkiEnv.addTrustAnchorSource [cert], database⟩ ∧
        Steady rt database ∧ Wrote rt (.save (e2eiAcmeCA content)) env.database database := by
  unfold addTrustAnchor
  cases valid : validateTrustAnchorCert x out cert with
  | error e => exact .inl ⟨.x509Error e, run_bind_error rfl⟩
  | ok _ =>
    cases encoded : x.certToDer cert with
    | none =>
      exact .inl ⟨.x509CertDerError, (run_bind_ok rfl).trans (run_bind_error rfl)⟩
    | some content =>
      obtain ⟨database, ran, stays, wrote⟩ := transactionally_performing env
        (.save (e2eiAcmeCA content)) healthy (by rintro ⟨⟩) (by rintro _ ⟨⟩)
      refine .inr ⟨content, database, rfl, ?_, stays, wrote⟩
      rw [commits, initializes]
      exact (run_bind_ok rfl).trans ((run_bind_ok rfl).trans ((run_bind_ok ran).trans
        (run_bind_ok rfl)))

theorem removeTrustAnchor_spec (healthy : Steady rt env.database) (commits : out.engine = none)
    (initializes : x.taInitialize [] = .ok ())
    (all : ∀ cert ∈ env.rjtPkiEnv.getTrustAnchors, cert.serialNumber = serialNumber) :
    ∃ database, removeTrustAnchor x rt out serialNumber env =
        .ok () ⟨env.rjtPkiEnv.clearTrustAnchorSources.addTrustAnchorSource [], database⟩ ∧
      Steady rt database ∧ Wrote rt (.remove acmeCaId) env.database database := by
  have none : (env.rjtPkiEnv.getTrustAnchors.filter fun cert => cert.serialNumber ≠ serialNumber) =
      [] := by
    rw [List.filter_eq_nil_iff]
    intro cert member
    simp [all cert member]
  obtain ⟨database, ran, stays, wrote⟩ := transactionally_performing
    ⟨env.rjtPkiEnv.clearTrustAnchorSources.addTrustAnchorSource [], env.database⟩
    (.remove acmeCaId) healthy (by rintro ⟨⟩) (by rintro _ ⟨⟩ _; rfl)
  refine ⟨database, ?_, stays, wrote⟩
  unfold removeTrustAnchor
  refine (run_bind_ok rfl).trans ((run_bind_ok rfl).trans ?_)
  rw [none, commits]
  refine (run_bind_ok rfl).trans ?_
  rw [initializes]
  exact (run_bind_ok rfl).trans ((run_bind_ok rfl).trans ran)

/-! ### Revocation lists -/

/-- The check of a list looks at the trust anchors and the intermediates only. -/
theorem validateCrlWithRaw_congr {pe' : RjtPkiEnvironment}
    (anchors : pe'.getTrustAnchors = pe.getTrustAnchors)
    (certificates : pe'.certificates = pe.certificates) (der : Bytes) :
    validateCrlWithRaw x pe' der = validateCrlWithRaw x pe der := by
  have keys (crl : CertificateList) : spkiList x pe' crl = spkiList x pe crl := by
    have byKeyId : spkisByKeyId x pe' crl = spkisByKeyId x pe crl := by
      simp only [spkisByKeyId, foundByKeyId, anchors, certificates]
    simp only [spkiList, byKeyId, anchors, certificates]
  simp only [validateCrlWithRaw, keys]

/-- The sources with one more list. -/
def withCrl (x : X509) (toi : Nat) (crl : CertificateList) (pe : RjtPkiEnvironment) :
    RjtPkiEnvironment :=
  pe.addCrlSource ((CrlStore.ofList [crl]).indexCrls x.codec toi)

@[simp] theorem crls_withCrl (toi : Nat) (crl : CertificateList) (pe : RjtPkiEnvironment) :
    (withCrl x toi crl pe).crls = pe.crls ++ [crl] := by
  simp [withCrl, CrlStore.ofList]

/-- A list that is accepted is added to the sources first, whether or not it can be written. -/
theorem saveCrl_accepted (out : Surroundings) (crlDp : String) (crlDer : Bytes)
    (env : PkiEnvironment S) (validated : validateCrlWithRaw x env.rjtPkiEnv crlDer = .ok crl)
    (clock : out.now = some toi) :
    saveCrl x rt out crlDp crlDer env = (x.codec.encodeCrl crl).elim
      (.error (.x509Error .derError) ⟨withCrl x toi crl env.rjtPkiEnv, env.database⟩)
      fun content => transactionally rt out.engine (performing rt (.save (e2eiCrl crlDp content)))
        ⟨withCrl x toi crl env.rjtPkiEnv, env.database⟩ := by
  unfold saveCrl
  refine (run_bind_ok rfl).trans ?_
  rw [validated]
  refine (run_bind_ok rfl).trans ?_
  rw [now, clock]
  refine (run_bind_ok rfl).trans ((run_bind_ok rfl).trans ?_)
  cases x.codec.encodeCrl crl with
  | none => exact run_bind_error rfl
  | some content => exact run_bind_ok rfl

theorem saveCrl_rejected (crlDp : String)
    (rejected : (∃ e, validateCrlWithRaw x env.rjtPkiEnv crlDer = .error e) ∨ out.now = none) :
    ∃ e, saveCrl x rt out crlDp crlDer env = .error e env := by
  unfold saveCrl
  cases validated : validateCrlWithRaw x env.rjtPkiEnv crlDer with
  | error e =>
    refine ⟨.x509Error e, (run_bind_ok rfl).trans ?_⟩
    rw [validated]
    exact run_bind_error rfl
  | ok crl =>
    rcases rejected with ⟨e, failed⟩ | stopped
    · rw [validated] at failed
      cases failed
    · refine ⟨.x509Error .cannotDetermineCurrentTime, (run_bind_ok rfl).trans ?_⟩
      rw [validated, now, stopped]
      exact (run_bind_ok rfl).trans (run_bind_error rfl)

/-- Lists were added to the sources and to their table, and nothing else. -/
structure Saved (x : X509) (rt : Runtime S) (env : PkiEnvironment S) (pe : RjtPkiEnvironment)
    (database : Database S) : Prop where
  anchors : pe.getTrustAnchors = env.rjtPkiEnv.getTrustAnchors
  certificates : pe.certificates = env.rjtPkiEnv.certificates
  others : ∀ collection ∈ pkiCollections, collection ≠ .e2eiCrl →
    contentAt rt database collection = contentAt rt env.database collection
  crls : Replica (contentAt rt env.database .e2eiCrl) x.crlFromDer env.rjtPkiEnv.crls →
    Replica (contentAt rt database .e2eiCrl) x.crlFromDer pe.crls
  kept : ∀ crl ∈ env.rjtPkiEnv.crls, crl ∈ pe.crls

namespace Saved

variable {env : PkiEnvironment S} {pe : RjtPkiEnvironment} {database : Database S}
  {database' : Database S}

theorem nothing : Saved x rt env env.rjtPkiEnv env.database :=
  ⟨rfl, rfl, fun _ _ _ => rfl, id, fun _ => id⟩

theorem trans {pe' : RjtPkiEnvironment} (first : Saved x rt env pe database)
    (second : Saved x rt ⟨pe, database⟩ pe' database') : Saved x rt env pe' database' where
  anchors := second.anchors.trans first.anchors
  certificates := second.certificates.trans first.certificates
  others collection member other :=
    (second.others collection member other).trans (first.others collection member other)
  crls replica := second.crls (first.crls replica)
  kept crl member := second.kept crl (first.kept crl member)

theorem sameRows (saved : Saved x rt env pe database)
    (same : SameRows rt database database') : Saved x rt env pe database' where
  anchors := saved.anchors
  certificates := saved.certificates
  others collection member other :=
    (contentAt_congr same (pki_upsert collection member)).trans
      (saved.others collection member other)
  crls replica := by
    rw [contentAt_congr same rfl]
    exact saved.crls replica
  kept := saved.kept

theorem one (roundTrip : x.RoundTrip) {crlDp : String} {crl : CertificateList} {toi : Nat}
    {content : Bytes} (encoded : x.codec.encodeCrl crl = some content)
    (free : FreeFor rt env .e2eiCrl (textKey crlDp) x.crlFromDer crl)
    (wrote : Wrote rt (.save (e2eiCrl crlDp content)) env.database database) :
    Saved x rt env (withCrl x toi crl env.rjtPkiEnv) database where
  anchors := rfl
  certificates := rfl
  others collection member other := by
    refine contentAt_other wrote (pki_upsert collection member) ?_
    rintro ⟨⟩
    exact other rfl
  crls replica := by
    rw [contentAt_save wrote rfl, crls_withCrl]
    exact replica.put (roundTrip.crl crl content encoded) free
  kept other member := by simp [member]

end Saved

theorem saveCrl_inside (clock : out.now = some toi) (crlDp : String)
    (crlDer : Bytes) (env : PkiEnvironment S) (inside : Inside rt own safe env.database)
    (validated : validateCrlWithRaw x env.rjtPkiEnv crlDer = .ok crl)
    (encoded : x.codec.encodeCrl crl = some content) :
    ∃ database,
      saveCrl x rt out crlDp crlDer env = .ok () ⟨withCrl x toi crl env.rjtPkiEnv, database⟩ ∧
      Inside rt own safe database ∧ Wrote rt (.save (e2eiCrl crlDp content)) env.database database := by
  obtain ⟨database, performed, stays, wrote⟩ := performing_inside
    ⟨withCrl x toi crl env.rjtPkiEnv, env.database⟩ (.save (e2eiCrl crlDp content)) inside
    (fun _ => by rintro ⟨⟩) (fun _ => by rintro _ ⟨⟩)
  refine ⟨database, ?_, stays, wrote⟩
  rw [saveCrl_accepted out crlDp crlDer env validated clock, encoded]
  exact (transactionally_inside ⟨withCrl x toi crl env.rjtPkiEnv, env.database⟩ _ _ inside).trans
    performed

/-- A fetched list that is accepted and can be written. -/
def Accepted (x : X509) (rt : Runtime S) (env : PkiEnvironment S) (list : String × Bytes) : Prop :=
  ∃ crl, validateCrlWithRaw x env.rjtPkiEnv list.2 = .ok crl ∧ Storable x rt env list.1 crl

theorem Accepted.congr {list : String × Bytes} (accepted : Accepted x rt env list)
    (validates : validateCrlWithRaw x pe list.2 = validateCrlWithRaw x env.rjtPkiEnv list.2)
    (content : contentAt rt middle .e2eiCrl (textKey list.1) =
      contentAt rt env.database .e2eiCrl (textKey list.1)) : Accepted x rt ⟨pe, middle⟩ list := by
  obtain ⟨crl, validated, encodes, free⟩ := accepted
  exact ⟨crl, validates.trans validated, encodes, fun old found => free old (content ▸ found)⟩

theorem saveCrls_inside (roundTrip : x.RoundTrip) (clock : out.now = some toi)
    (crls : List (String × Bytes)) (distinct : (crls.map fun list => textKey list.1).Nodup)
    (env : PkiEnvironment S) (inside : Inside rt own safe env.database)
    (accepted : ∀ list ∈ crls, Accepted x rt env list) :
    ∃ pe database, saveCrls x rt out crls env = .ok () ⟨pe, database⟩ ∧ Inside rt own safe database ∧
      Saved x rt env pe database := by
  induction crls generalizing env with
  | nil => exact ⟨env.rjtPkiEnv, env.database, rfl, inside, .nothing⟩
  | cons list rest ih =>
    obtain ⟨crl, validated, encodes, free⟩ := accepted list List.mem_cons_self
    obtain ⟨content, encoded⟩ := Option.isSome_iff_exists.mp encodes
    obtain ⟨database, saved, insideNext, wrote⟩ :=
      saveCrl_inside clock list.1 list.2 env inside validated encoded
    have first : Saved x rt env (withCrl x toi crl env.rjtPkiEnv) database :=
      .one roundTrip encoded free wrote
    obtain ⟨fresh, distinctRest⟩ := List.nodup_cons.mp distinct
    -- the other lists are checked against the same certificates and go under other keys
    have acceptedNext : ∀ other ∈ rest,
        Accepted x rt ⟨withCrl x toi crl env.rjtPkiEnv, database⟩ other := by
      intro other member
      refine (accepted other (List.mem_cons_of_mem _ member)).congr
        (validateCrlWithRaw_congr rfl rfl _) ?_
      rw [contentAt_save wrote rfl, Function.update_of_ne]
      exact fun same => fresh (List.mem_map.mpr ⟨other, member, same⟩)
    obtain ⟨pe, database', savedRest, insideAfter, second⟩ :=
      ih distinctRest ⟨withCrl x toi crl env.rjtPkiEnv, database⟩ insideNext acceptedNext
    exact ⟨pe, database', (run_bind_ok saved).trans savedRest, insideAfter, first.trans second⟩

theorem textKey_injective : Function.Injective textKey := by
  intro a b same
  have data : a.toUTF8.data = b.toUTF8.data := Array.toList_inj.mp same
  have bytes : a.toByteArray = b.toByteArray := by
    cases first : a.toByteArray
    cases second : b.toByteArray
    simp_all [String.toUTF8]
  exact String.toByteArray_inj.mp bytes

theorem fetchCrls_names {uris : List String} {crls : List (String × Bytes)}
    (ok : fetchCrls out uris = .ok crls) : (crls.map Prod.fst).Perm uris := by
  obtain ⟨fetched, ran, listed⟩ := bind_eq_ok ok
  cases listed
  have names : uris = fetched.map Prod.fst := by
    rw [← List.forall₂_eq_eq_eq, List.forall₂_map_right_iff]
    refine (mapM_eq_ok_iff.mp ran).imp fun uri list got => ?_
    cases response : out.httpRequest uri with
    | error message => simp [response] at got
    | ok answer =>
      simp only [response] at got
      split at got
      · cases got
        rfl
      · cases got
  rw [names]
  exact (out.listOrder_perm fetched).map _

theorem revocationLists_distinct {crls : List (String × Bytes)}
    (ok : revocationLists x out cert = .ok crls) : (crls.map fun list => textKey list.1).Nodup := by
  unfold revocationLists at ok
  cases extracted : extractCrlUris x out cert with
  | error e => simp [extracted] at ok
  | ok dps =>
    rw [extracted] at ok
    have distinctUris : dps.Nodup := by
      obtain ⟨pdv, -, listed⟩ := bind_eq_ok extracted
      cases listed
      exact (out.uriOrder_perm _).nodup_iff.mpr (List.nodup_dedup _)
    have distinct : ((crls.map Prod.fst).map textKey).Nodup :=
      ((fetchCrls_names ok).nodup_iff.mpr distinctUris).map textKey_injective
    rwa [List.map_map] at distinct

/-! ### Intermediates -/

/-- A single write leaves the stored rows to the commit. -/
theorem performing_conn {write : Write S} {database : Database S}
    (performed : performing rt write env = .ok () { env with database }) :
    database.conn = env.database.conn := by
  have kept : (write.perform rt env.database).2.conn = env.database.conn := by
    cases write with
    | save entity => exact (Operation.save rt entity).conn env.database
    | remove id => exact (Operation.remove id).conn env.database
  unfold performing onDatabase at performed
  rcases called : write.perform rt env.database with ⟨_ | _, after⟩
  · simp [called] at performed
  · simp only [called, EStateM.Result.ok.injEq, PkiEnvironment.mk.injEq, true_and] at performed
    rw [called] at kept
    rw [← performed]
    exact kept

/-- An operation that fails in a transaction of its own leaves the rows as they were. -/
theorem transactionally_fails (operation : PkiM S α)
    (engine : Option CryptoKeystoreError) (healthy : Steady rt env.database)
    (idle : env.database.transaction = none) (e : Error) (pe : RjtPkiEnvironment)
    (fails : ∀ database, Inside rt True True database → database.conn = env.database.conn →
      ∃ after, operation { env with database } = .error e ⟨pe, after⟩ ∧ Inside rt True True after ∧
        after.conn = env.database.conn) :
    ∃ database, transactionally rt engine operation env = .error e ⟨pe, database⟩ ∧
      Steady rt database ∧ SameRows rt env.database database := by
  obtain ⟨opened, began, own, -⟩ := begin_healthy healthy.toHealthy idle
  have conn : opened.conn = env.database.conn := by
    rw [(newTransaction_eq healthy.balanced began).2]
  obtain ⟨after, ran, inside, connAfter⟩ := fails opened own conn
  obtain ⟨tx, slot⟩ := Option.isSome_iff_exists.mp inside.opened
  have rolledBack : after.rollbackTransaction = (.ok (), after.setTransaction none) := by
    simp only [Database.rollbackTransaction, slot]
  refine ⟨after.setTransaction none, ?_, rollback_steady inside.healthy, ?_⟩
  · simp only [transactionally, Database.tryNewImmediateTransaction, began, ran, rolledBack]
  · intro id _
    obtain ⟨rows, connected⟩ := Option.isSome_iff_exists.mp healthy.connected
    rw [row_idle env.database connected idle,
      row_idle (after.setTransaction none) (connAfter.trans connected) rfl]

/-- What `add_intermediate_cert` runs in its transaction. -/
def intermediateOperation (x : X509) (rt : Runtime S) (out : Surroundings) (cert : Certificate)
    (row : Entity S) : PkiM S Unit := do
  performing rt (.save row)
  let crls ← orFail id (revocationLists x out cert)
  saveCrls x rt out crls

/-- The row of an intermediate was written, and then lists. -/
def Added (x : X509) (rt : Runtime S) (env : PkiEnvironment S) (row : Entity S)
    (pe : RjtPkiEnvironment) (database : Database S) : Prop :=
  ∃ written, Wrote rt (.save row) env.database written ∧
    Saved x rt ⟨env.rjtPkiEnv, written⟩ pe database

theorem intermediateOperation_inside (roundTrip : x.RoundTrip) (clock : out.now = some toi)
    (pair : String) (content : Bytes) {crls : List (String × Bytes)}
    (fetched : revocationLists x out cert = .ok crls) (env : PkiEnvironment S)
    (inside : Inside rt own safe env.database) (accepted : ∀ list ∈ crls, Accepted x rt env list) :
    ∃ pe database, intermediateOperation x rt out cert (e2eiIntermediateCert pair content) env =
        .ok () ⟨pe, database⟩ ∧ Inside rt own safe database ∧
      Added x rt env (e2eiIntermediateCert pair content) pe database := by
  obtain ⟨written, performed, insideWritten, wrote⟩ := performing_inside env
    (.save (e2eiIntermediateCert pair content)) inside (fun _ => by rintro ⟨⟩)
    (fun _ => by rintro _ ⟨⟩)
  have acceptedNext : ∀ list ∈ crls, Accepted x rt ⟨env.rjtPkiEnv, written⟩ list :=
    fun list member => (accepted list member).congr rfl
      (by rw [contentAt_other wrote rfl (by rintro ⟨⟩)])
  obtain ⟨pe, database, saved, insideAfter, both⟩ := saveCrls_inside roundTrip clock crls
    (revocationLists_distinct fetched) ⟨env.rjtPkiEnv, written⟩ insideWritten acceptedNext
  refine ⟨pe, database, ?_, insideAfter, written, wrote, both⟩
  unfold intermediateOperation
  refine (run_bind_ok performed).trans ?_
  rw [fetched]
  exact (run_bind_ok rfl).trans saved

theorem addIntermediateCert_eq (extracted : extractSkiAkiFromCert x cert = .ok ids)
    (encoded : x.certToDer cert = some content) (env : PkiEnvironment S) :
    addIntermediateCert x rt out cert env =
      (do
        transactionally rt out.engine
          (intermediateOperation x rt out cert (e2eiIntermediateCert (skiAkiPair ids) content))
        let toi ← now out
        orFail .certval (x.certInitialize toi [cert])
        onSources (·.addCertificateSource [cert])) env := by
  unfold addIntermediateCert
  rw [extracted]
  refine (run_bind_ok rfl).trans ?_
  rw [encoded]
  exact run_bind_ok rfl

/-- If the lists cannot be fetched, the row of the intermediate is rolled back. -/
theorem addIntermediateCert_unfetched {e : Error} (healthy : Steady rt env.database)
    (idle : env.database.transaction = none) (extracted : extractSkiAkiFromCert x cert = .ok ids)
    (encoded : x.certToDer cert = some content) (failed : revocationLists x out cert = .error e) :
    ∃ database, addIntermediateCert x rt out cert env = .error e ⟨env.rjtPkiEnv, database⟩ ∧
      Steady rt database ∧ SameRows rt env.database database := by
  obtain ⟨database, ran, stays, same⟩ := transactionally_fails
    (intermediateOperation x rt out cert (e2eiIntermediateCert (skiAkiPair ids) content))
    out.engine healthy idle e env.rjtPkiEnv (fun database inside conn => by
      obtain ⟨written, performed, insideAfter, -⟩ := performing_inside { env with database }
        (.save (e2eiIntermediateCert (skiAkiPair ids) content)) inside (fun _ => by rintro ⟨⟩)
        (fun _ => by rintro _ ⟨⟩)
      refine ⟨written, ?_, insideAfter, (performing_conn performed).trans conn⟩
      unfold intermediateOperation
      refine (run_bind_ok performed).trans ?_
      rw [failed]
      exact run_bind_error rfl)
  refine ⟨database, ?_, stays, same⟩
  rw [addIntermediateCert_eq extracted encoded]
  exact run_bind_error ran

/-- If they are fetched and accepted, the row and the lists are written, and then the sources have
the intermediate. -/
theorem addIntermediateCert_fetched (roundTrip : x.RoundTrip) {crls : List (String × Bytes)}
    (healthy : Steady rt env.database) (commits : out.engine = none)
    (extracted : extractSkiAkiFromCert x cert = .ok ids) (encoded : x.certToDer cert = some content)
    (fetched : revocationLists x out cert = .ok crls) (clock : out.now = some toi)
    (initializes : x.certInitialize toi [cert] = .ok ())
    (accepted : ∀ list ∈ crls, Accepted x rt env list) :
    ∃ pe database,
      addIntermediateCert x rt out cert env = .ok () ⟨pe.addCertificateSource [cert], database⟩ ∧
      Steady rt database ∧
      Added x rt env (e2eiIntermediateCert (skiAkiPair ids) content) pe database := by
  obtain ⟨pe, database, ran, stays, added⟩ := transactionally_ok
    (Added x rt env (e2eiIntermediateCert (skiAkiPair ids) content)) healthy
    (fun own database inside same => by
      have acceptedHere : ∀ list ∈ crls, Accepted x rt { env with database } list :=
        fun list member => (accepted list member).congr rfl (by rw [contentAt_congr same rfl])
      obtain ⟨pe, after, ran, insideAfter, written, wrote, saved⟩ :=
        intermediateOperation_inside roundTrip clock (skiAkiPair ids) content fetched
          { env with database } inside acceptedHere
      exact ⟨pe, after, ran, insideAfter, written, same.wrote wrote, saved⟩)
    (fun pe before after added same => by
      obtain ⟨written, wrote, saved⟩ := added
      exact ⟨written, wrote, saved.sameRows same⟩)
  refine ⟨pe, database, ?_, stays, added⟩
  rw [addIntermediateCert_eq extracted encoded, commits]
  refine (run_bind_ok ran).trans ?_
  rw [now, clock]
  refine (run_bind_ok rfl).trans ?_
  rw [initializes]
  exact run_bind_ok rfl

theorem addIntermediateCert_spec (roundTrip : x.RoundTrip) (healthy : Steady rt env.database)
    (careful : Careful x rt env (.call (.addIntermediateCert cert) out)) :
    (∃ e database, addIntermediateCert x rt out cert env = .error e ⟨env.rjtPkiEnv, database⟩ ∧
        Steady rt database ∧ SameRows rt env.database database) ∨
      ∃ ids content pe database, x.certToDer cert = some content ∧
        FreeFor rt env .e2eiIntermediateCert (textKey (skiAkiPair ids)) x.certFromDer cert ∧
        addIntermediateCert x rt out cert env = .ok () ⟨pe.addCertificateSource [cert], database⟩ ∧
        Steady rt database ∧
        Added x rt env (e2eiIntermediateCert (skiAkiPair ids) content) pe database := by
  obtain ⟨commits, condition⟩ := careful
  cases extracted : extractSkiAkiFromCert x cert with
  | error e =>
    refine .inl ⟨.x509Error e, env.database, ?_, healthy, fun _ _ => rfl⟩
    unfold addIntermediateCert
    rw [extracted]
    exact run_bind_error rfl
  | ok ids =>
    cases encoded : x.certToDer cert with
    | none =>
      refine .inl ⟨.x509Error .derError, env.database, ?_, healthy, fun _ _ => rfl⟩
      unfold addIntermediateCert
      rw [extracted]
      refine (run_bind_ok rfl).trans ?_
      rw [encoded]
      exact run_bind_error rfl
    | some content =>
      cases fetched : revocationLists x out cert with
      | error e =>
        simp only [fetched] at condition
        exact .inl ⟨e, addIntermediateCert_unfetched healthy condition extracted encoded fetched⟩
      | ok crls =>
        simp only [fetched] at condition
        obtain ⟨⟨toi, clock, initializes⟩, free, accepted⟩ := condition
        obtain ⟨pe, database, added⟩ := addIntermediateCert_fetched roundTrip healthy commits
          extracted encoded fetched clock initializes accepted
        exact .inr ⟨ids, content, pe, database, rfl, free ids extracted, added⟩

/-! ### Steps -/

/-- Memory and disk are in step. -/
structure InStep (x : X509) (rt : Runtime S) (env : PkiEnvironment S) : Prop where
  healthy : Steady rt env.database
  holds : Holds x rt env.database env.rjtPkiEnv

/-- What one event must do: keep memory and disk in step, and lose nothing. -/
def StepsWell (x : X509) (rt : Runtime S) (env : PkiEnvironment S) (event : Event S) : Prop :=
  InStep x rt (after x rt env event) ∧ Kept x rt env event

variable {env : PkiEnvironment S}

theorem stepsWell_of {env' : PkiEnvironment S} (changed : after x rt env event = env')
    (inStep : InStep x rt env') (done : Done x rt env event)
    (intermediates : ∀ cert ∈ env.rjtPkiEnv.certificates, cert ∈ env'.rjtPkiEnv.certificates)
    (crls : ∀ crl ∈ env.rjtPkiEnv.crls, crl ∈ env'.rjtPkiEnv.crls) : StepsWell x rt env event := by
  subst changed
  exact ⟨inStep, done, intermediates, crls⟩

theorem stepsWell_of_unchanged {database : Database S} (inStep : InStep x rt env)
    (changed : after x rt env event = { env with database }) (healthy : Steady rt database)
    (rows : ∀ collection ∈ pkiCollections,
      contentAt rt database collection = contentAt rt env.database collection)
    (done : Done x rt env event) : StepsWell x rt env event :=
  stepsWell_of changed ⟨healthy, inStep.holds.congr rows⟩ done (fun _ => id) (fun _ => id)

theorem stepsWell_addTrustAnchor (roundTrip : x.RoundTrip) (inStep : InStep x rt env)
    (careful : Careful x rt env (.call (.addTrustAnchor cert) out)) :
    StepsWell x rt env (.call (.addTrustAnchor cert) out) := by
  obtain ⟨commits, initializes, only⟩ := careful
  rcases addTrustAnchor_spec inStep.healthy commits initializes with
    ⟨e, failed⟩ | ⟨content, database, encoded, ran, healthy, wrote⟩
  · have unchanged : after x rt env (.call (.addTrustAnchor cert) out) = env := by
      simp only [after, afterCall, Call.run, finalState, failed]
    refine stepsWell_of_unchanged inStep unchanged inStep.healthy (fun _ _ => rfl) fun ok => ?_
    simp [outcome, failed] at ok
  · have changed : after x rt env (.call (.addTrustAnchor cert) out) =
        ⟨env.rjtPkiEnv.addTrustAnchorSource [cert], database⟩ := by
      simp only [after, afterCall, Call.run, finalState, ran]
    have stored : (fun _ : Unit => contentAt rt database .e2eiAcmeCA uniqueKey) =
        Function.update (fun _ : Unit => contentAt rt env.database .e2eiAcmeCA uniqueKey) ()
          (some content) := by
      funext key
      rw [contentAt_save wrote rfl, Function.update_self, Function.update_self]
    have free (old : Bytes)
        (found : contentAt rt env.database .e2eiAcmeCA uniqueKey = some old) :
        x.certFromDer old = some cert := by
      obtain ⟨other, decoded⟩ :=
        Option.isSome_iff_exists.mp (inStep.holds.anchors.decodes () old found)
      rw [decoded, only other ((inStep.holds.anchors.same other).mpr ⟨(), old, found, decoded⟩)]
    refine stepsWell_of changed ⟨healthy, ?_, ?_, ?_⟩ ?_ (fun _ => id) (fun _ => id)
    · rw [stored, getTrustAnchors_addTrustAnchorSource]
      exact inStep.holds.anchors.put (roundTrip.certificate cert content encoded) free
    · rw [contentAt_other wrote rfl (by rintro ⟨⟩)]
      exact inStep.holds.intermediates
    · rw [contentAt_other wrote rfl (by rintro ⟨⟩)]
      exact inStep.holds.crls
    · intro _ other
      rw [changed, getTrustAnchors_addTrustAnchorSource, List.mem_append, List.mem_singleton]
      exact ⟨fun listed => listed.elim (only other) id, .inr⟩

theorem stepsWell_removeTrustAnchor (inStep : InStep x rt env)
    (careful : Careful x rt env (.removeTrustAnchor serialNumber out)) :
    StepsWell x rt env (.removeTrustAnchor serialNumber out) := by
  obtain ⟨commits, initializes, all⟩ := careful
  obtain ⟨database, ran, healthy, wrote⟩ :=
    removeTrustAnchor_spec inStep.healthy commits initializes all
  have changed : after x rt env (.removeTrustAnchor serialNumber out) =
      ⟨env.rjtPkiEnv.clearTrustAnchorSources.addTrustAnchorSource [], database⟩ := by
    simp only [after, finalState, ran]
  have none : (after x rt env (.removeTrustAnchor serialNumber out)).rjtPkiEnv.getTrustAnchors =
      [] := by
    rw [changed]
    rfl
  have gone : contentAt rt database .e2eiAcmeCA uniqueKey = Option.none := by
    have removed : row rt database acmeCaId = Option.none := by
      rw [wrote acmeCaId rfl]
      exact if_pos rfl
    exact congrArg (Option.map contentOf) removed
  refine stepsWell_of changed ⟨healthy, .empty fun _ => gone, ?_, ?_⟩ ?_ (fun _ => id) (fun _ => id)
  · rw [contentAt_other wrote rfl (by rintro ⟨⟩)]
    exact inStep.holds.intermediates
  · rw [contentAt_other wrote rfl (by rintro ⟨⟩)]
    exact inStep.holds.crls
  · intro _ cert
    rw [none]
    constructor
    · intro member
      cases member
    · rintro ⟨listed, different⟩
      exact absurd (all cert listed) different

theorem Saved.holds {database : Database S} (saved : Saved x rt env pe database)
    (holds : Holds x rt env.database env.rjtPkiEnv) : Holds x rt database pe where
  anchors := by
    rw [saved.others .e2eiAcmeCA (by decide) (by decide), saved.anchors]
    exact holds.anchors
  intermediates := by
    rw [saved.others .e2eiIntermediateCert (by decide) (by decide), saved.certificates]
    exact holds.intermediates
  crls := saved.crls holds.crls

theorem stepsWell_saveCrl (roundTrip : x.RoundTrip) (inStep : InStep x rt env) {crlDp : String}
    (careful : Careful x rt env (.call (.saveCrl crlDp crlDer) out)) :
    StepsWell x rt env (.call (.saveCrl crlDp crlDer) out) := by
  obtain ⟨commits, storable⟩ := careful
  have rejected
      (reject : (∃ e, validateCrlWithRaw x env.rjtPkiEnv crlDer = .error e) ∨ out.now = none) :
      StepsWell x rt env (.call (.saveCrl crlDp crlDer) out) := by
    obtain ⟨e, failed⟩ : ∃ e, saveCrl x rt out crlDp crlDer env = .error e env :=
      saveCrl_rejected crlDp reject
    have unchanged : after x rt env (.call (.saveCrl crlDp crlDer) out) = env := by
      simp only [after, afterCall, Call.run, finalState, failed]
    refine stepsWell_of_unchanged inStep unchanged inStep.healthy (fun _ _ => rfl) fun ok => ?_
    simp [outcome, failed] at ok
  cases validated : validateCrlWithRaw x env.rjtPkiEnv crlDer with
  | error e => exact rejected (.inl ⟨e, validated⟩)
  | ok crl =>
    cases clock : out.now with
    | none => exact rejected (.inr clock)
    | some toi =>
      obtain ⟨encodes, free⟩ := storable crl validated
      obtain ⟨content, encoded⟩ := Option.isSome_iff_exists.mp encodes
      obtain ⟨database, ran, healthy, wrote⟩ := transactionally_performing
        ⟨withCrl x toi crl env.rjtPkiEnv, env.database⟩ (.save (e2eiCrl crlDp content))
        inStep.healthy (by rintro ⟨⟩) (by rintro _ ⟨⟩)
      have saved : Saved x rt env (withCrl x toi crl env.rjtPkiEnv) database :=
        .one roundTrip encoded free wrote
      have accepted : saveCrl x rt out crlDp crlDer env =
          .ok () ⟨withCrl x toi crl env.rjtPkiEnv, database⟩ := by
        rw [saveCrl_accepted out crlDp crlDer env validated clock, encoded, commits]
        exact ran
      have changed : after x rt env (.call (.saveCrl crlDp crlDer) out) =
          ⟨withCrl x toi crl env.rjtPkiEnv, database⟩ := by
        simp only [after, afterCall, Call.run, finalState, accepted]
      refine stepsWell_of changed ⟨healthy, saved.holds inStep.holds⟩ (fun _ => ?_) (fun _ => id)
        saved.kept
      rw [changed]
      exact ⟨crl, (validateCrlWithRaw_eq_ok validated).1, by simp⟩

theorem stepsWell_addIntermediateCert (roundTrip : x.RoundTrip) (inStep : InStep x rt env)
    (careful : Careful x rt env (.call (.addIntermediateCert cert) out)) :
    StepsWell x rt env (.call (.addIntermediateCert cert) out) := by
  rcases addIntermediateCert_spec roundTrip inStep.healthy careful with
    ⟨e, database, failed, healthy, same⟩ |
    ⟨ids, content, pe, database, encoded, free, ran, healthy, written, wrote, saved⟩
  · have unchanged : after x rt env (.call (.addIntermediateCert cert) out) =
        ⟨env.rjtPkiEnv, database⟩ := by
      simp only [after, afterCall, Call.run, finalState, failed]
    refine stepsWell_of_unchanged inStep unchanged healthy
      (fun collection member => contentAt_congr same (pki_upsert collection member)) fun ok => ?_
    simp [outcome, failed] at ok
  · have changed : after x rt env (.call (.addIntermediateCert cert) out) =
        ⟨pe.addCertificateSource [cert], database⟩ := by
      simp only [after, afterCall, Call.run, finalState, ran]
    refine stepsWell_of changed ⟨healthy, ?_, ?_, ?_⟩ (fun _ => ?_) (fun _ member => ?_) saved.kept
    · rw [saved.others .e2eiAcmeCA (by decide) (by decide), contentAt_other wrote rfl
        (by rintro ⟨⟩), getTrustAnchors_addCertificateSource, saved.anchors]
      exact inStep.holds.anchors
    · rw [saved.others .e2eiIntermediateCert (by decide) (by decide), contentAt_save wrote rfl,
        certificates_addCertificateSource, saved.certificates]
      exact inStep.holds.intermediates.put (roundTrip.certificate cert content encoded) free
    · refine saved.crls ?_
      rw [contentAt_other wrote rfl (by rintro ⟨⟩)]
      exact inStep.holds.crls
    · rw [changed]
      simp
    · rw [certificates_addCertificateSource, saved.certificates]
      exact List.mem_append_left _ member

theorem stepsWell_newTransaction (inStep : InStep x rt env) :
    StepsWell x rt env .newTransaction := by
  cases slot : env.database.transaction with
  | some tx =>
    have busy := newTransaction_busy inStep.healthy.toHealthy (by simp [slot])
    have unchanged : after x rt env .newTransaction = env := by simp [after, busy]
    exact stepsWell_of_unchanged inStep unchanged inStep.healthy (fun _ _ => rfl) trivial
  | none =>
    obtain ⟨opened, began, inside, same⟩ := begin_healthy inStep.healthy.toHealthy slot
    have changed : after x rt env .newTransaction = { env with database := opened } := by
      simp [after, began]
    exact stepsWell_of_unchanged inStep changed inside.steady
      (fun collection member => contentAt_congr same (pki_upsert collection member)) trivial

/-- A commit that fails leaves the transaction open, one that succeeds makes its rows the stored
ones. -/
theorem stepsWell_commitTransaction (inStep : InStep x rt env)
    (engine : Option CryptoKeystoreError) : StepsWell x rt env (.commitTransaction engine) := by
  by_cases succeeds : CommitSucceeds rt env.database engine
  · obtain ⟨_, committed⟩ := commitTransaction_of_succeeds succeeds
    obtain ⟨healthy, -, same⟩ := commit_steady inStep.healthy committed
    exact stepsWell_of_unchanged inStep (by rw [after, committed]) healthy
      (fun collection member => contentAt_congr same (pki_upsert collection member)) trivial
  · obtain ⟨error, failed⟩ := commitTransaction_of_not_succeeds succeeds
    have unchanged : after x rt env (.commitTransaction engine) = env := by simp [after, failed]
    exact stepsWell_of_unchanged inStep unchanged inStep.healthy (fun _ _ => rfl) trivial

theorem stepsWell_rollbackTransaction (inStep : InStep x rt env)
    (careful : Careful x rt env .rollbackTransaction) :
    StepsWell x rt env .rollbackTransaction := by
  refine stepsWell_of_unchanged inStep (by rw [after, rollbackTransaction_database])
    (rollback_steady inStep.healthy.toHealthy) (fun collection member => ?_) trivial
  funext key
  rw [contentAt, row_rollback, contentAt]
  exact fun tx slot => careful tx slot collection member key

/-- The rows under a text are sessions, or rows of the environment. -/
theorem effective_of_foreign {id : EntityId} (foreign : isForeign (.remove id : Write S)) :
    Effective id := by
  intro isReplaced
  obtain ⟨typ, key⟩ := id
  simp only [isForeign, writeType, pkiCollections] at foreign
  cases typ with
  | plain collection => cases collection <;> simp_all [EntityType.saveMode, replaced]
  | _ => simp_all [EntityType.saveMode, replaced]

theorem stepsWell_write (inStep : InStep x rt env) {write : Write S} (foreign : isForeign write) :
    StepsWell x rt env (.write write foreign) := by
  cases slot : env.database.transaction with
  | none =>
    have unchanged : after x rt env (.write write foreign) = env := by
      cases write <;>
        simp [after, Write.perform, Database.save, Database.remove, Database.modifyTransaction, slot]
    exact stepsWell_of_unchanged inStep unchanged inStep.healthy (fun _ _ => rfl) trivial
  | some tx =>
    have within : Inside rt False True env.database :=
      ⟨inStep.healthy.toHealthy, by simp [slot], False.elim, fun _ => inStep.healthy.removes⟩
    obtain ⟨database, performed, inside, wrote⟩ := write_inside write within False.elim
      fun _ id removes => effective_of_foreign (removes ▸ foreign)
    have changed : after x rt env (.write write foreign) = { env with database } := by
      simp only [after, performed]
    exact stepsWell_of_unchanged inStep changed inside.steady (fun collection member =>
      contentAt_other wrote (pki_upsert collection member) (foreign collection member)) trivial

/-- **Each careful event** keeps memory and disk in step and loses nothing. -/
theorem stepsWell_of_careful (roundTrip : x.RoundTrip)
    (inStep : InStep x rt env) (careful : Careful x rt env event) : StepsWell x rt env event := by
  cases event with
  | call call out =>
    cases call with
    | addTrustAnchor cert => exact stepsWell_addTrustAnchor roundTrip inStep careful
    | addIntermediateCert cert =>
      exact stepsWell_addIntermediateCert roundTrip inStep careful
    | saveCrl crlDp crlDer => exact stepsWell_saveCrl roundTrip inStep careful
  | removeTrustAnchor serialNumber out =>
    exact stepsWell_removeTrustAnchor inStep careful
  | newTransaction => exact stepsWell_newTransaction inStep
  | commitTransaction engine => exact stepsWell_commitTransaction inStep engine
  | rollbackTransaction => exact stepsWell_rollbackTransaction inStep careful
  | write write foreign => exact stepsWell_write inStep foreign

end CoreCrypto.Pki
