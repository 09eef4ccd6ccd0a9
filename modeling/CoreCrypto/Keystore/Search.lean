import CoreCrypto.Keystore.Overlay

/-!
# Searching a collection

`Database::search` asks the database for the rows that match a search key and merges them with
the cached entities that match it.  A cached entity that does not match is left out before the
merge, so it does not hide its stored version.
-/

namespace CoreCrypto.Keystore

open CoreCrypto.Library

variable {S : Type} {rt : Runtime S}

structure CredentialFindFilters where
  hash : Option Bytes
  publicKey : Option Bytes
  sessionId : Option Bytes
  ciphersuite : Option Nat
  earliestValidity : Option Nat
  deriving DecidableEq, Repr

namespace CredentialFindFilters

/-- `StoredCredential::matches`. -/
def isMatch (hashes : Hashes) (filters : CredentialFindFilters) (credential : StoredCredential) :
    Bool :=
  filters.hash.all (· = hashes.sha256 credential.publicKey) &&
    filters.publicKey.all (· = credential.publicKey) &&
    filters.sessionId.all (· = credential.sessionId) &&
    filters.ciphersuite.all (· = credential.ciphersuite) &&
    filters.earliestValidity.all (· = credential.createdAt)

/-- The `WHERE` clause of a search without anything unique to a credential. -/
def whereClause (filters : CredentialFindFilters) (credential : StoredCredential) : Bool :=
  filters.ciphersuite.all (· = credential.ciphersuite) &&
    filters.earliestValidity.all (· = credential.createdAt) &&
    filters.sessionId.all (· = credential.sessionId)

end CredentialFindFilters

/-- The search keys of the searchable entities. -/
inductive SearchKey where
  | parentGroupId (parent : Bytes)
  | credentialFindFilters (filters : CredentialFindFilters)

/-- The credential in an entity. -/
def Entity.credential? : Entity S → Option StoredCredential
  | storedCredential credential => some credential
  | _ => none

namespace SearchKey

def typ : SearchKey → EntityType
  | parentGroupId _ => .persistedMlsGroup
  | credentialFindFilters _ => .storedCredential

/-- `SearchableEntity::matches`. -/
def isMatch (rt : Runtime S) (key : SearchKey) (entity : Entity S) : Bool :=
  match key with
  | parentGroupId parent => entity.parentId? = some parent
  | credentialFindFilters filters => entity.credential?.any (filters.isMatch rt.toHashes)

end SearchKey

/-- `SearchableEntity::find_all_matching`.  If the filters tell the hash of the public key, or
the public key itself, the credential is read by its primary key. -/
def findAllMatching (rt : Runtime S) (rows : List (Entity S)) (key : SearchKey) :
    List (Entity S) :=
  match key with
  | .parentGroupId parent =>
    (ofType .persistedMlsGroup rows).filter (fun e => e.parentId? = some parent)
  | .credentialFindFilters filters =>
    match filters.hash.or (filters.publicKey.map rt.sha256) with
    | some hash =>
      (storedRow rt rows ⟨.storedCredential, hash⟩).toList.filter (key.isMatch rt)
    | none =>
      (ofType .storedCredential rows).filter (fun e => e.credential?.any filters.whereClause)

/-- `Database::search` by a search key. -/
def Database.searchByKey (rt : Runtime S) (db : Database S) (key : SearchKey) :
    Except CryptoKeystoreError (List (Entity S)) := do
  let persistedRecords := findAllMatching rt (← db.rows) key
  return match db.transaction with
    | none => persistedRecords
    | some tx => tx.search rt key.typ (key.isMatch rt) persistedRecords

/-! ### What the database finds -/

theorem SearchKey.typ_of_isMatch {key : SearchKey} {entity : Entity S}
    (found : key.isMatch rt entity = true) : entity.typ = key.typ := by
  cases key with
  | parentGroupId parent =>
    cases entity <;> simp_all [isMatch, Entity.parentId?, typ, Entity.typ]
  | credentialFindFilters filters =>
    cases entity <;> simp_all [isMatch, Entity.credential?, typ, Entity.typ]

/-- The hash that the filters tell is the primary key of every credential that matches. -/
theorem CredentialFindFilters.hash_of_isMatch {hashes : Hashes} {filters : CredentialFindFilters}
    {credential : StoredCredential} {hash : Bytes}
    (found : filters.isMatch hashes credential = true)
    (told : filters.hash.or (filters.publicKey.map hashes.sha256) = some hash) :
    hash = hashes.sha256 credential.publicKey := by
  simp only [isMatch, Bool.and_eq_true] at found
  obtain ⟨⟨⟨⟨byHash, byKey⟩, -⟩, -⟩, -⟩ := found
  cases given : filters.hash with
  | some hash' =>
    simp only [given, Option.some_or, Option.some.injEq] at told
    simpa [given, told] using byHash
  | none =>
    cases isPublic : filters.publicKey with
    | none => simp [given, isPublic] at told
    | some publicKey =>
      simp only [given, isPublic, Option.map_some, Option.none_or, Option.some.injEq] at told
      simp only [isPublic, Option.all_some, decide_eq_true_eq] at byKey
      rw [← told, byKey]

theorem mem_findAllMatching {rows : List (Entity S)} {key : SearchKey}
    (stored : DistinctKeys rt.fromEntity (ofType key.typ rows)) (e : Entity S) :
    e ∈ findAllMatching rt rows key ↔ e ∈ rows ∧ key.isMatch rt e = true := by
  cases key with
  | parentGroupId parent =>
    have typ : (SearchKey.parentGroupId parent).isMatch rt e = true → e.typ = .persistedMlsGroup :=
      SearchKey.typ_of_isMatch
    simp only [findAllMatching, List.mem_filter, mem_ofType, SearchKey.isMatch] at typ ⊢
    tauto
  | credentialFindFilters filters =>
    have typ : (SearchKey.credentialFindFilters filters).isMatch rt e = true →
        e.typ = .storedCredential := SearchKey.typ_of_isMatch
    cases told : filters.hash.or (filters.publicKey.map rt.sha256) with
    | none =>
      -- with neither a hash nor a public key the clause is all there is to match
      obtain ⟨noHash, noKey⟩ := Option.or_eq_none_iff.mp told
      rw [Option.map_eq_none_iff] at noKey
      have clause : filters.whereClause = filters.isMatch rt.toHashes := by
        funext credential
        simp only [CredentialFindFilters.whereClause, CredentialFindFilters.isMatch, noHash, noKey,
          Option.all_none, Bool.true_and]
        rw [Bool.and_comm, Bool.and_assoc]
      simp only [findAllMatching, told, List.mem_filter, mem_ofType, SearchKey.isMatch, clause]
        at typ ⊢
      tauto
    | some hash =>
      simp only [findAllMatching, told, List.mem_filter, Option.mem_toList]
      refine and_congr_left fun found => ?_
      cases e with
      | storedCredential credential =>
        have key : hash = rt.sha256 credential.publicKey :=
          CredentialFindFilters.hash_of_isMatch found told
        rw [key]
        exact storedRow_iff rt .storedCredential rows stored (.storedCredential credential) rfl
      | _ => cases typ found

theorem findAllMatching_distinct {rows : List (Entity S)} {key : SearchKey}
    (stored : DistinctKeys rt.fromEntity (ofType key.typ rows)) :
    DistinctKeys rt.fromEntity (findAllMatching rt rows key) := by
  unfold findAllMatching
  split
  next => exact (List.filter_sublist.map _).nodup stored
  next filters =>
    split
    next hash _ =>
      refine (List.filter_sublist.map _).nodup ?_
      cases storedRow rt rows ⟨.storedCredential, hash⟩ <;> simp
    next => exact (List.filter_sublist.map _).nodup stored

/-! ### What is found through the open transaction -/

/-- `search` and, for a parent group, `child_groups` find the listed entities that match. -/
structure SearchAgrees (rt : Runtime S) (db : Database S) (key : SearchKey) : Prop where
  search : ∃ found listed, db.searchByKey rt key = .ok found ∧ db.loadAll rt key.typ = .ok listed ∧
    ∀ e, e ∈ found ↔ e ∈ listed ∧ key.isMatch rt e = true
  childGroups : ∀ parent, key = .parentGroupId parent →
    ∃ found listed, db.childGroups rt parent = .ok found ∧ db.loadAll rt key.typ = .ok listed ∧
      ∀ e, e ∈ found ↔ e ∈ listed ∧ key.isMatch rt e = true

theorem mem_search {rows : List (Entity S)} (writes : List (Write S))
    {key : SearchKey} (stored : DistinctKeys rt.fromEntity (ofType key.typ rows)) (e : Entity S) :
    e ∈ (KeystoreTransaction.ofWrites rt writes).search rt key.typ (key.isMatch rt)
        (findAllMatching rt rows key) ↔
      key.isMatch rt e = true ∧
        match lastWrite rt writes (rt.fromEntity e) with
        | none => e ∈ rows
        | some (.save entity) => e = entity ∨ e ∈ rows ∧ key.isMatch rt entity = false
        | some (.remove _) => False := by
  have keyed := KeystoreTransaction.wellKeyed_ofWrites rt writes
  have matching (a : Entity S) : a ∈ ((KeystoreTransaction.ofWrites rt writes).findAllInCache rt
      key.typ).filter (key.isMatch rt) ↔
        (lastWrite rt writes (rt.fromEntity a)).bind Write.value = some a ∧
          key.isMatch rt a = true := by
    rw [List.mem_filter, KeystoreTransaction.mem_findAllInCache rt _ key.typ keyed,
      KeystoreTransaction.lookup_ofWrites]
    exact ⟨fun ⟨⟨_, cached⟩, found⟩ => ⟨cached, found⟩,
      fun ⟨cached, found⟩ => ⟨⟨SearchKey.typ_of_isMatch found, cached⟩, found⟩⟩
  have persisted := mem_findAllMatching stored
  rw [KeystoreTransaction.search, KeystoreTransaction.mem_mergeRecords _
    (fun a member => SearchKey.typ_of_isMatch ((matching a).mp member).2)
    (fun b member => SearchKey.typ_of_isMatch ((persisted b).mp member).2)
    ((List.filter_sublist.map _).nodup (KeystoreTransaction.findAllInCache_distinct rt _ _ keyed))
    (findAllMatching_distinct stored), matching, persisted,
    KeystoreTransaction.mem_deleted_ofWrites]
  cases last : lastWrite rt writes (rt.fromEntity e) with
  | none =>
    have free (a : Entity S) (cached : a ∈ ((KeystoreTransaction.ofWrites rt writes).findAllInCache
        rt key.typ).filter (key.isMatch rt)) : rt.fromEntity a ≠ rt.fromEntity e := by
      intro same
      have value := ((matching a).mp cached).1
      rw [same, last] at value
      cases value
    simpa [and_comm] using fun _ _ => free
  | some write =>
    cases write with
    | remove id =>
      have sameId : id = rt.fromEntity e := (mem_of_lastBy _ last).2
      simp [sameId]
    | save entity =>
      have sameId : rt.fromEntity entity = rt.fromEntity e := (mem_of_lastBy _ last).2
      -- the stored version is hidden exactly if the cached one matches
      have hidden : (∀ a ∈ ((KeystoreTransaction.ofWrites rt writes).findAllInCache rt
          key.typ).filter (key.isMatch rt), rt.fromEntity a ≠ rt.fromEntity e) ↔
            key.isMatch rt entity = false := by
        rw [← Bool.not_eq_true]
        constructor
        · intro free found
          refine free entity ((matching entity).mpr ⟨?_, found⟩) sameId
          rw [sameId, last]
          rfl
        · intro notFound a cached same
          obtain ⟨value, found⟩ := (matching a).mp cached
          rw [same, last] at value
          exact notFound (Option.some.inj value ▸ found)
      rw [hidden]
      simp only [Option.bind_some, Write.value, Option.some.injEq, reduceCtorEq, not_false_eq_true,
        and_true, eq_comm]
      tauto

theorem mem_search_iff_listed {rows : List (Entity S)} (writes : List (Write S))
    {key : SearchKey} (stored : DistinctKeys rt.fromEntity (ofType key.typ rows)) :
    (∀ e, e ∈ (KeystoreTransaction.ofWrites rt writes).search rt key.typ (key.isMatch rt)
        (findAllMatching rt rows key) ↔
      e ∈ (KeystoreTransaction.ofWrites rt writes).findAll rt key.typ (ofType key.typ rows) ∧
        key.isMatch rt e = true) ↔
      ∀ row ∈ rows, key.isMatch rt row = true →
        ∀ entity, lastWrite rt writes (rt.fromEntity row) = some (.save entity) →
          key.isMatch rt entity = true := by
  have keyed := KeystoreTransaction.wellKeyed_ofWrites rt writes
  have listed (e : Entity S) (found : key.isMatch rt e = true) :
      e ∈ (KeystoreTransaction.ofWrites rt writes).findAll rt key.typ (ofType key.typ rows) ↔
        (lastWrite rt writes (rt.fromEntity e)).elim (e ∈ rows) (·.value = some e) := by
    have typ := SearchKey.typ_of_isMatch found
    rw [KeystoreTransaction.mem_findAll rt _ key.typ rows keyed stored,
      KeystoreTransaction.read_ofWrites, and_iff_right typ]
    cases lastWrite rt writes (rt.fromEntity e) with
    | none => exact storedRow_iff rt key.typ rows stored e typ
    | some write => rfl
  constructor
  · intro agrees row member found entity last
    by_contra stale
    rw [Bool.not_eq_true] at stale
    -- the stale row is found, but the saved version is listed in its place
    have isFound : row ∈ (KeystoreTransaction.ofWrites rt writes).search rt key.typ
        (key.isMatch rt) (findAllMatching rt rows key) := by
      rw [mem_search writes stored, last]
      exact ⟨found, .inr ⟨member, stale⟩⟩
    have isListed := (listed row found).mp ((agrees row).mp isFound).1
    rw [last] at isListed
    rw [Option.some.inj isListed, found] at stale
    cases stale
  · intro fresh e
    rw [mem_search writes stored, and_comm]
    refine and_congr_left fun found => ?_
    rw [listed e found]
    cases last : lastWrite rt writes (rt.fromEntity e) with
    | none => rfl
    | some write =>
      cases write with
      | remove id => simp [Write.value]
      | save entity =>
        simp only [Option.elim_some, Write.value, Option.some.injEq]
        refine ⟨?_, fun same => .inl same.symm⟩
        rintro (same | ⟨member, stale⟩)
        · exact same.symm
        · rw [fresh e member found entity last] at stale
          cases stale

theorem Database.childGroups_eq (rt : Runtime S) (db : Database S) (parent : Bytes) :
    db.childGroups rt parent = db.searchByKey rt (.parentGroupId parent) := by
  have rows (stored : List (Entity S)) : stored.filter (fun e =>
      e.typ = .persistedMlsGroup ∧ decide (e.parentId? = some parent) = true) =
        findAllMatching rt stored (.parentGroupId parent) := by
    rw [findAllMatching, ofType, List.filter_filter]
    congr 1
    funext e
    simp [and_comm]
  simp only [Database.childGroups, Database.search, Database.searchByKey, rows]
  rfl

end CoreCrypto.Keystore
