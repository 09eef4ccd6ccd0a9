import CoreCrypto.Keystore.Search
import CoreCrypto.Library.Table

/-!
# Credentials and the keys they are stored under

A row is looked up under the digest of its public key.  The SQL migration fills the key column with
the digest in hexadecimal, that of the object store with the public key itself.
-/

namespace CoreCrypto.Migrations

open Keystore Library

/-! ### Values of SQLite -/

/-- A value in a column, by its storage class.  Values of different classes are not equal. -/
inductive SqlValue where
  | text (value : String)
  | blob (value : Bytes)
  deriving DecidableEq, Repr

/-- The SQL function `sha256_blob`: the digest in hexadecimal. -/
def sha256Blob (hashes : Hashes) (input : Bytes) : SqlValue :=
  .text (hexEncode (hashes.sha256 input))

/-- `Sha256Hash::to_sql`. -/
def hashToSql (hash : Bytes) : SqlValue :=
  .blob hash

/-! ### The operations of the entity -/

/-- What `StoredCredential` does on a database: `load_all`, `get` and `delete` under a hash, and
the condition of a search that knows nothing unique to a credential. -/
structure CredentialOps (σ ε : Type) where
  loadAll : σ → Except ε (List StoredCredential)
  get : σ → Bytes → Except ε (Option StoredCredential)
  delete : σ → Bytes → Except ε (Bool × σ)
  scan : CredentialFindFilters → StoredCredential → Bool

variable {σ ε κ : Type}

/-- `StoredCredential::find_all_matching`. -/
def CredentialOps.findAllMatching (ops : CredentialOps σ ε) (hashes : Hashes) (db : σ)
    (filters : CredentialFindFilters) : Except ε (List StoredCredential) := do
  match filters.hash.or (filters.publicKey.map hashes.sha256) with
  | some hash => return (← ops.get db hash).toList.filter (filters.isMatch hashes)
  | none => return (← ops.loadAll db).filter (ops.scan filters)

/-- `StoredCredential::primary_key`. -/
def credentialKey (hashes : Hashes) (credential : StoredCredential) : Bytes :=
  hashes.sha256 credential.publicKey

/-- Each of the credentials can be addressed by its primary key: `get` returns it, `delete`
removes it, and a search by hash or public key agrees with the full scan. -/
structure AddressedByKey (ops : CredentialOps σ ε) (hashes : Hashes) (db : σ)
    (credentials : List StoredCredential) : Prop where
  get : ∀ credential ∈ credentials,
    ops.get db (credentialKey hashes credential) = .ok (some credential)
  delete : ∀ credential ∈ credentials, ∃ after rest,
    ops.delete db (credentialKey hashes credential) = .ok (true, after) ∧
      ops.loadAll after = .ok rest ∧ credential ∉ rest
  find : ∀ filters, (filters.hash.isSome ∨ filters.publicKey.isSome) →
    ∃ found, ops.findAllMatching hashes db filters = .ok found ∧
      ∀ credential, credential ∈ found ↔
        credential ∈ credentials.filter (filters.isMatch hashes)

/-- Every credential that `load_all` returns can be addressed by its primary key. -/
def Addressable (ops : CredentialOps σ ε) (hashes : Hashes) (db : σ) : Prop :=
  ∃ credentials, ops.loadAll db = .ok credentials ∧ AddressedByKey ops hashes db credentials

/-! ### Rows under keys -/

/-- A credential and what its key column holds. -/
structure CredentialRow (κ : Type) where
  key : κ
  credential : StoredCredential
  deriving DecidableEq

variable [DecidableEq κ]

/-- The database shows these rows, and compares their keys with `ofHash` of a hash. -/
structure Presents (ops : CredentialOps σ ε) (ofHash : Bytes → κ) (db : σ)
    (rows : List (CredentialRow κ)) : Prop where
  loadAll : ∃ credentials, ops.loadAll db = .ok credentials ∧
    ∀ credential, credential ∈ credentials ↔ credential ∈ rows.map CredentialRow.credential
  get : ∀ hash, ops.get db hash =
    .ok ((selectOne CredentialRow.key rows (ofHash hash)).map CredentialRow.credential)
  delete : ∀ hash, ∃ after rest,
    ops.delete db hash = .ok (decide (ofHash hash ∈ rows.map CredentialRow.key), after) ∧
      ops.loadAll after = .ok rest ∧
      ∀ credential, credential ∈ rest ↔
        credential ∈ (deleteWhere CredentialRow.key rows (ofHash hash)).map CredentialRow.credential

section Presents

variable {ops : CredentialOps σ ε} {hashes : Hashes} {ofHash : Bytes → κ} {db : σ}
  {rows : List (CredentialRow κ)}

/-- A row whose key is the hash of its public key. -/
def CredentialRow.Keyed (hashes : Hashes) (ofHash : Bytes → κ) (row : CredentialRow κ) : Prop :=
  row.key = ofHash (credentialKey hashes row.credential)

/-- No two rows are for one public key. -/
def DistinctPublicKeys (rows : List (CredentialRow κ)) : Prop :=
  DistinctKeys (·.credential.publicKey) rows

omit [DecidableEq κ] in
theorem row_unique (distinct : DistinctPublicKeys rows) {row other : CredentialRow κ}
    (member : row ∈ rows) (memberOther : other ∈ rows) (same : other.credential = row.credential) :
    other = row :=
  List.inj_on_of_nodup_map distinct memberOther member (congrArg StoredCredential.publicKey same)

theorem find_of_keyed (presents : Presents ops ofHash db rows)
    (distinct : DistinctKeys CredentialRow.key rows) (keyed : ∀ row ∈ rows, row.Keyed hashes ofHash)
    {filters : CredentialFindFilters} (told : filters.hash.isSome ∨ filters.publicKey.isSome) :
    ∃ found, ops.findAllMatching hashes db filters = .ok found ∧
      ∀ credential, credential ∈ found ↔
        credential ∈ rows.map CredentialRow.credential ∧ filters.isMatch hashes credential := by
  obtain ⟨hash, fast⟩ : ∃ hash,
      filters.hash.or (filters.publicKey.map hashes.sha256) = some hash := by
    cases given : filters.hash with
    | some hash => exact ⟨hash, rfl⟩
    | none =>
      rw [given] at told
      obtain ⟨publicKey, isPublic⟩ := Option.isSome_iff_exists.mp (told.resolve_left (by simp))
      exact ⟨hashes.sha256 publicKey, by simp [isPublic]⟩
  refine ⟨((selectOne CredentialRow.key rows (ofHash hash)).map
    CredentialRow.credential).toList.filter (filters.isMatch hashes), ?_, fun credential => ?_⟩
  · simp only [CredentialOps.findAllMatching, fast, presents.get]
    rfl
  · simp only [List.mem_filter, Option.mem_toList, Option.map_eq_some_iff, List.mem_map]
    refine and_congr_left fun found => ?_
    -- a credential that matches has the hash the filters tell, and so its row has the key
    have hashed := CredentialFindFilters.hash_of_isMatch found fast
    constructor
    · rintro ⟨row, selected, rfl⟩
      exact ⟨row, ((find?_key_iff _ distinct _ _).mp selected).1, rfl⟩
    · rintro ⟨row, member, rfl⟩
      refine ⟨row, (find?_key_iff _ distinct _ _).mpr ⟨member, ?_⟩, rfl⟩
      rw [hashed]
      exact keyed row member

/-- **A credential is addressable exactly when it is stored under its primary key.** -/
theorem addressable_iff_keyed (presents : Presents ops ofHash db rows)
    (distinct : DistinctKeys CredentialRow.key rows) (publicKeys : DistinctPublicKeys rows) :
    Addressable ops hashes db ↔ ∀ row ∈ rows, row.Keyed hashes ofHash := by
  obtain ⟨credentials, loads, members⟩ := presents.loadAll
  constructor
  · rintro ⟨loaded, loads', addressed⟩ row member
    cases loads.symm.trans loads'
    have found := addressed.get row.credential ((members _).mpr (List.mem_map_of_mem member))
    rw [presents.get, Except.ok.injEq, Option.map_eq_some_iff] at found
    obtain ⟨other, selected, same⟩ := found
    obtain ⟨memberOther, keyed⟩ := (find?_key_iff _ distinct _ _).mp selected
    rw [row_unique publicKeys member memberOther same] at keyed
    exact keyed
  · intro keyed
    refine ⟨credentials, loads, ?_, ?_, ?_⟩
    · intro credential loaded
      obtain ⟨row, member, rfl⟩ := List.mem_map.mp ((members _).mp loaded)
      have selected := (find?_key_iff _ distinct _ _).mpr ⟨member, keyed row member⟩
      rw [presents.get, selectOne, selected]
      rfl
    · intro credential loaded
      obtain ⟨row, member, rfl⟩ := List.mem_map.mp ((members _).mp loaded)
      obtain ⟨after, rest, deleted, reloaded, remaining⟩ :=
        presents.delete (credentialKey hashes row.credential)
      have held : ofHash (credentialKey hashes row.credential) ∈ rows.map CredentialRow.key := by
        rw [← keyed row member]
        exact List.mem_map_of_mem member
      rw [decide_eq_true held] at deleted
      refine ⟨after, rest, deleted, reloaded, fun still => ?_⟩
      obtain ⟨other, memberOther, same⟩ := List.mem_map.mp ((remaining _).mp still)
      rw [mem_deleteWhere] at memberOther
      refine memberOther.2 ?_
      rw [row_unique publicKeys member memberOther.1 same]
      exact keyed row member
    · intro filters told
      obtain ⟨found, finds, same⟩ := find_of_keyed presents distinct keyed told
      exact ⟨found, finds, fun credential => by rw [same, List.mem_filter, members]⟩

end Presents

/-! ### The SQL table -/

/-- The operations on the rows of `mls_credentials` from version 20 on. -/
def sqlOps : CredentialOps (List (CredentialRow SqlValue)) Empty where
  loadAll rows := .ok (rows.map CredentialRow.credential)
  get rows hash := .ok ((selectOne CredentialRow.key rows (hashToSql hash)).map CredentialRow.credential)
  delete rows hash := .ok (decide (hashToSql hash ∈ rows.map CredentialRow.key),
    deleteWhere CredentialRow.key rows (hashToSql hash))
  scan := CredentialFindFilters.whereClause

/-- The row that the migration makes of a credential. -/
def migratedRow (hashes : Hashes) (credential : StoredCredential) : CredentialRow SqlValue :=
  ⟨sha256Blob hashes credential.publicKey, credential⟩

/-- The row that `StoredCredential::save` writes. -/
def savedRow (hashes : Hashes) (credential : StoredCredential) : CredentialRow SqlValue :=
  ⟨hashToSql (credentialKey hashes credential), credential⟩

/-- `V20__credentials_new_primary_key.sql`. -/
def migrateV20 (hashes : Hashes) (credentials : List StoredCredential) :
    Option (List (CredentialRow SqlValue)) :=
  insertAll CredentialRow.key [] (credentials.map (migratedRow hashes))

/-- Credentials are saved one after the other. -/
def saveCredentials (hashes : Hashes) (rows : List (CredentialRow SqlValue))
    (credentials : List StoredCredential) : Option (List (CredentialRow SqlValue)) :=
  insertAll CredentialRow.key rows (credentials.map (savedRow hashes))

theorem presents_sql (rows : List (CredentialRow SqlValue)) : Presents sqlOps hashToSql rows rows :=
  ⟨⟨_, rfl, fun _ => Iff.rfl⟩, fun _ => rfl, fun _ => ⟨_, _, rfl, rfl, fun _ => Iff.rfl⟩⟩

/-- A migrated row has text where a hash is looked for as a blob. -/
theorem not_keyed_migrated (hashes : Hashes) (credential : StoredCredential) :
    ¬ (migratedRow hashes credential).Keyed hashes hashToSql := nofun

/-- Of migrated and saved rows, the saved ones are stored under their primary keys. -/
theorem addressable_sql_iff {hashes : Hashes} {credentials saved : List StoredCredential}
    {migrated rows : List (CredentialRow SqlValue)}
    (distinct : DistinctKeys StoredCredential.publicKey (credentials ++ saved))
    (migrates : migrateV20 hashes credentials = some migrated)
    (saves : saveCredentials hashes migrated saved = some rows) :
    Addressable sqlOps hashes rows ↔ credentials = [] := by
  obtain ⟨rfl, first⟩ := insertAll_eq_some migrates
  obtain ⟨rfl, second⟩ := insertAll_eq_some saves
  have keys := second (first (by simp [DistinctKeys]))
  have same : ([] ++ credentials.map (migratedRow hashes) ++ saved.map (savedRow hashes)).map
      CredentialRow.credential = credentials ++ saved := by
    simp [Function.comp_def, migratedRow, savedRow]
  have publicKeys : DistinctPublicKeys
      ([] ++ credentials.map (migratedRow hashes) ++ saved.map (savedRow hashes)) := by
    rw [← same] at distinct
    simpa only [DistinctPublicKeys, DistinctKeys, List.map_map, Function.comp_def] using distinct
  rw [addressable_iff_keyed (presents_sql _) keys publicKeys]
  constructor
  · intro keyed
    refine List.eq_nil_iff_forall_not_mem.mpr fun credential member => ?_
    refine not_keyed_migrated hashes credential (keyed _ ?_)
    exact List.mem_append_left _ (List.mem_map_of_mem member)
  · rintro rfl row member
    obtain ⟨credential, -, rfl⟩ := List.mem_map.mp member
    rfl

end CoreCrypto.Migrations
