import CoreCrypto.Migrations.Credentials

/-!
# Key material and its unique column

The migration fills the unique column with a digest in hexadecimal, `save` writes the primary key
itself there, and rows are looked up by yet another column.  Hence `INSERT OR REPLACE` replaces what
an earlier `save` wrote and keeps what was migrated.
-/

namespace CoreCrypto.Migrations

open Keystore Library

/-- An entity of one of the three collections: the public key or the id of a pre-shared key, and
the secret that belongs to it. -/
structure KeyMaterial where
  pk : Bytes
  sk : Bytes
  deriving DecidableEq, Repr

structure KeyMaterialRow where
  unique : SqlValue
  material : KeyMaterial
  deriving DecidableEq, Repr

inductive SqlError where
  | noSuchColumn (name : String)
  deriving DecidableEq, Repr

/-- The names of the columns of a table, and the column that `get` and `delete` compare. -/
structure KeyMaterialEntity where
  collectionName : String
  uniqueColumn : String
  pkColumn : String
  skColumn : String
  primaryKeyColumnName : String

def storedHpkePrivateKey : KeyMaterialEntity :=
  ⟨"mls_hpke_private_keys", "pk_sha256", "pk", "sk", "pk"⟩

def storedEncryptionKeyPair : KeyMaterialEntity :=
  ⟨"mls_encryption_keypairs", "pk_sha256", "pk", "sk", "pk"⟩

/-- Its table has no column of the name that is compared. -/
def storedPskBundle : KeyMaterialEntity :=
  ⟨"mls_psk_bundles", "id_sha256", "psk_id", "psk", "id"⟩

inductive KeyMaterialType where
  | hpkePrivateKey
  | encryptionKeyPair
  | pskBundle
  deriving DecidableEq, Repr

def KeyMaterialType.entity : KeyMaterialType → KeyMaterialEntity
  | hpkePrivateKey => storedHpkePrivateKey
  | encryptionKeyPair => storedEncryptionKeyPair
  | pskBundle => storedPskBundle

/-! ### Statements -/

/-- A column by its name. -/
def KeyMaterialEntity.column (entity : KeyMaterialEntity) (name : String) :
    Except SqlError (KeyMaterialRow → SqlValue) :=
  if name = entity.uniqueColumn then .ok (·.unique)
  else if name = entity.pkColumn then .ok (.blob ·.material.pk)
  else if name = entity.skColumn then .ok (.blob ·.material.sk)
  else .error (.noSuchColumn name)

/-- `get_helper`. -/
def getHelper (entity : KeyMaterialEntity) (rows : List KeyMaterialRow) (pk : Bytes) :
    Except SqlError (Option KeyMaterial) := do
  let column ← entity.column entity.primaryKeyColumnName
  return (selectOne column rows (.blob pk)).map KeyMaterialRow.material

/-- `delete_helper`. -/
def deleteHelper (entity : KeyMaterialEntity) (rows : List KeyMaterialRow) (pk : Bytes) :
    Except SqlError (Bool × List KeyMaterialRow) := do
  let column ← entity.column entity.primaryKeyColumnName
  return (decide (.blob pk ∈ rows.map column), deleteWhere column rows (.blob pk))

/-- `INSERT OR REPLACE` with the primary key in the unique column. -/
def saveMaterial (rows : List KeyMaterialRow) (material : KeyMaterial) : List KeyMaterialRow :=
  insertOrReplace KeyMaterialRow.unique rows ⟨.blob material.pk, material⟩

/-- What `V12__unique_id_constraints.sql` does with one of the tables. -/
def migrateV12 (hashes : Hashes) (materials : List KeyMaterial) : Option (List KeyMaterialRow) :=
  insertAll KeyMaterialRow.unique []
    (materials.map fun material => ⟨sha256Blob hashes material.pk, material⟩)

/-! ### Runs -/

inductive MaterialOp where
  | save (material : KeyMaterial)
  | delete (pk : Bytes)
  deriving DecidableEq, Repr

/-- A deletion that fails leaves the rows. -/
def materialStep (typ : KeyMaterialType) (rows : List KeyMaterialRow) :
    MaterialOp → List KeyMaterialRow
  | .save material => saveMaterial rows material
  | .delete pk =>
    match deleteHelper typ.entity rows pk with
    | .ok (_, after) => after
    | .error _ => rows

/-- No two rows are for one primary key. -/
def OneRowPerKey (rows : List KeyMaterialRow) : Prop :=
  DistinctKeys (·.material.pk) rows

/-- After the operation there is one row per primary key, and what it saved is found. -/
def Upserts (typ : KeyMaterialType) (rows : List KeyMaterialRow) (op : MaterialOp) : Prop :=
  OneRowPerKey (materialStep typ rows op) ∧
    ∀ material, op = .save material →
      getHelper typ.entity (materialStep typ rows op) material.pk = .ok (some material)

/-- The entity is not a pre-shared key, and a row for its primary key was written by `save`. -/
def MeetsSavedRow (typ : KeyMaterialType) (rows : List KeyMaterialRow) : MaterialOp → Prop
  | .save material => typ ≠ .pskBundle ∧
      ∀ row ∈ rows, row.material.pk = material.pk → row.unique = .blob material.pk
  | .delete _ => True

/-- The rows of a migrated table after any operations: a blob in the unique column is the
primary key of its row. -/
structure Sound (rows : List KeyMaterialRow) : Prop where
  oneRow : OneRowPerKey rows
  saved : ∀ row ∈ rows, ∀ pk, row.unique = .blob pk → row.material.pk = pk

section Runs

variable {typ : KeyMaterialType} {rows : List KeyMaterialRow} {material : KeyMaterial}

theorem getHelper_pskBundle (rows : List KeyMaterialRow) (pk : Bytes) :
    getHelper storedPskBundle rows pk = .error (.noSuchColumn "id") := rfl

theorem column_of_ne_pskBundle (other : typ ≠ .pskBundle) :
    typ.entity.column typ.entity.primaryKeyColumnName = .ok (.blob ·.material.pk) := by
  cases typ with
  | pskBundle => exact absurd rfl other
  | _ => rfl

theorem selectOne_blob (rows : List KeyMaterialRow) (pk : Bytes) :
    selectOne (SqlValue.blob ·.material.pk) rows (.blob pk) =
      selectOne (·.material.pk) rows pk := by
  simp only [selectOne, SqlValue.blob.injEq]

theorem getHelper_eq (other : typ ≠ .pskBundle) (pk : Bytes) :
    getHelper typ.entity rows pk =
      .ok ((selectOne (·.material.pk) rows pk).map KeyMaterialRow.material) := by
  rw [getHelper, column_of_ne_pskBundle other, ← selectOne_blob]
  rfl

theorem materialStep_delete_sublist (pk : Bytes) :
    (materialStep typ rows (.delete pk)).Sublist rows := by
  by_cases other : typ = .pskBundle
  · subst other
    exact List.Sublist.refl _
  · rw [materialStep, deleteHelper, column_of_ne_pskBundle other]
    exact List.filter_sublist

theorem Sound.of_sublist {fewer : List KeyMaterialRow} (sound : Sound rows)
    (sublist : fewer.Sublist rows) : Sound fewer :=
  ⟨sound.oneRow.sublist (sublist.map _), fun row member => sound.saved row (sublist.subset member)⟩

theorem sound_migrateV12 {hashes : Hashes} {materials : List KeyMaterial}
    (distinct : DistinctKeys KeyMaterial.pk materials)
    (migrates : migrateV12 hashes materials = some rows) : Sound rows := by
  obtain ⟨rfl, -⟩ := insertAll_eq_some migrates
  refine ⟨?_, fun row member pk isBlob => ?_⟩
  · simpa only [OneRowPerKey, DistinctKeys, List.nil_append, List.map_map, Function.comp_def]
      using distinct
  · obtain ⟨material, -, rfl⟩ := List.mem_map.mp member
    cases isBlob

/-- `save` leaves one row per key exactly if it replaces the rows of its key. -/
theorem oneRowPerKey_save_iff (sound : Sound rows) (material : KeyMaterial) :
    OneRowPerKey (saveMaterial rows material) ↔
      ∀ row ∈ rows, row.material.pk = material.pk → row.unique = .blob material.pk := by
  have kept : OneRowPerKey
      (rows.filter fun row => row.unique ≠ SqlValue.blob material.pk) :=
    (sound.of_sublist List.filter_sublist).oneRow
  rw [OneRowPerKey, saveMaterial, insertOrReplace, distinctKeys_snoc]
  simp only [List.mem_map, List.mem_filter, decide_eq_true_eq, not_exists, not_and, and_imp]
  constructor
  · rintro ⟨-, fresh⟩ row member same
    by_contra different
    exact fresh row member different same
  · intro replaced
    refine ⟨kept, fun row member different same => different (replaced row member same)⟩

theorem getHelper_save (other : typ ≠ .pskBundle)
    (oneRow : OneRowPerKey (saveMaterial rows material)) :
    getHelper typ.entity (saveMaterial rows material) material.pk = .ok (some material) := by
  have found : selectOne (·.material.pk) (saveMaterial rows material) material.pk =
      some ⟨.blob material.pk, material⟩ :=
    (find?_key_iff _ oneRow _ _).mpr ⟨mem_insertOrReplace.mpr (.inr rfl), rfl⟩
  rw [getHelper_eq other, found]
  rfl

theorem sound_save (sound : Sound rows)
    (oneRow : OneRowPerKey (saveMaterial rows material)) : Sound (saveMaterial rows material) := by
  refine ⟨oneRow, fun row member pk isBlob => ?_⟩
  rcases mem_insertOrReplace.mp member with ⟨member, -⟩ | rfl
  · exact sound.saved row member pk isBlob
  · cases isBlob
    rfl

/-- **One operation** does what it should exactly if it does not meet a migrated row. -/
theorem upserts_iff_meetsSavedRow (sound : Sound rows) (op : MaterialOp) :
    Upserts typ rows op ↔ MeetsSavedRow typ rows op := by
  cases op with
  | delete pk =>
    have oneRow := (sound.of_sublist (@materialStep_delete_sublist typ rows pk)).oneRow
    exact ⟨fun _ => trivial, fun _ => ⟨oneRow, nofun⟩⟩
  | save material =>
    constructor
    · rintro ⟨oneRow, found⟩
      refine ⟨?_, (oneRowPerKey_save_iff sound material).mp oneRow⟩
      rintro rfl
      have missing := found material rfl
      rw [KeyMaterialType.entity, getHelper_pskBundle] at missing
      cases missing
    · rintro ⟨other, replaced⟩
      have oneRow := (oneRowPerKey_save_iff sound material).mpr replaced
      refine ⟨oneRow, ?_⟩
      rintro _ ⟨⟩
      exact getHelper_save other oneRow

theorem sound_materialStep (sound : Sound rows) {op : MaterialOp}
    (upserts : Upserts typ rows op) : Sound (materialStep typ rows op) := by
  cases op with
  | save material => exact sound_save sound upserts.1
  | delete pk => exact sound.of_sublist (materialStep_delete_sublist pk)

end Runs

/-- **Saving key material.**  Along a run from a migrated table there is one row per key and what
is saved is found, exactly if no `save` meets a migrated row of its key and none is a pre-shared
key. -/
theorem upserts_along_run_iff (typ : KeyMaterialType) (hashes : Hashes)
    (materials : List KeyMaterial) (rows : List KeyMaterialRow)
    (distinct : DistinctKeys KeyMaterial.pk materials)
    (migrates : migrateV12 hashes materials = some rows) (ops : List MaterialOp) :
    Guarded (materialStep typ) (Upserts typ) rows ops ↔
      Guarded (materialStep typ) (MeetsSavedRow typ) rows ops := by
  have sound := sound_migrateV12 distinct migrates
  clear migrates
  -- the invariant passes from one state to the next through either side
  induction ops generalizing rows with
  | nil => exact Iff.rfl
  | cons op rest ih =>
    rw [guarded_cons, guarded_cons, upserts_iff_meetsSavedRow sound]
    refine and_congr_right fun meets => ih _ (sound_materialStep sound ?_)
    exact (upserts_iff_meetsSavedRow sound op).mpr meets

/-- Keys that were saved are saved again, and a migrated key is deleted before it is. -/
def sampleMaterialOps : List MaterialOp :=
  [.save ⟨[3], [4]⟩, .save ⟨[3], [5]⟩, .delete [1], .save ⟨[1], [6]⟩]

def sampleMigrated : List KeyMaterialRow :=
  [⟨sha256Blob sampleHashes [1], ⟨[1], [2]⟩⟩]

theorem upserts_along_run_iff_sample :
    Guarded (materialStep .hpkePrivateKey) (Upserts .hpkePrivateKey) sampleMigrated
      sampleMaterialOps := by
  refine (upserts_along_run_iff .hpkePrivateKey sampleHashes [⟨[1], [2]⟩] sampleMigrated
    (by decide) rfl sampleMaterialOps).mpr ?_
  simp only [sampleMaterialOps, guarded_cons, guarded_nil, MeetsSavedRow]
  decide

/-- A migrated key that is saved again has two rows, of which the older is found; a pre-shared
key is not found at all. -/
theorem saved_key_beside_migrated_key :
    materialStep .hpkePrivateKey sampleMigrated (.save ⟨[1], [9]⟩) =
      sampleMigrated ++ [⟨.blob [1], ⟨[1], [9]⟩⟩] ∧
    getHelper storedHpkePrivateKey
      (materialStep .hpkePrivateKey sampleMigrated (.save ⟨[1], [9]⟩)) [1] =
        .ok (some ⟨[1], [2]⟩) ∧
    getHelper storedPskBundle (materialStep .pskBundle [] (.save ⟨[1], [9]⟩)) [1] =
      .error (.noSuchColumn "id") := by
  decide

end CoreCrypto.Migrations
