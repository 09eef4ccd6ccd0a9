import CoreCrypto.Basic
import CoreCrypto.Library.KeyedList
import CoreCrypto.Library.Run

/-!
# Derived entities on the SQL backend

What `#[derive(Entity)]` generates for a struct; the structs of the keystore that derive it stand at
the end.
-/

namespace CoreCrypto.Keystore.Derived

open Library

/-! ### Values and columns -/

/-- A value as SQLite binds and stores it, with its storage class. -/
inductive SqlValue where
  | null
  | text (value : String)
  | blob (value : Bytes)
  deriving DecidableEq, Repr

/-- The operator `=` of a `WHERE` clause and of a `UNIQUE` column.  Values of different storage
classes are not equal, and neither the affinity of a text column nor that of a blob column
converts a bound blob. -/
def SqlValue.equals : SqlValue → SqlValue → Bool
  | .text a, .text b => a == b
  | .blob a, .blob b => a == b
  | _, _ => false

inductive IdColumnType where
  | string
  | bytes
  deriving DecidableEq, Repr

inductive ColumnType where
  | string
  | bytes
  | optionalBytes
  deriving DecidableEq, Repr

namespace IdColumnType

def Owned : IdColumnType → Type
  | string => String
  | bytes => Bytes

/-- The value that `params!` binds for a field of this type. -/
def toSql : (type : IdColumnType) → type.Owned → SqlValue
  | string, value => .text value
  | bytes, value => .blob value

/-- The conversion of `row.get`, which refuses a value of another storage class. -/
def fromSql : (type : IdColumnType) → SqlValue → Option type.Owned
  | string, .text value => some value
  | bytes, .blob value => some value
  | _, _ => none

/-- `KeyType::bytes` of a key of this type. -/
def keyBytes : (type : IdColumnType) → type.Owned → Bytes
  | string, value => value.toUTF8.toList
  | bytes, value => value

variable {type : IdColumnType}

theorem fromSql_toSql (value : type.Owned) : type.fromSql (type.toSql value) = some value := by
  cases type <;> rfl

theorem equals_toSql_self (value : type.Owned) :
    (type.toSql value).equals (type.toSql value) = true := by
  cases type <;> exact beq_self_eq_true _

theorem blob_keyBytes (bytes : type = .bytes) (key : type.Owned) :
    SqlValue.blob (type.keyBytes key) = type.toSql key := by
  subst bytes
  rfl

/-- What is bound for an id equals the bytes of its key only if the id is bytes itself. -/
theorem equals_keyBytes_iff (value key : type.Owned) :
    (type.toSql value).equals (.blob (type.keyBytes key)) = true ↔
      type = .bytes ∧ type.toSql value = type.toSql key := by
  cases type with
  | string => simp [toSql, SqlValue.equals]
  | bytes =>
    have equal (a b : Bytes) : (a == b) = true ↔ SqlValue.blob a = SqlValue.blob b := by simp
    exact (equal value key).trans (and_iff_right rfl).symm

end IdColumnType

namespace ColumnType

def Owned : ColumnType → Type
  | string => String
  | bytes => Bytes
  | optionalBytes => Option Bytes

def toSql : (type : ColumnType) → type.Owned → SqlValue
  | string, value => .text value
  | bytes, value => .blob value
  | optionalBytes, some value => .blob value
  | optionalBytes, none => .null

def fromSql : (type : ColumnType) → SqlValue → Option type.Owned
  | string, .text value => some value
  | bytes, .blob value => some value
  | optionalBytes, .blob value => some (some value)
  | optionalBytes, .null => some none
  | _, _ => none

theorem fromSql_toSql (type : ColumnType) (value : type.Owned) :
    type.fromSql (type.toSql value) = some value := by
  cases type with
  | string => rfl
  | bytes => rfl
  | optionalBytes => cases value <;> rfl

end ColumnType

/-- `GenericColumn<Type>`, without the flag that only the encryption in browsers reads. -/
structure GenericColumn (T : Type) where
  fieldName : String
  columnType : T
  columnName : Option String := none
  deriving DecidableEq, Repr

def GenericColumn.sqlName {T : Type} (column : GenericColumn T) : String :=
  column.columnName.getD column.fieldName

/-! ### Rows -/

/-- A row with the names of the columns that were written. -/
abbrev Row := List (String × SqlValue)

inductive SqlError where
  | invalidColumnName (name : String)
  | invalidColumnType (name : String) (value : SqlValue)
  deriving DecidableEq, Repr

namespace Row

def value? (row : Row) (name : String) : Option SqlValue :=
  (row.find? fun cell => cell.1 = name).map Prod.snd

/-- `row.get::<_, T>(name)`. -/
def get {α : Type} (row : Row) (name : String) (fromSql : SqlValue → Option α) :
    Except SqlError α :=
  match row.value? name with
  | none => .error (.invalidColumnName name)
  | some value =>
    match fromSql value with
    | none => .error (.invalidColumnType name value)
    | some a => .ok a

theorem get_eq_ok {α : Type} {row : Row} {name : String} {fromSql : SqlValue → Option α}
    {value : SqlValue} {a : α} (stored : row.value? name = some value)
    (converts : fromSql value = some a) : row.get name fromSql = .ok a := by
  simp [get, stored, converts]

theorem value?_zip {names : List String} {values : List SqlValue} (distinct : names.Nodup)
    (lengths : values.length = names.length) {name : String} {value : SqlValue}
    (member : (name, value) ∈ names.zip values) : value? (names.zip values) name = some value := by
  have keys : DistinctKeys Prod.fst (names.zip values) := by
    unfold DistinctKeys
    rwa [List.map_fst_zip (Nat.le_of_eq lengths.symm)]
  rw [value?, (find?_key_iff Prod.fst keys name (name, value)).mpr ⟨member, rfl⟩]
  rfl

end Row

/-- The values of a struct's other columns, one for each. -/
def Fields : List (GenericColumn ColumnType) → Type
  | [] => Unit
  | column :: rest => column.columnType.Owned × Fields rest

namespace Fields

/-- The `store_expression`s, bound. -/
def params : (columns : List (GenericColumn ColumnType)) → Fields columns → List SqlValue
  | [], _ => []
  | column :: rest, fields => column.columnType.toSql fields.1 :: params rest fields.2

/-- The `load_expression`s, in the order of the columns. -/
def load : (columns : List (GenericColumn ColumnType)) → Row → Except SqlError (Fields columns)
  | [], _ => .ok ()
  | column :: rest, row => do
    let value ← row.get column.sqlName column.columnType.fromSql
    let others ← load rest row
    return (value, others)

theorem length_params (columns : List (GenericColumn ColumnType)) (fields : Fields columns) :
    (params columns fields).length = columns.length := by
  induction columns with
  | nil => rfl
  | cons column rest ih => simp [params, ih]

theorem load_eq_ok (columns : List (GenericColumn ColumnType)) (fields : Fields columns) (row : Row)
    (stored : ∀ name value,
      (name, value) ∈ (columns.map GenericColumn.sqlName).zip (params columns fields) →
        row.value? name = some value) : load columns row = .ok fields := by
  induction columns with
  | nil => rfl
  | cons column rest ih =>
    have first : row.get column.sqlName column.columnType.fromSql = .ok fields.1 :=
      Row.get_eq_ok (stored _ _ (by simp [params])) (column.columnType.fromSql_toSql fields.1)
    have others : load rest row = .ok fields.2 :=
      ih fields.2 fun name value member => stored name value (by simp [params, member])
    rw [load, first, others]
    rfl

end Fields

/-! ### The generated functions -/

/-- The struct as the derive macro sees it.  A table has each of its column names once. -/
structure Entity where
  upsert : Bool
  collectionName : String
  idColumn : GenericColumn IdColumnType
  otherColumns : List (GenericColumn ColumnType)
  distinct : (idColumn.sqlName :: otherColumns.map GenericColumn.sqlName).Nodup

/-- A value of the struct. -/
structure Entity.Value (E : Entity) where
  id : E.idColumn.columnType.Owned
  others : Fields E.otherColumns

inductive CryptoKeystoreError where
  | alreadyExists (collectionName : String)
  | dbError (error : SqlError)
  deriving DecidableEq, Repr

abbrev Table := List Row

/-- `SELECT * FROM collection_name WHERE primary_key_column_name = ?`, of which `query_row` takes
the first row. -/
def getHelper {α : Type} (table : Table) (primaryKeyColumnName : String) (primaryKey : SqlValue)
    (fromRow : Row → Except SqlError α) : Except CryptoKeystoreError (Option α) :=
  match table.find? fun row => (row.value? primaryKeyColumnName).any (·.equals primaryKey) with
  | none => .ok none
  | some row =>
    match fromRow row with
    | .error error => .error (.dbError error)
    | .ok entity => .ok (some entity)

/-- `DELETE FROM collection_name WHERE primary_key_column_name = ?`, and whether it deleted a
row. -/
def deleteHelper (table : Table) (primaryKeyColumnName : String) (primaryKey : SqlValue) :
    Bool × Table :=
  let matching (row : Row) := (row.value? primaryKeyColumnName).any (·.equals primaryKey)
  (0 < (table.filter matching).length, table.filter fun row => !matching row)

namespace Entity

variable (E : Entity) {table : Table}

def primaryKey (entity : E.Value) : E.idColumn.columnType.Owned := entity.id

def borrowPrimaryKey (entity : E.Value) : E.idColumn.columnType.Owned := entity.id

def columnNames : List String :=
  E.idColumn.sqlName :: E.otherColumns.map GenericColumn.sqlName

/-- The row that the `INSERT` of `sql_insert_parts` writes. -/
def row (entity : E.Value) : Row :=
  E.columnNames.zip
    (E.idColumn.columnType.toSql entity.id :: Fields.params E.otherColumns entity.others)

/-- The `field_assignment`s. -/
def fromRow (row : Row) : Except SqlError E.Value := do
  let id ← row.get E.idColumn.sqlName E.idColumn.columnType.fromSql
  let others ← Fields.load E.otherColumns row
  return ⟨id, others⟩

/-- The rows that a row with this id would conflict with. -/
def hasId (id : SqlValue) (row : Row) : Bool :=
  (row.value? E.idColumn.sqlName).any (·.equals id)

/-- `INSERT OR REPLACE` takes the conflicting rows out, a plain `INSERT` fails on them. -/
def save (entity : E.Value) (table : Table) : Except CryptoKeystoreError Table :=
  let id := E.idColumn.columnType.toSql entity.id
  if E.upsert then
    .ok (table.filter (fun row => !E.hasId id row) ++ [E.row entity])
  else if table.any (E.hasId id) then
    .error (.alreadyExists E.collectionName)
  else
    .ok (table ++ [E.row entity])

def getBorrowed (table : Table) (key : E.idColumn.columnType.Owned) :
    Except CryptoKeystoreError (Option E.Value) :=
  getHelper table E.idColumn.sqlName (.blob (E.idColumn.columnType.keyBytes key)) E.fromRow

def get (table : Table) (key : E.idColumn.columnType.Owned) :
    Except CryptoKeystoreError (Option E.Value) :=
  E.getBorrowed table key

def deleteBorrowed (table : Table) (key : E.idColumn.columnType.Owned) : Bool × Table :=
  deleteHelper table E.idColumn.sqlName (.blob (E.idColumn.columnType.keyBytes key))

def delete (table : Table) (key : E.idColumn.columnType.Owned) : Bool × Table :=
  E.deleteBorrowed table key

variable {E}

/-! ### One row -/

theorem length_params (entity : E.Value) :
    (E.idColumn.columnType.toSql entity.id ::
      Fields.params E.otherColumns entity.others).length = E.columnNames.length := by
  simp [columnNames, Fields.length_params]

theorem value?_row (entity : E.Value) :
    (E.row entity).value? E.idColumn.sqlName =
      some (E.idColumn.columnType.toSql entity.id) :=
  Row.value?_zip E.distinct (length_params entity) (by simp)

theorem fromRow_row (entity : E.Value) : E.fromRow (E.row entity) = .ok entity := by
  have id : (E.row entity).get E.idColumn.sqlName E.idColumn.columnType.fromSql = .ok entity.id :=
    Row.get_eq_ok (value?_row entity) (IdColumnType.fromSql_toSql entity.id)
  have others : Fields.load E.otherColumns (E.row entity) = .ok entity.others :=
    Fields.load_eq_ok E.otherColumns entity.others (E.row entity) fun name value member =>
      Row.value?_zip E.distinct (length_params entity) (by simp [member])
  rw [fromRow, id, others]
  rfl

theorem hasId_row (id : SqlValue) (entity : E.Value) :
    E.hasId id (E.row entity) = (E.idColumn.columnType.toSql entity.id).equals id := by
  simp [hasId, value?_row]

/-! ### The table -/

inductive Operation (E : Entity) where
  | save (entity : E.Value)
  | delete (key : E.idColumn.columnType.Owned)

/-- A save that fails leaves the table as it is. -/
def perform (E : Entity) (table : Table) : Operation E → Table
  | .save entity =>
    match E.save entity table with
    | .ok after => after
    | .error _ => table
  | .delete key => (E.delete table key).2

/-- The table after some operations on the empty one. -/
def written (E : Entity) (operations : List (Operation E)) : Table :=
  run E.perform [] operations

/-- Every row was written by a save. -/
def Sound (E : Entity) (table : Table) : Prop :=
  ∀ row ∈ table, ∃ entity, row = E.row entity

/-- A successful save: the rows with the id are gone, and the row of the entity is the last. -/
theorem save_eq_ok {entity : E.Value} {after : Table} (saved : E.save entity table = .ok after) :
    after = table.filter (fun row => !E.hasId (E.idColumn.columnType.toSql entity.id) row) ++
      [E.row entity] := by
  simp only [save] at saved
  split at saved
  · cases saved
    rfl
  · split at saved
    · cases saved
    next free =>
      cases saved
      congr 1
      symm
      rw [List.filter_eq_self]
      intro row member
      simpa using fun same => free (List.any_eq_true.mpr ⟨row, member, same⟩)

theorem sound_save {entity : E.Value} {after : Table} (sound : E.Sound table)
    (saved : E.save entity table = .ok after) : E.Sound after := by
  rw [save_eq_ok saved]
  intro row member
  rcases List.mem_append.mp member with kept | new
  · exact sound row (List.mem_of_mem_filter kept)
  · exact ⟨entity, List.mem_singleton.mp new⟩

theorem sound_perform (operation : Operation E) (sound : E.Sound table) :
    E.Sound (E.perform table operation) := by
  cases operation with
  | save entity =>
    cases saved : E.save entity table with
    | ok after => simpa only [perform, saved] using sound_save sound saved
    | error error => simpa only [perform, saved] using sound
  | delete key =>
    intro row member
    exact sound row (List.mem_of_mem_filter member)

theorem sound_written (operations : List (Operation E)) : E.Sound (E.written operations) :=
  run_invariant E.perform (fun _ _ => True) E.Sound
    (fun table operation sound _ => sound_perform operation sound) [] operations
    (fun _ member => by cases member) (guarded_of_forall _ _ (fun _ _ => trivial) _ _)

/-! ### The round trip -/

/-- An entity is found under its key once it is saved, is gone once it is deleted under it, and
no row with another id changes. -/
structure RoundTrips (E : Entity) (entity : E.Value) (table after : Table) : Prop where
  saved : E.get after (E.primaryKey entity) = .ok (some entity)
  savedBorrowed : E.getBorrowed after (E.borrowPrimaryKey entity) = .ok (some entity)
  reported : (E.delete after (E.primaryKey entity)).1 = true
  deleted : E.get (E.delete after (E.primaryKey entity)).2 (E.primaryKey entity) = .ok none
  deletedBorrowed : E.getBorrowed (E.delete after (E.primaryKey entity)).2
    (E.borrowPrimaryKey entity) = .ok none
  othersSaved :
    after.filter (fun row => !E.hasId (E.idColumn.columnType.toSql entity.id) row) =
      table.filter (fun row => !E.hasId (E.idColumn.columnType.toSql entity.id) row)
  othersDeleted : (E.delete after (E.primaryKey entity)).2.filter
      (fun row => !E.hasId (E.idColumn.columnType.toSql entity.id) row) =
    table.filter (fun row => !E.hasId (E.idColumn.columnType.toSql entity.id) row)

theorem getBorrowed_eq_some (bytes : E.idColumn.columnType = .bytes)
    {key : E.idColumn.columnType.Owned} {row : Row} {entity : E.Value}
    (first : table.find? (E.hasId (E.idColumn.columnType.toSql key)) = some row)
    (loads : E.fromRow row = .ok entity) : E.getBorrowed table key = .ok (some entity) := by
  unfold hasId at first
  rw [getBorrowed, IdColumnType.blob_keyBytes bytes, getHelper, first]
  simp only [loads]

theorem getBorrowed_eq_none (bytes : E.idColumn.columnType = .bytes)
    {key : E.idColumn.columnType.Owned}
    (absent : table.find? (E.hasId (E.idColumn.columnType.toSql key)) = none) :
    E.getBorrowed table key = .ok none := by
  unfold hasId at absent
  rw [getBorrowed, IdColumnType.blob_keyBytes bytes, getHelper, absent]

theorem delete_of_bytes (bytes : E.idColumn.columnType = .bytes) (table : Table)
    (key : E.idColumn.columnType.Owned) :
    E.delete table key =
      (decide (0 < (table.filter (E.hasId (E.idColumn.columnType.toSql key))).length),
        table.filter fun row => !E.hasId (E.idColumn.columnType.toSql key) row) := by
  rw [delete, deleteBorrowed, IdColumnType.blob_keyBytes bytes]
  rfl

/-- No row written by a save is found under a key, unless the id is bytes. -/
theorem bytes_of_getBorrowed (sound : E.Sound table) {key : E.idColumn.columnType.Owned}
    {entity : E.Value} (found : E.getBorrowed table key = .ok (some entity)) :
    E.idColumn.columnType = .bytes := by
  simp only [getBorrowed, getHelper] at found
  split at found
  · cases found
  next row first =>
    obtain ⟨other, rfl⟩ := sound row (List.mem_of_find?_eq_some first)
    have equal := List.find?_some first
    rw [value?_row, Option.any_some] at equal
    exact ((IdColumnType.equals_keyBytes_iff _ _).mp equal).1

theorem roundTrips_of_bytes (bytes : E.idColumn.columnType = .bytes) {entity : E.Value}
    {after : Table} (saved : E.save entity table = .ok after) :
    E.RoundTrips entity table after := by
  have own : E.hasId (E.idColumn.columnType.toSql entity.id) (E.row entity) = true := by
    rw [hasId_row]
    exact IdColumnType.equals_toSql_self _
  have first : after.find? (E.hasId (E.idColumn.columnType.toSql entity.id)) =
      some (E.row entity) := by
    rw [save_eq_ok saved, List.find?_append, List.find?_eq_none.mpr]
    · simp [own]
    · intro row member
      simpa using (List.mem_filter.mp member).2
  have others : after.filter (fun row => !E.hasId (E.idColumn.columnType.toSql entity.id) row) =
      table.filter (fun row => !E.hasId (E.idColumn.columnType.toSql entity.id) row) := by
    rw [save_eq_ok saved, List.filter_append, List.filter_filter]
    simp [own]
  have found : E.getBorrowed after entity.id = .ok (some entity) :=
    getBorrowed_eq_some bytes first (fromRow_row entity)
  have gone : E.getBorrowed (E.delete after entity.id).2 entity.id = .ok none := by
    refine getBorrowed_eq_none bytes (List.find?_eq_none.mpr fun row member => ?_)
    rw [delete_of_bytes bytes] at member
    simpa using (List.mem_filter.mp member).2
  refine ⟨found, found, ?_, gone, gone, others, ?_⟩
  · rw [primaryKey, delete_of_bytes bytes]
    simp only [decide_eq_true_eq, List.length_pos_iff_exists_mem]
    exact ⟨E.row entity, List.mem_filter.mpr ⟨List.mem_of_find?_eq_some first, own⟩⟩
  · rw [primaryKey, delete_of_bytes bytes, List.filter_filter]
    simpa using others

end Entity

/-- **Round trip.**  A saved entity comes back through its primary key, and is deleted through
it, if and only if the id column of its struct is a `Vec<u8>`. -/
theorem roundTrips_iff_id_bytes (E : Entity) (operations : List (Entity.Operation E))
    (entity : E.Value) (after : Table) (saved : E.save entity (E.written operations) = .ok after) :
    E.RoundTrips entity (E.written operations) after ↔ E.idColumn.columnType = .bytes := by
  constructor
  · intro trips
    exact Entity.bytes_of_getBorrowed
      (Entity.sound_save (Entity.sound_written operations) saved) trips.savedBorrowed
  · intro bytes
    exact Entity.roundTrips_of_bytes bytes saved

/-! ### The structs of the keystore -/

def storedBufferedCommit : Entity where
  upsert := true
  collectionName := "mls_buffered_commits"
  idColumn := ⟨"conversation_id", .bytes, none⟩
  otherColumns := [⟨"commit_data", .bytes, none⟩]
  distinct := by decide

def storedKeypackage : Entity where
  upsert := true
  collectionName := "mls_keypackages"
  idColumn := ⟨"keypackage_ref", .bytes, none⟩
  otherColumns := [⟨"keypackage", .bytes, none⟩]
  distinct := by decide

def storedEpochEncryptionKeypair : Entity where
  upsert := true
  collectionName := "mls_epoch_encryption_keypairs"
  idColumn := ⟨"id", .bytes, none⟩
  otherColumns := [⟨"keypairs", .bytes, none⟩]
  distinct := by decide

def persistedMlsGroup : Entity where
  upsert := true
  collectionName := "mls_groups"
  idColumn := ⟨"id", .bytes, none⟩
  otherColumns := [⟨"parent_id", .optionalBytes, none⟩, ⟨"state", .bytes, none⟩]
  distinct := by decide

def storedE2eiEnrollment : Entity where
  upsert := false
  collectionName := "e2ei_enrollment"
  idColumn := ⟨"id", .bytes, none⟩
  otherColumns := [⟨"content", .bytes, none⟩]
  distinct := by decide

def e2eiIntermediateCert : Entity where
  upsert := true
  collectionName := "e2ei_intermediate_certs"
  idColumn := ⟨"ski_aki_pair", .string, none⟩
  otherColumns := [⟨"content", .bytes, none⟩]
  distinct := by decide

def e2eiCrl : Entity where
  upsert := true
  collectionName := "e2ei_crls"
  idColumn := ⟨"distribution_point", .string, none⟩
  otherColumns := [⟨"content", .bytes, none⟩]
  distinct := by decide

def proteusSession : Entity where
  upsert := true
  collectionName := "proteus_sessions"
  idColumn := ⟨"id", .string, none⟩
  otherColumns := [⟨"session", .bytes, none⟩]
  distinct := by decide

def derivedEntities : List Entity :=
  [storedBufferedCommit, storedKeypackage, storedEpochEncryptionKeypair, persistedMlsGroup,
    storedE2eiEnrollment, e2eiIntermediateCert, e2eiCrl, proteusSession]

/-- A group with a parent, of a collection that was written before. -/
theorem roundTrips_iff_id_bytes_sample :
    persistedMlsGroup.RoundTrips ⟨([1] : Bytes), ((some [9] : Option Bytes), ([7] : Bytes), ())⟩
      (persistedMlsGroup.written
        [.save ⟨([1] : Bytes), ((none : Option Bytes), ([6] : Bytes), ())⟩])
      [persistedMlsGroup.row ⟨([1] : Bytes), ((some [9] : Option Bytes), ([7] : Bytes), ())⟩] :=
  (roundTrips_iff_id_bytes persistedMlsGroup _ _ _ rfl).mpr rfl

/-- A revocation list is saved under its distribution point as text and looked for, and deleted,
under the bytes of it. -/
theorem saved_revocation_list_not_found :
    ∃ after, e2eiCrl.save ⟨"example.com", (([7] : Bytes), ())⟩ [] = .ok after ∧
      e2eiCrl.get after "example.com" = .ok none ∧
      e2eiCrl.delete after "example.com" = (false, after) :=
  ⟨_, rfl, rfl, rfl⟩

example : (derivedEntities.filter (·.idColumn.columnType = .string)).map Entity.collectionName =
    ["e2ei_intermediate_certs", "e2ei_crls", "proteus_sessions"] := by decide

end CoreCrypto.Keystore.Derived
