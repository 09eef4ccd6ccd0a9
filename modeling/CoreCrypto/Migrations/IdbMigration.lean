import CoreCrypto.Keystore.Transaction
import CoreCrypto.Library.Except
import CoreCrypto.Library.KeyedList
import CoreCrypto.Library.Run

/-!
# From IndexedDB to SQLite

Whether the old data is copied is decided by whether the file of the new database exists, and the
file exists before the copy.  An attempt that fails in between leaves a file that every later one
takes for a migrated one, and so does one that gets no answer about the old database.  An attempt
is followed place by place.
-/

namespace CoreCrypto.Migrations

open Keystore Library Library.Fallible

variable (rt : Runtime Bytes) {fileSurvives : Bool}

/-- The entities of the old database, after its own migrations.  It is a key-value store, so no
two have the same key. -/
structure LegacyDb where
  entities : List (Entity Bytes)
  distinct : DistinctKeys rt.fromEntity entities

/-- The file of the new database; until something is committed it is only in memory. -/
structure SqliteFile where
  durable : Bool
  userVersion : Nat
  rows : List (Entity Bytes)
  deriving DecidableEq

/-- What `migrate_entities!` lists.  The refresh tokens are missing intentionally. -/
def migratedTypes : List EntityType :=
  [.plain .consumerData, .plain .e2eiAcmeCA, .plain .e2eiCrl, .plain .e2eiIntermediateCert,
    .mlsPendingMessage, .persistedMlsGroup, .persistedMlsPendingGroup, .storedBufferedCommit,
    .storedCredential, .plain .storedE2eiEnrollment, .plain .encryptionKeyPair,
    .plain .epochEncryptionKeyPair, .plain .hpkePrivateKey, .plain .keyPackage,
    .plain .pskBundle, .proteusIdentity, .plain .proteusPrekey, .proteusSession]

def sqlDatabaseVersionAsOfFinalIdbVersion : Nat := 22

/-- The places at which an attempt can fail. -/
inductive OpenPc where
  | getVfsUtil
  | openConnection (alreadyExists : Bool)
  | setKey (alreadyExists : Bool)
  | legacyIdbExists
  | queryUserVersion
  | openLegacy
  | runMigrations (version : Nat)
  | loadAll (types : List EntityType) (loaded : List (Entity Bytes))
  | copy (loaded : List (Entity Bytes))
  | deleteLegacyIdb
  | opened
  deriving DecidableEq

structure Attempt where
  legacy : Option (LegacyDb rt)
  file : Option SqliteFile
  pc : OpenPc

inductive OpenMove where
  | advance
  /-- The attempt fails, or the process ends, and `open` is called again.  A file that is only
  in memory may survive it. -/
  | fail (fileSurvives : Bool)
  /-- IndexedDB reports an error about the old database, which is read as there being none. -/
  | lookupFails
  /-- The old database cannot be deleted, which is logged only. -/
  | deletionFails
  /-- An opened database is opened once more. -/
  | reopen
  deriving DecidableEq

def SqliteFile.created : SqliteFile := ⟨false, 0, []⟩

namespace Attempt

variable {rt}

/-- What `load_all` returns of a collection. -/
def load (attempt : Attempt rt) (typ : EntityType) : List (Entity Bytes) :=
  match attempt.legacy with
  | some legacy => legacy.entities.filter (·.typ = typ)
  | none => []

/-- The effect of the place and the next one. -/
def advance (attempt : Attempt rt) : Attempt rt :=
  match attempt.pc with
  | .getVfsUtil => { attempt with pc := .openConnection attempt.file.isSome }
  | .openConnection alreadyExists =>
    { attempt with file := some (attempt.file.getD .created), pc := .setKey alreadyExists }
  | .setKey true => { attempt with pc := .opened }
  | .setKey false => { attempt with pc := .legacyIdbExists }
  | .legacyIdbExists =>
    { attempt with pc := if attempt.legacy.isSome then .queryUserVersion else .opened }
  | .queryUserVersion =>
    { attempt with
      pc := if attempt.file.all (·.userVersion = 0) then .openLegacy else .opened }
  | .openLegacy => { attempt with pc := .runMigrations 1 }
  | .runMigrations version =>
    if version ≤ sqlDatabaseVersionAsOfFinalIdbVersion then
      { attempt with
        file := attempt.file.map fun file => { file with durable := true, userVersion := version }
        pc := .runMigrations (version + 1) }
    else
      { attempt with pc := .loadAll migratedTypes [] }
  | .loadAll (typ :: types) loaded =>
    { attempt with pc := .loadAll types (loaded ++ attempt.load typ) }
  | .loadAll [] loaded => { attempt with pc := .copy loaded }
  | .copy loaded =>
    match loaded.foldlM (executeSave rt) (attempt.file.elim [] SqliteFile.rows) with
    -- the transaction is rolled back
    | .error _ => { attempt with pc := .getVfsUtil }
    | .ok rows =>
      { attempt with
        file := attempt.file.map fun file => { file with durable := true, rows }
        pc := .deleteLegacyIdb }
  | .deleteLegacyIdb => { attempt with legacy := none, pc := .opened }
  | .opened => attempt

def move (attempt : Attempt rt) : OpenMove → Attempt rt
  | .advance => attempt.advance
  | .fail fileSurvives =>
    { attempt with
      file := attempt.file.filter fun file => file.durable || fileSurvives
      pc := .getVfsUtil }
  | .lookupFails =>
    if attempt.pc = .legacyIdbExists then { attempt with pc := .opened } else attempt
  | .deletionFails =>
    if attempt.pc = .deleteLegacyIdb then { attempt with pc := .opened } else attempt
  | .reopen => if attempt.pc = .opened then { attempt with pc := .getVfsUtil } else attempt

/-- The file of this attempt is there and the copy is not committed. -/
def BeforeCopy : OpenPc → Bool
  | .getVfsUtil | .openConnection _ | .setKey true | .deleteLegacyIdb | .opened => false
  | _ => true

/-- An attempt may fail between the making of the file and the commit of the copy only if the
file is lost with it, and the lookup of an old database only if there is none. -/
def FailsSafely (attempt : Attempt rt) : OpenMove → Prop
  | .fail fileSurvives => BeforeCopy attempt.pc = true →
      fileSurvives = false ∧ attempt.file.all (!·.durable) = true
  | .lookupFails => attempt.pc = .legacyIdbExists → attempt.legacy.isNone = true
  | _ => True

instance (attempt : Attempt rt) (label : OpenMove) : Decidable (attempt.FailsSafely label) := by
  cases label <;> unfold FailsSafely <;> infer_instance

end Attempt

variable {rt} {legacy : LegacyDb rt} {attempt : Attempt rt}

/-- The new database has every entity of the old one but the refresh tokens. -/
def HoldsLegacy (legacy : LegacyDb rt) (file : SqliteFile) : Prop :=
  ∀ entity ∈ legacy.entities, entity.typ ≠ .plain .e2eiRefreshToken → entity ∈ file.rows

/-- Nothing is lost: a database that is open holds the old data, and so does one whose old
database is deleted. -/
def NothingLost (legacy : LegacyDb rt) (attempt : Attempt rt) : Prop :=
  attempt.pc = .opened ∨ attempt.legacy.isNone →
    ∃ file, attempt.file = some file ∧ HoldsLegacy legacy file

/-! ### The copy -/

theorem mem_migratedTypes (typ : EntityType) :
    typ ∈ migratedTypes ↔ typ ≠ .plain .e2eiRefreshToken := by
  cases typ with
  | plain collection => cases collection <;> decide
  | _ => decide

theorem nodup_migratedTypes : migratedTypes.Nodup := by decide

/-- The entities in the order in which they are loaded. -/
def LegacyDb.loaded (legacy : LegacyDb rt) (types : List EntityType) : List (Entity Bytes) :=
  types.flatMap fun typ => legacy.entities.filter (·.typ = typ)

theorem LegacyDb.mem_loaded (legacy : LegacyDb rt) (entity : Entity Bytes) :
    entity ∈ legacy.loaded migratedTypes ↔
      entity ∈ legacy.entities ∧ entity.typ ≠ .plain .e2eiRefreshToken := by
  simp only [loaded, List.mem_flatMap, List.mem_filter, decide_eq_true_eq, ← mem_migratedTypes]
  constructor
  · rintro ⟨typ, listed, member, rfl⟩
    exact ⟨member, listed⟩
  · rintro ⟨member, listed⟩
    exact ⟨_, listed, member, rfl⟩

theorem LegacyDb.distinct_loaded (legacy : LegacyDb rt) {types : List EntityType}
    (nodup : types.Nodup) : DistinctKeys rt.fromEntity (legacy.loaded types) := by
  rw [DistinctKeys, loaded, List.map_flatMap, List.nodup_flatMap]
  refine ⟨fun typ _ => legacy.distinct.sublist (List.filter_sublist.map _), ?_⟩
  refine nodup.imp fun {first second} different id inFirst inSecond => different ?_
  -- an id is of one type
  obtain ⟨entity, member, rfl⟩ := List.mem_map.mp inFirst
  obtain ⟨other, memberOther, same⟩ := List.mem_map.mp inSecond
  have typ := of_decide_eq_true (List.mem_filter.mp member).2
  have typOther := of_decide_eq_true (List.mem_filter.mp memberOther).2
  rw [← typ, ← typOther]
  exact (congrArg EntityId.typ same).symm

theorem executeSave_of_fresh {rows : List (Entity Bytes)} {entity : Entity Bytes}
    (fresh : rt.fromEntity entity ∉ rows.map rt.fromEntity) :
    executeSave rt rows entity = .ok (rows ++ [entity]) := by
  have others : ∀ row ∈ rows, rt.fromEntity row ≠ rt.fromEntity entity := by
    intro row member same
    exact fresh (same ▸ List.mem_map_of_mem member)
  unfold executeSave
  split
  · rw [if_neg]
    intro taken
    obtain ⟨row, member, same⟩ := List.any_eq_true.mp taken
    exact others row member (of_decide_eq_true same)
  · rfl
  all_goals rw [List.filter_eq_self.mpr fun row member => decide_eq_true (others row member)]

theorem foldlM_executeSave {rows entities : List (Entity Bytes)}
    (distinct : DistinctKeys rt.fromEntity (rows ++ entities)) :
    entities.foldlM (executeSave rt) rows = .ok (rows ++ entities) := by
  induction entities generalizing rows with
  | nil => simp [pure, Except.pure]
  | cons entity rest ih =>
    have split : rows ++ entity :: rest = rows ++ [entity] ++ rest := by simp
    rw [split] at distinct ⊢
    have fresh := ((distinctKeys_snoc _).mp
      (distinct.sublist ((List.sublist_append_left _ _).map _))).2
    rw [List.foldlM_cons, executeSave_of_fresh fresh, ok_bind]
    exact ih distinct

/-! ### The states of an attempt -/

/-- The file has the data of the old database for good. -/
def Copied (legacy : LegacyDb rt) (attempt : Attempt rt) : Prop :=
  ∃ file, attempt.file = some file ∧ file.durable = true ∧ HoldsLegacy legacy file

/-- There is no file yet. -/
def Untouched (legacy : LegacyDb rt) (attempt : Attempt rt) : Prop :=
  attempt.file = none ∧ attempt.legacy = some legacy

/-- The file was made by this attempt and has no rows yet. -/
def Copying (legacy : LegacyDb rt) (attempt : Attempt rt) : Prop :=
  (∃ file, attempt.file = some file ∧ file.rows = []) ∧ attempt.legacy = some legacy

/-- As long as nothing is committed the file has no version either. -/
def Fresh (legacy : LegacyDb rt) (attempt : Attempt rt) : Prop :=
  attempt.file = some .created ∧ attempt.legacy = some legacy

theorem Fresh.copying (fresh : Fresh legacy attempt) : Copying legacy attempt :=
  ⟨⟨_, fresh.1, rfl⟩, fresh.2⟩

/-- What holds at each place. -/
def AtPlace (legacy : LegacyDb rt) (attempt : Attempt rt) : Prop :=
  match attempt.pc with
  | .getVfsUtil => Untouched legacy attempt ∨ Copied legacy attempt
  | .openConnection false => Untouched legacy attempt
  | .openConnection true | .setKey true | .deleteLegacyIdb | .opened => Copied legacy attempt
  | .setKey false | .legacyIdbExists | .queryUserVersion | .openLegacy => Fresh legacy attempt
  | .runMigrations _ => Copying legacy attempt
  | .loadAll types loaded =>
    Copying legacy attempt ∧ loaded ++ legacy.loaded types = legacy.loaded migratedTypes
  | .copy loaded => Copying legacy attempt ∧ loaded = legacy.loaded migratedTypes

theorem advance_copy {old : Option (LegacyDb rt)} {file : SqliteFile} (empty : file.rows = []) :
    Attempt.advance ⟨old, some file, .copy (legacy.loaded migratedTypes)⟩ =
      ⟨old, some { file with durable := true, rows := legacy.loaded migratedTypes },
        .deleteLegacyIdb⟩ := by
  have saves : (legacy.loaded migratedTypes).foldlM (executeSave rt) file.rows =
      .ok (legacy.loaded migratedTypes) := by
    rw [empty]
    exact foldlM_executeSave (legacy.distinct_loaded nodup_migratedTypes)
  simp only [Attempt.advance, Option.elim_some]
  rw [saves]
  rfl

theorem atPlace_advance (inPlace : AtPlace legacy attempt) : AtPlace legacy attempt.advance := by
  obtain ⟨old, file, pc⟩ := attempt
  cases pc with
  | getVfsUtil =>
    rcases inPlace with ⟨none, same⟩ | ⟨file', some, copied⟩
    · obtain rfl : file = Option.none := none
      exact ⟨rfl, same⟩
    · obtain rfl : file = Option.some file' := some
      exact ⟨file', rfl, copied⟩
  | openConnection alreadyExists =>
    cases alreadyExists with
    | false =>
      obtain ⟨none, same⟩ := inPlace
      obtain rfl : file = Option.none := none
      exact ⟨rfl, same⟩
    | true =>
      obtain ⟨file', some, copied⟩ := inPlace
      obtain rfl : file = Option.some file' := some
      exact ⟨file', rfl, copied⟩
  | setKey alreadyExists => cases alreadyExists <;> exact inPlace
  | legacyIdbExists =>
    obtain ⟨isFile, isLegacy⟩ := inPlace
    obtain rfl : old = some legacy := isLegacy
    exact ⟨isFile, rfl⟩
  | queryUserVersion =>
    obtain ⟨isFile, isLegacy⟩ := inPlace
    obtain rfl : file = some .created := isFile
    exact ⟨rfl, isLegacy⟩
  | openLegacy => exact Fresh.copying inPlace
  | runMigrations version =>
    obtain ⟨⟨file', some, empty⟩, isLegacy⟩ := inPlace
    obtain rfl : file = Option.some file' := some
    simp only [Attempt.advance]
    split
    · exact ⟨⟨_, rfl, empty⟩, isLegacy⟩
    · exact ⟨⟨⟨_, rfl, empty⟩, isLegacy⟩, List.nil_append _⟩
  | loadAll types loaded =>
    obtain ⟨copying, progress⟩ := inPlace
    cases types with
    | nil => exact ⟨copying, by simpa [LegacyDb.loaded] using progress⟩
    | cons typ types =>
      refine ⟨copying, ?_⟩
      obtain rfl : old = some legacy := copying.2
      rw [← progress, List.append_assoc]
      rfl
  | copy loaded =>
    obtain ⟨⟨⟨file', some, empty⟩, isLegacy⟩, rfl⟩ := inPlace
    obtain rfl : file = Option.some file' := some
    rw [advance_copy empty]
    exact ⟨_, rfl, rfl, fun entity member kept => (legacy.mem_loaded entity).mpr ⟨member, kept⟩⟩
  | deleteLegacyIdb => exact inPlace
  | opened => exact inPlace

/-- A copy survives every failure. -/
theorem Copied.fail (copied : Copied legacy attempt) (fileSurvives : Bool) :
    Copied legacy (attempt.move (.fail fileSurvives)) := by
  obtain ⟨file, some, durable, holds⟩ := copied
  refine ⟨file, ?_, durable, holds⟩
  simp [Attempt.move, some, durable]

theorem Untouched.fail (untouched : Untouched legacy attempt) (fileSurvives : Bool) :
    Untouched legacy (attempt.move (.fail fileSurvives)) := by
  obtain ⟨none, isLegacy⟩ := untouched
  exact ⟨by simp [Attempt.move, none], isLegacy⟩

/-- A file that is lost leaves things as they were. -/
theorem Copying.fail (copying : Copying legacy attempt)
    (lost : fileSurvives = false ∧ attempt.file.all (!·.durable) = true) :
    Untouched legacy (attempt.move (.fail fileSurvives)) := by
  obtain ⟨⟨file, some, -⟩, isLegacy⟩ := copying
  obtain ⟨rfl, volatile⟩ := lost
  rw [some] at volatile
  exact ⟨by simpa [Attempt.move, some] using volatile, isLegacy⟩

theorem atPlace_fail (inPlace : AtPlace legacy attempt)
    (safe : attempt.FailsSafely (.fail fileSurvives)) :
    Untouched legacy (attempt.move (.fail fileSurvives)) ∨
      Copied legacy (attempt.move (.fail fileSurvives)) := by
  obtain ⟨old, file, pc⟩ := attempt
  cases pc with
  | getVfsUtil => exact inPlace.imp (·.fail _) (·.fail _)
  | openConnection alreadyExists =>
    cases alreadyExists with
    | false => exact .inl (Untouched.fail inPlace _)
    | true => exact .inr (Copied.fail inPlace _)
  | setKey alreadyExists =>
    cases alreadyExists with
    | false => exact .inl (inPlace.copying.fail (safe rfl))
    | true => exact .inr (Copied.fail inPlace _)
  | legacyIdbExists => exact .inl (inPlace.copying.fail (safe rfl))
  | queryUserVersion => exact .inl (inPlace.copying.fail (safe rfl))
  | openLegacy => exact .inl (inPlace.copying.fail (safe rfl))
  | runMigrations version => exact .inl (Copying.fail inPlace (safe rfl))
  | loadAll types loaded => exact .inl (inPlace.1.fail (safe rfl))
  | copy loaded => exact .inl (inPlace.1.fail (safe rfl))
  | deleteLegacyIdb => exact .inr (Copied.fail inPlace _)
  | opened => exact .inr (Copied.fail inPlace _)

theorem atPlace_move (inPlace : AtPlace legacy attempt) {label : OpenMove}
    (safe : attempt.FailsSafely label) : AtPlace legacy (attempt.move label) := by
  cases label with
  | advance => exact atPlace_advance inPlace
  | fail fileSurvives => exact atPlace_fail inPlace safe
  | lookupFails =>
    simp only [Attempt.move]
    split
    next there =>
      rw [AtPlace, there] at inPlace
      have gone := safe there
      rw [inPlace.2] at gone
      cases gone
    · exact inPlace
  | deletionFails =>
    simp only [Attempt.move]
    split
    next there =>
      rw [AtPlace, there] at inPlace
      exact inPlace
    · exact inPlace
  | reopen =>
    simp only [Attempt.move]
    split
    next there =>
      rw [AtPlace, there] at inPlace
      exact .inr inPlace
    · exact inPlace

/-- A database is gone or open only when it is copied. -/
theorem AtPlace.nothingLost (inPlace : AtPlace legacy attempt) : NothingLost legacy attempt := by
  have copied (isCopied : Copied legacy attempt) :
      ∃ file, attempt.file = some file ∧ HoldsLegacy legacy file := by
    obtain ⟨file, some, -, holds⟩ := isCopied
    exact ⟨file, some, holds⟩
  have present (isLegacy : attempt.legacy = some legacy) (closed : attempt.pc ≠ .opened) :
      NothingLost legacy attempt := by
    rintro (opened | gone)
    · exact absurd opened closed
    · rw [isLegacy] at gone
      cases gone
  obtain ⟨old, file, pc⟩ := attempt
  cases pc with
  | getVfsUtil =>
    rcases inPlace with untouched | isCopied
    · exact present untouched.2 nofun
    · exact fun _ => copied isCopied
  | openConnection alreadyExists =>
    cases alreadyExists with
    | false => exact present inPlace.2 nofun
    | true => exact fun _ => copied inPlace
  | setKey alreadyExists =>
    cases alreadyExists with
    | false => exact present inPlace.2 nofun
    | true => exact fun _ => copied inPlace
  | legacyIdbExists | queryUserVersion | openLegacy | runMigrations version =>
    exact present inPlace.2 nofun
  | loadAll types loaded | copy loaded => exact present inPlace.1.2 nofun
  | deleteLegacyIdb | opened => exact fun _ => copied inPlace

/-! ### Attempts that are left alone -/

/-- How many places are left at most. -/
def OpenPc.distance : OpenPc → Nat
  | getVfsUtil => 50
  | openConnection _ => 49
  | setKey _ => 48
  | legacyIdbExists => 47
  | queryUserVersion => 46
  | openLegacy => 45
  | runMigrations version => sqlDatabaseVersionAsOfFinalIdbVersion + 1 - version + 22
  | loadAll types _ => types.length + 3
  | copy _ => 2
  | deleteLegacyIdb => 1
  | opened => 0

theorem distance_advance (inPlace : AtPlace legacy attempt) (running : attempt.pc ≠ .opened) :
    attempt.advance.pc.distance < attempt.pc.distance := by
  obtain ⟨old, file, pc⟩ := attempt
  cases pc with
  | getVfsUtil | openConnection alreadyExists | openLegacy | deleteLegacyIdb =>
    simp only [Attempt.advance, OpenPc.distance]
    decide
  | setKey alreadyExists => cases alreadyExists <;> simp [Attempt.advance, OpenPc.distance]
  | legacyIdbExists | queryUserVersion =>
    simp only [Attempt.advance]
    split <;> simp [OpenPc.distance]
  | runMigrations version =>
    simp only [Attempt.advance]
    split
    next within =>
      simp only [OpenPc.distance]
      omega
    next =>
      simp only [OpenPc.distance, migratedTypes, List.length_cons, List.length_nil]
      omega
  | loadAll types loaded => cases types <;> simp [Attempt.advance, OpenPc.distance]
  | copy loaded =>
    obtain ⟨⟨⟨file', some, empty⟩, -⟩, rfl⟩ := inPlace
    obtain rfl : file = Option.some file' := some
    rw [advance_copy empty]
    exact Nat.lt_succ_self _
  | opened => exact absurd rfl running

theorem opens (inPlace : AtPlace legacy attempt) :
    ∃ n, (run Attempt.move attempt (List.replicate n .advance)).pc = .opened := by
  induction bound : attempt.pc.distance using Nat.strong_induction_on generalizing attempt with
  | _ bound ih =>
    subst bound
    by_cases running : attempt.pc = .opened
    · exact ⟨0, running⟩
    · obtain ⟨n, rest⟩ := ih _ (distance_advance inPlace running) (atPlace_advance inPlace) rfl
      exact ⟨n + 1, rest⟩

/-- The first attempt to open the new database. -/
def Attempt.first (legacy : LegacyDb rt) : Attempt rt :=
  ⟨some legacy, none, .getVfsUtil⟩

theorem atPlace_first (legacy : LegacyDb rt) : AtPlace legacy (.first legacy) :=
  .inl ⟨rfl, rfl⟩

/-- **The old data arrives.**  If IndexedDB can always tell whether there is an old database, and
no attempt fails between the making of the file and the commit of the copy, or such a failure takes
the file with it, nothing is lost in any state, and an attempt that does not fail opens the
database. -/
theorem nothing_lost_while_migrating (rt : Runtime Bytes) (legacy : LegacyDb rt)
    (labels : List OpenMove)
    (safe : Guarded Attempt.move Attempt.FailsSafely (.first legacy) labels) :
    NothingLost legacy (run Attempt.move (.first legacy) labels) ∧
    ∃ n, (run Attempt.move (.first legacy) (labels ++ List.replicate n .advance)).pc =
      .opened := by
  have inPlace := run_invariant _ _ (AtPlace legacy)
    (fun _ label inPlace => atPlace_move inPlace) _ labels (atPlace_first legacy) safe
  obtain ⟨n, arrives⟩ := opens inPlace
  exact ⟨inPlace.nothingLost, n, by rw [run_append]; exact arrives⟩

/-- A group and a refresh token. -/
def sampleLegacy : LegacyDb (.newestFirst id) where
  entities := [.persistedMlsGroup [1] [2] none, .plain .e2eiRefreshToken [3] [4]]
  distinct := by decide

/-- The first attempt fails before the file is made, the second while its file is in memory
only, and the third ends with an old database that cannot be deleted. -/
def sampleAttempts : List OpenMove :=
  [.advance, .fail true] ++ List.replicate 5 .advance ++ [.fail false] ++
    List.replicate 49 .advance ++ [.deletionFails, .reopen]

theorem nothing_lost_while_migrating_sample :
    NothingLost sampleLegacy (run Attempt.move (.first sampleLegacy) sampleAttempts) := by
  refine (nothing_lost_while_migrating (.newestFirst id) sampleLegacy sampleAttempts ?_).1
  decide +kernel

/-- An attempt whose tables are committed fails while it loads the old data.  The next one opens
the database, without the data.  Another one gets no answer about the old database and opens the
new one without the data as well, and so does whoever opens it again. -/
theorem legacy_data_not_copied :
    (let attempt := run Attempt.move (.first sampleLegacy)
      (List.replicate 30 .advance ++ [.fail true] ++ List.replicate 3 .advance)
    attempt.pc = .opened ∧ attempt.file = some ⟨true, 22, []⟩ ∧
      attempt.legacy.map LegacyDb.entities = some sampleLegacy.entities) ∧
    (let attempt := run Attempt.move (.first sampleLegacy)
      (List.replicate 3 .advance ++ [.lookupFails, .reopen] ++ List.replicate 3 .advance)
    attempt.pc = .opened ∧ attempt.file = some .created ∧
      attempt.legacy.map LegacyDb.entities = some sampleLegacy.entities) := by
  decide +kernel

end CoreCrypto.Migrations
