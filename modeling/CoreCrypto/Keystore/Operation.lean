import CoreCrypto.Keystore.Database

/-!
# Operations inside a transaction

Code that runs while a transaction is open reads and writes through the database, but
neither opens, commits nor rolls back a transaction.  `PkiEnvironment::transactionally`
wraps such an operation.
-/

namespace CoreCrypto.Keystore

variable {S : Type}

/-- An operation that writes into the slot at most. -/
structure Operation (S ε α : Type) where
  run : Database S → Except ε α × Database S
  conn : ∀ db, (run db).2.conn = db.conn
  permits : ∀ db, (run db).2.permits = db.permits
  slot : ∀ db, (run db).2.transaction.isSome = db.transaction.isSome

attribute [simp] Operation.conn Operation.permits Operation.slot

namespace Operation

def write (f : KeystoreTransaction S → KeystoreTransaction S) :
    Operation S CryptoKeystoreError Unit :=
  { run := fun db => db.modifyTransaction f
    conn := by intro db; unfold Database.modifyTransaction; split <;> rfl
    permits := by intro db; unfold Database.modifyTransaction; split <;> rfl
    slot := by
      intro db
      unfold Database.modifyTransaction
      split
      next empty => rfl
      next tx full => simp [full] }

/-- `Database::save` and `Database::remove` as operations. -/
def save (rt : Runtime S) (entity : Entity S) : Operation S CryptoKeystoreError Unit :=
  write (·.save rt entity)

def remove (id : EntityId) : Operation S CryptoKeystoreError Unit :=
  write (·.removeByEntityId id)

end Operation

/-- `PkiEnvironment::transactionally`; `Sum.inl` is an error of the keystore, `Sum.inr` one
of the operation. -/
def transactionally {ε α : Type} (rt : Runtime S) (db : Database S) (operation : Operation S ε α)
    (engine : Option CryptoKeystoreError) : Except (CryptoKeystoreError ⊕ ε) α × Database S :=
  match db.tryNewImmediateTransaction with
  | .error _ =>
    -- a transaction is in progress: the operation writes into it
    let (outcome, db) := operation.run db
    (outcome.mapError .inr, db)
  | .ok db =>
    match operation.run db with
    | (.ok a, db) =>
      match db.commitTransaction rt engine with
      | (.ok (), db) => (.ok a, db)
      | (.error error, db) => (.error (.inl error), db)
    | (.error error, db) =>
      match db.rollbackTransaction with
      | (.ok (), db) => (.error (.inr error), db)
      | (.error error, db) => (.error (.inl error), db)

end CoreCrypto.Keystore
