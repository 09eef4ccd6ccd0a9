import CoreCrypto.Migrations.Credentials

/-!
# The credential tables from version 15 to version 20

The SQL migrations 16 to 20 and the meta migrations that follow three of them in Rust.  A meta
migration fills a table that the SQL migration before it created, and the next SQL migration
drops the table that was read.
-/

namespace CoreCrypto.Migrations

open Keystore

inductive MigrationError where
  | migrationFailed (message : String)
  | deserialization (message : String)
  | noSuchTable
  | constraint
  | invalidColumnType
  deriving DecidableEq, Repr

structure V5Credential where
  id : Bytes
  credential : Bytes
  createdAt : Nat
  deriving DecidableEq, Repr

structure V6Credential where
  sessionId : Bytes
  credential : Bytes
  createdAt : Nat
  signatureScheme : Nat
  publicKey : Bytes
  privateKey : Bytes
  deriving DecidableEq, Repr

structure StoredSignatureKeypair where
  signatureScheme : Nat
  pk : Bytes
  keypair : Bytes
  credentialId : Bytes
  deriving DecidableEq, Repr

inductive MlsCredential where
  | basic (identity : Bytes)
  | x509 (certificates : List Bytes)

structure SignatureKeyPair where
  isPublic : Bytes
  isPrivate : Bytes

/-- Deserialization, as OpenMLS and the certificate library do it.  Of a certificate only the
public key is read, and of a group only the number of its ciphersuite. -/
structure Parsers where
  signatureKeyPair : Bytes → Except String SignatureKeyPair
  credential : Bytes → Except String MlsCredential
  certificate : Bytes → Except String (Except String Bytes)
  groupCiphersuite : Bytes → Except String Nat

/-- `map_err` to a failed migration. -/
def migrationFailed {α : Type} (context : String) : Except String α → Except MigrationError α
  | .ok a => .ok a
  | .error e => .error (.migrationFailed (context ++ ": " ++ e))

/-! ### Credentials and their key pairs -/

section V16

variable (parse : Parsers)

def v5CredentialMatchesSignatureKey (v5 : V5Credential) (stored : StoredSignatureKeypair)
    (signatureKey : SignatureKeyPair) : Except MigrationError Bool := do
  match ← migrationFailed "deserializing stored credential" (parse.credential v5.credential) with
  | .basic identity => return stored.credentialId = identity
  | .x509 [] => throw (.migrationFailed "No leaf certificate")
  | .x509 (leaf :: _) =>
    let certificate ← migrationFailed "decoding x509 certificate" (parse.certificate leaf)
    let publicKey ← migrationFailed "extracting public key from cert" certificate
    return signatureKey.isPublic = publicKey

def migrateToNewCredential (v5 : V5Credential) (stored : StoredSignatureKeypair) :
    Except MigrationError (Option V6Credential) := do
  let keypair ← migrationFailed "Deserializing keypair" (parse.signatureKeyPair stored.keypair)
  if !(← v5CredentialMatchesSignatureKey parse v5 stored keypair) then
    return none
  return some
    { sessionId := v5.id
      credential := v5.credential
      createdAt := v5.createdAt
      signatureScheme := stored.signatureScheme
      privateKey := keypair.isPrivate
      publicKey := stored.pk }

/-- The rows of the join for one credential, which is deleted with the first key pair that matches.
The cursor still stands on the deleted row: for every further key pair its columns are `NULL`, and
`row.get` fails. -/
def migrateCredential (v5 : V5Credential) :
    List StoredSignatureKeypair → Except MigrationError (Option V6Credential)
  | [] => return none
  | stored :: rest => do
    if stored.credentialId = v5.id then
      match ← migrateToNewCredential parse v5 stored with
      | some new =>
        if rest.any (·.credentialId = v5.id) then throw .invalidColumnType
        return some new
      | none => migrateCredential v5 rest
    else
      migrateCredential v5 rest

/-- `v16::meta_migration`: the credentials that stay, and those of the new table. -/
def metaV16 (credentials : List V5Credential) (keypairs : List StoredSignatureKeypair)
    (new : List V6Credential) :
    Except MigrationError (List V5Credential × List V6Credential) :=
  credentials.foldlM (fun (kept, new) v5 => do
    match ← migrateCredential parse v5 keypairs with
    | some v6 => return (kept, new ++ [v6])
    | none => return (kept ++ [v5], new)) ([], new)

end V16

/-! ### Ciphersuites -/

/-- The counters are `u32`: they do not overflow with fewer than 2^32 groups. -/
structure CiphersuiteOccurences where
  ed25519Aes : Nat
  ed25519Chacha : Nat
  ed448Aes : Nat
  ed448Chacha : Nat

/-- The numbers are those of the registered ciphersuites. -/
def CiphersuiteOccurences.of (occurences : CiphersuiteOccurences) : Nat → Option Nat
  | 1 => some occurences.ed25519Aes
  | 3 => some occurences.ed25519Chacha
  | 4 => some occurences.ed448Aes
  | 6 => some occurences.ed448Chacha
  | _ => none

def CiphersuiteOccurences.count (occurences : CiphersuiteOccurences) :
    Nat → CiphersuiteOccurences
  | 1 => { occurences with ed25519Aes := occurences.ed25519Aes + 1 }
  | 3 => { occurences with ed25519Chacha := occurences.ed25519Chacha + 1 }
  | 4 => { occurences with ed448Aes := occurences.ed448Aes + 1 }
  | 6 => { occurences with ed448Chacha := occurences.ed448Chacha + 1 }
  | _ => occurences

def countCiphersuiteOccurences (parse : Parsers) (groups : List Bytes) :
    Except MigrationError CiphersuiteOccurences :=
  groups.foldlM (fun occurences state =>
    match parse.groupCiphersuite state with
    | .ok ciphersuite => .ok (occurences.count ciphersuite)
    | .error e => .error (.deserialization e)) ⟨0, 0, 0, 0⟩

/-- The more used of two ciphersuites, the first if both are used equally, and none if neither is
used. -/
def mostUsed (first second : Nat) (occurencesFirst occurencesSecond : Nat) : Option Nat :=
  if occurencesFirst = 0 ∧ occurencesSecond = 0 then none
  else if occurencesSecond ≤ occurencesFirst then some first
  else some second

def makeCiphersuiteForSignatureScheme (parse : Parsers) (groups : List Bytes) :
    Except MigrationError (Nat → Option Nat) := do
  let occurences ← countCiphersuiteOccurences parse groups
  let ed25519 := mostUsed 1 3 occurences.ed25519Aes occurences.ed25519Chacha
  let ed448 := mostUsed 4 6 occurences.ed448Aes occurences.ed448Chacha
  return fun
    | 0x0403 => some 2
    | 0x0503 => some 7
    | 0x0603 => some 5
    | 0x0807 => ed25519
    | 0x0808 => ed448
    | _ => none

def makeLeastUsedCiphersuite (parse : Parsers) (groups : List Bytes) :
    Except MigrationError (Nat → Nat → Option Nat) := do
  let occurences ← countCiphersuiteOccurences parse groups
  return fun a b =>
    match occurences.of a, occurences.of b with
    | none, _ | _, none => none
    | some 0, some 0 => none
    | some usedA, some usedB =>
      if usedA < usedB then some a
      else if usedA = usedB then some (if a > b then a else b)
      else some b

/-- `v18::meta_migration`: the credentials of the new table. -/
def metaV18 (parse : Parsers) (groups : List Bytes) (credentials : List V6Credential)
    (new : List StoredCredential) : Except MigrationError (List StoredCredential) := do
  let ciphersuiteForSignatureScheme ← makeCiphersuiteForSignatureScheme parse groups
  return new ++ credentials.filterMap fun v6 =>
    (ciphersuiteForSignatureScheme v6.signatureScheme).map fun ciphersuite =>
      { sessionId := v6.sessionId
        credential := v6.credential
        createdAt := v6.createdAt
        ciphersuite
        publicKey := v6.publicKey
        privateKey := v6.privateKey }

def detectDuplicateCredentials : List StoredCredential → List (StoredCredential × StoredCredential)
  | [] => []
  | a :: rest => (rest.filter (a.publicKey = ·.publicKey)).map (a, ·) ++ detectDuplicateCredentials rest

/-- `v19::meta_migration`. -/
def metaV19 (parse : Parsers) (groups : List Bytes) (credentials : List StoredCredential) :
    Except MigrationError (List StoredCredential) := do
  let leastUsedCiphersuite ← makeLeastUsedCiphersuite parse groups
  return (detectDuplicateCredentials credentials).foldl (fun rows (a, b) =>
    match leastUsedCiphersuite a.ciphersuite b.ciphersuite with
    | none => rows.filter (·.publicKey ≠ a.publicKey)
    | some least => rows.filter fun row =>
      ¬ (row.publicKey = a.publicKey ∧ row.ciphersuite = least)) credentials

/-! ### Tables -/

/-- The tables of credentials and key pairs that there are, by the versions they belong to. -/
inductive CredentialTables where
  | untilV15 (credentials : List V5Credential) (keypairs : List StoredSignatureKeypair)
  | v16 (credentials : List V5Credential) (keypairs : List StoredSignatureKeypair)
      (new : List V6Credential)
  | v17 (credentials : List V6Credential)
  | v18 (credentials : List V6Credential) (new : List StoredCredential)
  | v19 (credentials : List StoredCredential)
  | fromV20 (rows : List (CredentialRow SqlValue))
  deriving DecidableEq

/-- The database: the credentials, the states in `mls_groups` and the other tables. -/
structure Tables (Rest : Type) where
  credentials : CredentialTables
  groups : List Bytes
  rest : Rest
  deriving DecidableEq

section Tables

variable {Rest : Type}

/-- `V16__…sql` to `V20__…sql` on the credentials; every other migration is `other`. -/
def sqlMigration (hashes : Hashes)
    (other : Nat → Tables Rest → Except MigrationError (Tables Rest)) (version : Nat)
    (tables : Tables Rest) : Except MigrationError (Tables Rest) :=
  match version, tables.credentials with
  | 16, .untilV15 credentials keypairs =>
    .ok { tables with credentials := .v16 credentials keypairs [] }
  | 17, .v16 _ _ new => .ok { tables with credentials := .v17 new }
  | 18, .v17 credentials => .ok { tables with credentials := .v18 credentials [] }
  | 19, .v18 _ new => .ok { tables with credentials := .v19 new }
  | 20, .v19 credentials =>
    match migrateV20 hashes credentials with
    | some rows => .ok { tables with credentials := .fromV20 rows }
    | none => .error .constraint
  | 16, _ | 17, _ | 18, _ | 19, _ | 20, _ => .error .noSuchTable
  | version, _ => other version tables

/-- `run_meta_migration`, where there is one. -/
def metaMigration (parse : Parsers) (version : Nat) :
    Option (Tables Rest → Except MigrationError (Tables Rest)) :=
  match version with
  | 16 => some fun tables =>
    match tables.credentials with
    | .v16 credentials keypairs new => do
      let (kept, new) ← metaV16 parse credentials keypairs new
      return { tables with credentials := .v16 kept keypairs new }
    | _ => .error .noSuchTable
  | 18 => some fun tables =>
    match tables.credentials with
    | .v18 credentials new => do
      return { tables with
        credentials := .v18 credentials (← metaV18 parse tables.groups credentials new) }
    | _ => .error .noSuchTable
  | 19 => some fun tables =>
    match tables.credentials with
    | .v19 credentials => do
      return { tables with credentials := .v19 (← metaV19 parse tables.groups credentials) }
    | _ => .error .noSuchTable
  | _ => none

end Tables

end CoreCrypto.Migrations
