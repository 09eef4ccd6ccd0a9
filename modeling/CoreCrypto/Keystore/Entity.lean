import Mathlib.Data.List.AList
import CoreCrypto.Basic

/-!
# Entities of the keystore

The dynamically dispatched `Entity`, `EntityType` and `EntityId` of the keystore crate.
Collections whose content some modelled function reads have their own constructor; the
others are told apart by `PlainCollection` and carry their content as bytes.  The
serialised state of an MLS group is a value of the parameter type `S`.
-/

namespace CoreCrypto.Keystore

/-- Collections whose entities are only saved, deleted and read back as a whole. -/
inductive PlainCollection where
  | hpkePrivateKey
  | keyPackage
  | pskBundle
  | encryptionKeyPair
  | epochEncryptionKeyPair
  | storedE2eiEnrollment
  | e2eiRefreshToken
  | e2eiAcmeCA
  | e2eiIntermediateCert
  | e2eiCrl
  | proteusPrekey
  | consumerData
  deriving DecidableEq, Repr

inductive EntityType where
  | storedBufferedCommit
  | persistedMlsGroup
  | persistedMlsPendingGroup
  | mlsPendingMessage
  | proteusIdentity
  | proteusSession
  | storedCredential
  | plain (collection : PlainCollection)
  deriving DecidableEq, Repr

/-- `EntityId { typ, id }`: a collection and the bytes of a primary key. -/
structure EntityId where
  typ : EntityType
  id : Bytes
  deriving DecidableEq, Repr

structure StoredCredential where
  sessionId : Bytes
  credential : Bytes
  createdAt : Nat
  ciphersuite : Nat
  publicKey : Bytes
  privateKey : Bytes
  deriving DecidableEq, Repr

inductive Entity (S : Type) where
  | storedBufferedCommit (conversationId commitData : Bytes)
  | persistedMlsGroup (id : Bytes) (state : S) (parentId : Option Bytes)
  | persistedMlsPendingGroup (id : Bytes) (state : S) (parentId : Option Bytes)
      (customConfiguration : Bytes)
  | mlsPendingMessage (foreignId message : Bytes)
  | proteusIdentity (sk pk : Bytes)
  | proteusSession (id session : Bytes)
  | storedCredential (credential : StoredCredential)
  | plain (collection : PlainCollection) (key content : Bytes)
  deriving DecidableEq, Repr

/-- How `execute_save` writes a row: `INSERT OR REPLACE` into a table with a unique key, the same
where the key is `TEXT` (reads and deletions bind the bytes of a key, and a `BLOB` equals no
`TEXT`), an `INSERT` into a table with a unique key, or either into a table that has none. -/
inductive SaveMode where
  | upsert
  | upsertText
  | insert
  | append
  deriving DecidableEq, Repr

/-- The digests that primary keys are made of: `xxhash3_128` and `Sha256Hash::hash_from`. -/
structure Hashes where
  xxh3 : Bytes → Bytes
  sha256 : Bytes → Bytes

/-- Digests of 16 and 32 bytes to evaluate the model with: the input backwards, padded and cut. -/
def sampleHashes : Hashes :=
  let digest (size : Nat) (bytes : Bytes) := (bytes.reverse ++ List.replicate size 0).take size
  ⟨digest 16, digest 32⟩

namespace Entity

variable {S : Type}

def typ : Entity S → EntityType
  | storedBufferedCommit _ _ => .storedBufferedCommit
  | persistedMlsGroup _ _ _ => .persistedMlsGroup
  | persistedMlsPendingGroup _ _ _ _ => .persistedMlsPendingGroup
  | mlsPendingMessage _ _ => .mlsPendingMessage
  | proteusIdentity _ _ => .proteusIdentity
  | proteusSession _ _ => .proteusSession
  | storedCredential _ => .storedCredential
  | plain collection _ _ => .plain collection

/-- `primary_key().bytes()`; a pending message has none stored and hashes its two fields. -/
def primaryKey (hashes : Hashes) : Entity S → Bytes
  | storedBufferedCommit conversationId _ => conversationId
  | persistedMlsGroup id _ _ => id
  | persistedMlsPendingGroup id _ _ _ => id
  | mlsPendingMessage foreignId message => hashes.xxh3 (foreignId ++ message)
  | proteusIdentity _ _ => []
  | proteusSession id _ => id
  | storedCredential credential => hashes.sha256 credential.publicKey
  | plain _ key _ => key

/-- `foreign_id` of a pending message. -/
def foreignId? : Entity S → Option Bytes
  | mlsPendingMessage foreignId _ => some foreignId
  | _ => none

/-- `parent_id` of a persisted group. -/
def parentId? : Entity S → Option Bytes
  | persistedMlsGroup _ _ parentId => parentId
  | _ => none

end Entity

def EntityType.saveMode : EntityType → SaveMode
  | storedBufferedCommit => .upsert
  | persistedMlsGroup => .upsert
  | persistedMlsPendingGroup => .append
  | mlsPendingMessage => .append
  | proteusIdentity => .append
  | proteusSession => .upsertText
  | storedCredential => .insert
  | plain .proteusPrekey => .insert
  | plain .storedE2eiEnrollment => .insert
  | plain .e2eiIntermediateCert => .upsertText
  | plain .e2eiCrl => .upsertText
  | plain _ => .upsert

/-- What the store takes from its dependencies: the digests, and the order in which a
`HashMap` yields its values, of which only `perm` is known. -/
structure Runtime (S : Type) extends Hashes where
  values : AList (fun _ : EntityId => Entity S) → List (Entity S)
  perm : ∀ table, (values table).Perm (table.entries.map Sigma.snd)

variable {S : Type}

/-- `EntityId::from_entity`. -/
def Runtime.fromEntity (rt : Runtime S) (entity : Entity S) : EntityId :=
  ⟨entity.typ, entity.primaryKey rt.toHashes⟩

/-- The runtime with one digest whose maps yield their newest entry first. -/
def Runtime.newestFirst (hash : Bytes → Bytes) : Runtime S :=
  ⟨⟨hash, hash⟩, fun table => table.entries.map Sigma.snd, fun _ => .refl _⟩

@[simp] theorem Runtime.fromEntity_typ (rt : Runtime S) (entity : Entity S) :
    (rt.fromEntity entity).typ = entity.typ := rfl

end CoreCrypto.Keystore
