import CoreCrypto.Proteus.Coherence

/-!
# Every Proteus operation keeps the client coherent

One triple for each operation of the open client: from a coherent state it leaves a coherent
state, whether it succeeds or fails.
-/

namespace CoreCrypto.Proteus

open Keystore Library

variable {S : Type} {lib : ProteusLibrary} {env : Env lib S}
  {err : ProteusError → Env lib S → Prop} {rt : Runtime S} {rows : List (Entity S)} {α : Type}

/-- The operation keeps the client and the open transaction in agreement. -/
def KeepsCoherent {α : Type} (rt : Runtime S) (rows : List (Entity S)) (op : Op lib S α) : Prop :=
  Triple (Coherent lib rt rows) op (fun _ => Coherent lib rt rows) (fun _ => Coherent lib rt rows)

theorem ofLibrary_keeps {inv : Env lib S → Prop} {outcome : Except Nat α}
    {post : α → Env lib S → Prop} (ok : ∀ a, outcome = .ok a → ∀ env, inv env → post a env)
    (failed : ∀ error, outcome = .error error → ∀ env, inv env → err (.proteus error) env) :
    Triple inv (ofLibrary outcome) post err := by
  cases outcome with
  | ok a => exact triple_pure (ok a rfl)
  | error error => exact triple_throw (failed error rfl)

theorem removePrekeys_live (rt : Runtime S) (ids : List Nat) (database : Database S)
    (rows : List (Entity S)) (tx : KeystoreTransaction S) (live : Live database rows tx) :
    ∃ tx', Live (removePrekeys database ids) rows tx' ∧ ForeignWrite rt tx tx' := by
  induction ids generalizing database tx with
  | nil => exact ⟨tx, live, foreignWrite_refl⟩
  | cons id rest ih =>
    obtain ⟨removed, ok, live'⟩ := live.remove (prekeyId id)
    obtain ⟨tx', last, foreign⟩ := ih removed _ live'
    refine ⟨tx', ?_, (foreignWrite_remove (prekeyId id) rfl).trans foreign⟩
    simpa only [removePrekeys, List.foldl_cons, ok] using last

theorem removePrekeys_coherent {rows : List (Entity S)} (ids : List Nat)
    (coherent : Coherent lib rt rows env) :
    Coherent lib rt rows { env with database := removePrekeys env.database ids } := by
  obtain ⟨tx, live, store, central⟩ := coherent
  obtain ⟨tx', live', foreign⟩ := removePrekeys_live rt ids _ rows tx live
  exact ⟨tx', live', foreign.storeCoherent store, foreign.same.centralCoherent central⟩

theorem removePrekeys_loaded {rows : List (Entity S)} (ids : List Nat)
    {conversation : ProteusConversationSession lib} (loaded : Loaded rt rows conversation env) :
    Loaded rt rows conversation { env with database := removePrekeys env.database ids } := by
  obtain ⟨tx, live, store, central, raw, row, decoded⟩ := loaded
  obtain ⟨tx', live', foreign⟩ := removePrekeys_live rt ids _ rows tx live
  exact ⟨tx', live', foreign.storeCoherent store, foreign.same.centralCoherent central, raw,
    foreign.same.sessions _ _ row, decoded⟩

theorem freeIdFrom_eq {database : Database S} {rows : List (Entity S)}
    {tx : KeystoreTransaction S} (live : Live database rows tx) (id left : Nat) :
    freeIdFrom rt database id left =
      .ok ((List.range' id left).find? fun id => (tx.read rt rows (prekeyId id)).isNone) := by
  induction left generalizing id with
  | zero => rfl
  | succ left ih =>
    rw [freeIdFrom, live.get rt _ (by rintro ⟨⟩), List.range'_succ, List.find?_cons]
    cases tx.read rt rows (prekeyId id) with
    | none => rfl
    | some entity => exact ih (id + 1)

/-- **Free prekey ids.**  `get_free_id` finds the least id from 1 on that reads as free through the
transaction, and never the one of the last resort. -/
theorem getFreeId_eq_some_iff (rt : Runtime S) (rows : List (Entity S))
    (tx : KeystoreTransaction S) (id : Nat) :
    getFreeId rt ⟨some rows, some tx, 0⟩ = .ok (some id) ↔
      (1 ≤ id ∧ id < lastResortPrekeyId) ∧ tx.read rt rows (prekeyId id) = none ∧
        ∀ other, 1 ≤ other → other < id → tx.read rt rows (prekeyId other) ≠ none := by
  -- the loop searches the ids before the limit from below
  rw [getFreeId, freeIdFrom_eq rfl, Except.ok.injEq, List.find?_range'_eq_some]
  simp [lastResortPrekeyId, and_left_comm, Option.isSome_iff_ne_none]

/-- Inserts a session that may differ from the stored one and saves it. -/
theorem insert_save_spec (laws : ProteusLaws lib)
    (conversation : ProteusConversationSession lib) :
    Triple (fun env => Coherent lib rt rows env ∧
        lib.localIdentity conversation.session = env.central.proteusIdentity)
      (do insertSession conversation; sessionSaveByRef rt conversation)
      (fun _ => Coherent lib rt rows) err := by
  apply triple_bind (fun _ => Unsaved rt rows conversation)
  · exact insertSession_unsaved conversation
  · intro _
    exact sessionSaveByRef_unsaved laws conversation

theorem sessionFromPrekey_keeps (laws : ProteusLaws lib) (id key : Bytes)
    (seed : lib.Seed) : KeepsCoherent rt rows (sessionFromPrekey rt id key seed) := by
  apply triple_get_bind
  intro env _
  apply triple_bind (fun session env => Coherent lib rt rows env ∧
    lib.localIdentity session = env.central.proteusIdentity)
  · apply ofLibrary_keeps
    · rintro session ok _ ⟨rfl, coherent⟩
      exact ⟨coherent, laws.fromPrekey _ key seed session ok⟩
    · rintro _ _ _ ⟨rfl, coherent⟩
      exact coherent
  · intro session
    exact insert_save_spec laws ⟨id, session⟩

theorem sessionFromMessage_keeps (laws : ProteusLaws lib) (id envelope : Bytes)
    (seed : lib.Seed) : KeepsCoherent rt rows (sessionFromMessage rt id envelope seed) := by
  apply triple_get_bind
  intro env before
  rcases called : lib.initFromMessage env.central.proteusIdentity (prekey rt env.database) envelope
    seed with ⟨outcome, removed⟩
  apply triple_bind (fun _ env' => Coherent lib rt rows env' ∧
    env'.central.proteusIdentity = env.central.proteusIdentity)
  · rintro _ ⟨rfl, coherent⟩
    exact ⟨removePrekeys_coherent removed coherent, rfl⟩
  · intro _
    apply triple_bind (fun result env => Coherent lib rt rows env ∧
      lib.localIdentity result.1 = env.central.proteusIdentity)
    · apply ofLibrary_keeps
      · rintro ⟨session, payload⟩ ok env' ⟨coherent, same⟩
        refine ⟨coherent, ?_⟩
        rw [same]
        apply laws.fromMessage _ (prekey rt env.database) envelope seed session payload
        rw [called]
        exact ok
      · rintro _ _ _ ⟨coherent, -⟩
        exact coherent
    · rintro ⟨session, payload⟩
      apply triple_bind (fun _ => Unsaved rt rows ⟨id, session⟩) (insertSession_unsaved ⟨id, session⟩)
      intro _
      apply triple_bind (fun _ => Coherent lib rt rows) (sessionSaveByRef_unsaved laws ⟨id, session⟩)
      intro _
      exact triple_pure (fun _ coherent => coherent)

theorem sessionSave_keeps (laws : ProteusLaws lib) (id : Bytes) :
    KeepsCoherent rt rows (sessionSave rt id : Op lib S Unit) := by
  apply triple_bind (Fetched rt rows id) (getOrFetch_spec id)
  rintro (_ | conversation)
  · exact triple_pure (fun _ coherent => coherent)
  · exact triple_of_pre (sessionSaveByRef_loaded laws conversation)
      fun _ fetched => fetched.2

theorem sessionExists_keeps (id : Bytes) :
    KeepsCoherent rt rows (sessionExists rt id : Op lib S Bool) := by
  apply triple_bind _ (triple_attempt (getOrFetch_spec id))
  rintro (_ | _ | conversation)
  · exact triple_pure (fun _ coherent => coherent)
  · exact triple_pure (fun _ coherent => coherent)
  · exact triple_pure (fun _ fetched => fetched.2.coherent)

/-- A session that moved on is put back before it is saved. -/
theorem insertSession_changed (laws : ProteusLaws lib)
    (conversation : ProteusConversationSession lib) {session : lib.Session}
    (own : lib.localIdentity session = lib.localIdentity conversation.session) :
    Triple (Loaded rt rows conversation) (insertSession { conversation with session } : Op lib S Unit)
      (fun _ => Unsaved rt rows { conversation with session }) (fun _ => Coherent lib rt rows) :=
  triple_of_pre (insertSession_unsaved { conversation with session })
    fun _ loaded => ⟨loaded.coherent, own.trans (loaded.localIdentity laws)⟩

theorem encryptSession_spec (laws : ProteusLaws lib)
    (conversation : ProteusConversationSession lib) (plaintext : Bytes) (seed : lib.Seed) :
    Triple (Loaded rt rows conversation) (encryptSession rt conversation plaintext seed)
      (fun _ => Coherent lib rt rows) (fun _ => Coherent lib rt rows) := by
  have own := laws.encrypted conversation.session plaintext seed
  have unchanged := laws.encryptFails conversation.session plaintext seed
  unfold encryptSession
  rcases called : lib.encrypt conversation.session plaintext seed with
    ⟨error | envelope, session⟩ <;> rw [called] at own unchanged
  · obtain rfl : session = conversation.session := unchanged error rfl
    apply triple_bind (fun _ => Loaded rt rows conversation) (insertSession_loaded conversation)
    intro _
    exact triple_throw (fun _ loaded => loaded.coherent)
  · obtain ⟨bytes, encoded⟩ := laws.envelopeSerialises envelope
    apply triple_bind _ (insertSession_changed laws conversation own)
    intro _
    simp only [ofLibrary, pure_bind, encoded]
    apply triple_bind (fun _ => Coherent lib rt rows)
      (sessionSaveByRef_unsaved laws { conversation with session })
    intro _
    exact triple_pure (fun _ coherent => coherent)

theorem encrypt_keeps (laws : ProteusLaws lib) (id plaintext : Bytes)
    (seed : lib.Seed) : KeepsCoherent rt rows (encrypt rt id plaintext seed) := by
  apply triple_bind (Fetched rt rows id) (getOrFetch_spec id)
  rintro (_ | conversation)
  · exact triple_throw (fun _ coherent => coherent)
  · exact triple_of_pre (encryptSession_spec laws conversation plaintext seed)
      fun _ fetched => fetched.2

theorem encryptBatched_keeps (laws : ProteusLaws lib) (plaintext : Bytes)
    (sessions : List (Bytes × lib.Seed)) (acc : AList (fun _ : Bytes => Bytes)) :
    KeepsCoherent rt rows (encryptBatched rt plaintext acc sessions) := by
  induction sessions generalizing acc with
  | nil => exact triple_pure (fun _ coherent => coherent)
  | cons first rest ih =>
    apply triple_bind (Fetched rt rows first.1) (getOrFetch_spec first.1)
    rintro (_ | conversation)
    · exact ih acc
    · apply triple_bind (fun _ => Coherent lib rt rows)
      · exact triple_of_pre (encryptSession_spec laws conversation plaintext first.2)
          fun _ fetched => fetched.2
      · intro ciphertext
        exact ih _

theorem decryptSession_spec (laws : ProteusLaws lib)
    (conversation : ProteusConversationSession lib) (ciphertext : Bytes) (seed : lib.Seed) :
    Triple (Loaded rt rows conversation) (decryptSession rt conversation ciphertext seed)
      (fun _ => Coherent lib rt rows) (fun _ => Coherent lib rt rows) := by
  apply triple_get_bind
  intro env _
  have own := laws.decrypted conversation.session (prekey rt env.database) ciphertext seed
  have unchanged := laws.decryptFails conversation.session (prekey rt env.database) ciphertext seed
  have prekeysRemoved (removed : List Nat) :
      Triple (fun env' => env' = env ∧ Loaded rt rows conversation env')
        (set { env with database := removePrekeys env.database removed } : Op lib S PUnit)
        (fun _ => Loaded rt rows conversation) (fun _ => Coherent lib rt rows) := by
    rintro _ ⟨rfl, loaded⟩
    exact removePrekeys_loaded removed loaded
  rcases called : lib.decrypt conversation.session (prekey rt env.database) ciphertext seed with
    ⟨error | plaintext, session, removed⟩ <;> rw [called] at own unchanged
  · obtain rfl : session = conversation.session := unchanged error rfl
    apply triple_bind _ (prekeysRemoved removed)
    intro _
    apply triple_bind (fun _ => Loaded rt rows conversation) (insertSession_loaded conversation)
    intro _
    exact triple_throw (fun _ loaded => loaded.coherent)
  · apply triple_bind _ (prekeysRemoved removed)
    intro _
    apply triple_bind _ (insertSession_changed laws conversation own)
    intro _
    simp only [ofLibrary, pure_bind]
    apply triple_bind (fun _ => Coherent lib rt rows)
      (sessionSaveByRef_unsaved laws { conversation with session })
    intro _
    exact triple_pure (fun _ coherent => coherent)

theorem decrypt_keeps (laws : ProteusLaws lib) (id ciphertext : Bytes)
    (seed : lib.Seed) : KeepsCoherent rt rows (decrypt rt id ciphertext seed) := by
  apply triple_bind (Fetched rt rows id) (getOrFetch_spec id)
  rintro (_ | conversation)
  · exact triple_throw (fun _ coherent => coherent)
  · exact triple_of_pre (decryptSession_spec laws conversation ciphertext seed)
      fun _ fetched => fetched.2

theorem sessionDelete_keeps (id : Bytes) :
    KeepsCoherent rt rows (sessionDelete id : Op lib S Unit) := by
  apply triple_get_bind
  rintro env ⟨tx, live, store, central⟩
  obtain ⟨removed, ok, live'⟩ := live.remove (sessionId id)
  have identity : (tx.removeByEntityId (sessionId id)).read rt rows identityId =
      tx.read rt rows identityId :=
    tx.read_remove_other rt rows (by intro same; cases same)
  have other (id' : Bytes) (differs : id' ≠ id) :
      (tx.removeByEntityId (sessionId id)).read rt rows (sessionId id') =
        tx.read rt rows (sessionId id') :=
    tx.read_remove_other rt rows (fun same => differs (sessionId_injective same))
  have sameIdentity (i : lib.Identity) :
      PersistedIdentity lib rt rows (tx.removeByEntityId (sessionId id)) i ↔
        PersistedIdentity lib rt rows tx i := by
    simp only [PersistedIdentity, identity]
  have store' : StoreCoherent lib rt rows (tx.removeByEntityId (sessionId id)) := by
    refine ⟨tx.wellKeyed_removeByEntityId rt _ store.keyed, ?_, ?_, ?_, ?_⟩
    · intro d member
      rcases List.mem_insert_iff.mp member with rfl | older
      · intro typ
        cases typ
      · exact store.identityKept d older
    · have same : (tx.removeByEntityId (sessionId id)).cache.lookup identityId =
          tx.cache.lookup identityId := AList.lookup_erase_ne (by intro same; cases same)
      rw [same]
      exact store.identityOnce
    · rw [identity]
      exact store.identity
    · intro id' entity found
      by_cases same : id' = id
      · subst same
        rw [show (tx.removeByEntityId (sessionId id')).cache.lookup (sessionId id') = none from
          AList.lookup_erase _ _] at found
        cases found
      · rw [show (tx.removeByEntityId (sessionId id)).cache.lookup (sessionId id') = _ from
          AList.lookup_erase_ne (fun isSame => same (sessionId_injective isSame))] at found
        obtain ⟨i, session, raw, shape, identified, decoded⟩ := store.sessions id' entity found
        exact ⟨i, session, raw, shape, (sameIdentity i).mpr identified, decoded⟩
  simp only [ok]
  apply triple_bind (fun _ env' => env' = { env with database := removed })
  · rintro _ ⟨rfl, -⟩
    rfl
  · intro _
    apply triple_modify
    rintro _ rfl
    refine ⟨_, live', store', (sameIdentity _).mpr central.identity, ?_⟩
    intro id' conversation cached
    by_cases same : id' = id
    · subst same
      rw [LruMap.peek_remove_self] at cached
      cases cached
    · rw [LruMap.peek_remove_ne _ same] at cached
      obtain ⟨rfl, raw, row, decoded⟩ := central.sessions id' conversation cached
      refine ⟨rfl, raw, ?_, decoded⟩
      rw [other _ same]
      exact row

/-! ### Opening the client -/

section Init

variable (lib rt rows) (tx : KeystoreTransaction S)

/-- The store is sound, and a client that agreed with `tx` agrees with it. -/
def Extends (database : Database S) : Prop :=
  ∃ tx', Live database rows tx' ∧ StoreCoherent lib rt rows tx' ∧
    ∀ central, CentralCoherent lib rt rows tx central → CentralCoherent lib rt rows tx' central

/-- And it holds this identity. -/
def ExtendsWith (identity : lib.Identity) (database : Database S) : Prop :=
  ∃ tx', Live database rows tx' ∧ StoreCoherent lib rt rows tx' ∧
    PersistedIdentity lib rt rows tx' identity ∧
    ∀ central, CentralCoherent lib rt rows tx central → CentralCoherent lib rt rows tx' central

end Init

variable {tx : KeystoreTransaction S}

theorem ExtendsWith.extends {identity : lib.Identity} {database : Database S}
    (extended : ExtendsWith lib rt rows tx identity database) :
    Extends lib rt rows tx database := by
  obtain ⟨tx', live, store, -, kept⟩ := extended
  exact ⟨tx', live, store, kept⟩

theorem not_read_identity (store : StoreCoherent lib rt rows tx)
    (absent : tx.read rt rows identityId = none) :
    tx.cache.lookup identityId = none ∧ storedRow rt rows identityId = none := by
  have kept : identityId ∉ tx.deleted := fun member => store.identityKept identityId member rfl
  rw [KeystoreTransaction.read, KeystoreTransaction.getByEntityId, if_neg kept] at absent
  cases cached : tx.cache.lookup identityId with
  | none =>
    rw [cached] at absent
    exact ⟨rfl, absent⟩
  | some entity =>
    rw [cached] at absent
    cases absent

/-- A new identity is only created where no session was saved. -/
theorem storeCoherent_saveIdentity (laws : ProteusLaws lib) (identity : lib.Identity)
    (store : StoreCoherent lib rt rows tx) (absent : tx.read rt rows identityId = none) :
    StoreCoherent lib rt rows
      (tx.save rt (.proteusIdentity (lib.toRawKeyPair identity).1 (lib.toRawKeyPair identity).2)) := by
  refine ⟨tx.wellKeyed_save rt _ store.keyed, ?_, .inr (not_read_identity store absent).2, ?_, ?_⟩
  · intro d member
    exact store.identityKept d (List.mem_of_mem_filter member)
  · intro entity found
    rw [show identityId = rt.fromEntity (.proteusIdentity (lib.toRawKeyPair identity).1
      (lib.toRawKeyPair identity).2) from rfl, tx.read_save_self] at found
    cases found
    exact ⟨_, _, identity, rfl, laws.rawKeyPair identity⟩
  · intro id entity found
    rw [show (tx.save rt _).cache.lookup (sessionId id) = tx.cache.lookup (sessionId id) from
      AList.lookup_insert_ne (by intro same; cases same)] at found
    obtain ⟨_, _, _, _, ⟨sk, pk, stored, -⟩, -⟩ := store.sessions id entity found
    rw [absent] at stored
    cases stored

theorem saveEntity_run (rt : Runtime S) {database : Database S} (live : Live database rows tx) (entity : Entity S) :
    ∃ saved, saveEntity rt entity database = .ok () saved ∧ Live saved rows (tx.save rt entity) := by
  obtain ⟨saved, ok, live'⟩ := live.save rt entity
  refine ⟨saved, ?_, live'⟩
  simp only [saveEntity, bind, EStateM.bind, get, getThe, MonadStateOf.get, EStateM.get, ok, set,
    EStateM.set, ofKeystore, pure, EStateM.pure]

theorem loadOrCreateIdentity_spec (laws : ProteusLaws lib) (store : StoreCoherent lib rt rows tx)
    (seed : lib.Seed) :
    Triple (fun database => Live database rows tx) (loadOrCreateIdentity lib rt seed)
      (ExtendsWith lib rt rows tx) (fun _ => Extends lib rt rows tx) := by
  apply triple_get_bind
  rintro database live
  simp only [live.get rt identityId (by rintro ⟨⟩)]
  cases found : tx.read rt rows identityId with
  | some entity =>
    obtain ⟨sk, pk, identity, rfl, loaded⟩ := store.identity entity found
    rintro _ ⟨rfl, -⟩
    simp only [ofKeystore, pure_bind, loaded, ofLibrary]
    exact ⟨tx, live, store, ⟨sk, pk, found, loaded⟩, fun _ coherent => coherent⟩
  | none =>
    rintro database ⟨rfl, -⟩
    obtain ⟨saved, ok, live'⟩ := saveEntity_run rt live (.proteusIdentity
      (lib.toRawKeyPair (lib.newIdentity seed)).1 (lib.toRawKeyPair (lib.newIdentity seed)).2)
    have run : createIdentity lib rt seed database = .ok (lib.newIdentity seed) saved := by
      simp only [createIdentity, bind, EStateM.bind, ok, pure, EStateM.pure]
    simp only [ofKeystore, pure_bind, run]
    refine ⟨_, live', storeCoherent_saveIdentity laws _ store found, ⟨_, _, ?_, laws.rawKeyPair _⟩, ?_⟩
    · exact tx.read_save_self rt rows _
    · -- no client agrees with a store without an identity
      rintro central ⟨⟨sk, pk, stored, -⟩, -⟩
      rw [found] at stored
      cases stored

theorem saveEntity_foreign (identity : lib.Identity) {entity : Entity S}
    (other : isProteus entity.typ = false) {err : ProteusError → Database S → Prop} :
    Triple (ExtendsWith lib rt rows tx identity) (saveEntity rt entity)
      (fun _ => ExtendsWith lib rt rows tx identity) err := by
  rintro database ⟨tx', live, store, persisted, kept⟩
  obtain ⟨saved, run, live'⟩ := saveEntity_run rt live entity
  have foreign : ForeignWrite rt tx' (tx'.save rt entity) := foreignWrite_save other
  rw [run]
  exact ⟨_, live', foreign.storeCoherent store, (foreign.same.persistedIdentity identity).mpr persisted,
    fun central coherent => foreign.same.centralCoherent (kept central coherent)⟩

theorem ofLibrary_extends (identity : lib.Identity) (outcome : Except Nat α) :
    Triple (ExtendsWith lib rt rows tx identity) (ofLibrary outcome)
      (fun _ => ExtendsWith lib rt rows tx identity) (fun _ => Extends lib rt rows tx) := by
  cases outcome with
  | ok a => exact triple_pure (fun _ extended => extended)
  | error error => exact triple_throw (fun _ extended => extended.extends)

theorem lastResortPrekey_spec (central : ProteusCentral lib) (seed : lib.Seed)
    (identity : lib.Identity) :
    Triple (ExtendsWith lib rt rows tx identity) (lastResortPrekey rt central seed)
      (fun _ => ExtendsWith lib rt rows tx identity) (fun _ => Extends lib rt rows tx) := by
  apply triple_get_bind
  rintro database ⟨tx', live, -⟩
  obtain ⟨stored, found⟩ : ∃ stored, prekey rt database lastResortPrekeyId = .ok stored := by
    simp only [prekey, live.get rt (prekeyId lastResortPrekeyId) (by rintro ⟨⟩)]
    cases tx'.read rt rows (prekeyId lastResortPrekeyId) with
    | none => exact ⟨none, rfl⟩
    | some entity => cases entity <;> exact ⟨_, rfl⟩
  rw [found]
  simp only [ofKeystore, pure_bind]
  have start : ∀ database', database' = database ∧ ExtendsWith lib rt rows tx identity database' →
      ExtendsWith lib rt rows tx identity database' := fun _ both => both.2
  cases stored with
  | some lastResort =>
    apply triple_bind (fun _ => ExtendsWith lib rt rows tx identity)
    · exact triple_of_pre (ofLibrary_extends identity _) start
    · intro _
      exact ofLibrary_extends identity _
  | none =>
    apply triple_bind (fun _ => ExtendsWith lib rt rows tx identity)
    · exact triple_of_pre (ofLibrary_extends identity _) start
    · intro lastResort
      apply triple_bind (fun _ => ExtendsWith lib rt rows tx identity)
      · exact saveEntity_foreign identity rfl
      · intro _
        exact ofLibrary_extends identity _

/-- The new client agrees with the store, and an older one still does. -/
theorem openClient_spec (laws : ProteusLaws lib) (store : StoreCoherent lib rt rows tx)
    (seed lastResortSeed : lib.Seed) :
    Triple (fun database => Live database rows tx) (openClient lib rt seed lastResortSeed)
      (fun central database => ∃ tx', Live database rows tx' ∧ StoreCoherent lib rt rows tx' ∧
        CentralCoherent lib rt rows tx' central)
      (fun _ => Extends lib rt rows tx) := by
  apply triple_bind (fun central database => central.proteusSessions = .empty ∧
    ExtendsWith lib rt rows tx central.proteusIdentity database)
  · apply triple_bind (ExtendsWith lib rt rows tx) (loadOrCreateIdentity_spec laws store seed)
    intro identity
    exact triple_pure (fun _ extended => ⟨rfl, extended⟩)
  · intro central
    by_cases fresh : central.proteusSessions = .empty
    · apply triple_bind (fun _ => ExtendsWith lib rt rows tx central.proteusIdentity)
      · exact triple_of_pre (lastResortPrekey_spec central lastResortSeed central.proteusIdentity)
          fun _ both => both.2
      · intro _
        apply triple_pure
        rintro database ⟨tx', live, store', persisted, -⟩
        refine ⟨tx', live, store', persisted, ?_⟩
        intro id conversation cached
        rw [fresh, LruMap.peek_empty] at cached
        cases cached
    · rintro database ⟨empty, -⟩
      exact absurd empty fresh

end CoreCrypto.Proteus
