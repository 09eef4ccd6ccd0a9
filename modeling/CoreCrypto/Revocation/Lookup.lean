import CoreCrypto.Revocation.CrlStore

/-!
# What a revocation lookup returns

`accepted` is what indexing keeps of a list, and `expectedCrls` reads a lookup off it.  The store
answers through positions in `crl_info`, applied to `crls`: the two agree exactly when nothing was
skipped in front of the lists looked up.
-/
namespace CoreCrypto.Revocation

/-- An accepted list with its info. -/
abbrev Entry := CertificateList × CrlInfo

/-- The info of a list that parses and is valid at the time of interest. -/
def usable (codec : Codec) (toi : Nat) (crl : CertificateList) : Option CrlInfo :=
  match CrlInfo.tryFrom codec crl with
  | .ok info => if checkCrlValidAtToi toi crl then some info else none
  | .error _ => none

/-- The lists indexing keeps, given the infos already seen. A list whose info was
seen before is a duplicate and is skipped. -/
def accepted (codec : Codec) (toi : Nat) : List CrlInfo → List CertificateList → List Entry
  | _, [] => []
  | seen, crl :: rest =>
    match usable codec toi crl with
    | some info =>
      if info ∈ seen then accepted codec toi seen rest
      else (crl, info) :: accepted codec toi (seen ++ [info]) rest
    | none => accepted codec toi seen rest

/-- The three kinds of lookup key. -/
inductive Key where
  | dp (name : Bytes)
  | skid (kid : Bytes)
  | issuer (name : String)
deriving DecidableEq, Repr

def filedUnder (codec : Codec) : Key → Entry → Bool
  | .dp name, e => getDpFromCrl codec e.1 = some name
  | .skid kid, e => getDpFromCrl codec e.1 = none ∧ e.2.skid = some kid
  | .issuer name, e =>
    getDpFromCrl codec e.1 = none ∧ e.2.typeInfo.scope = .complete ∧
      codec.nameToString e.1.issuer = name

/-- The keys of a certificate in lookup order. -/
def keysOf (codec : Codec) (cert : PDVCertificate) : List Key :=
  ((getDpsFromCert codec cert).getD []).map .dp ++
    ((cert.authorityKeyIdentifier.bind (·.keyIdentifier)).toList.map .skid ++
      [.issuer (codec.nameToString cert.issuer)])

/-- The first key of the certificate under which anything is filed. -/
def selectedKey (codec : Codec) (entries : List Entry) (cert : PDVCertificate) : Option Key :=
  (keysOf codec cert).find? fun key => entries.any (filedUnder codec key)

def encodeAll (codec : Codec) (crls : List CertificateList) : Except CertvalError (List Bytes) :=
  crls.mapM fun crl =>
    match codec.encodeCrl crl with
    | some der => .ok der
    | none => .error .asn1Error

/-- The lookup the store is meant to answer. -/
def expectedCrls (codec : Codec) (toi : Nat) (crls : List CertificateList)
    (cert : PDVCertificate) : Except CertvalError (List Bytes) :=
  match selectedKey codec (accepted codec toi [] crls) cert with
  | some key =>
    encodeAll codec (((accepted codec toi [] crls).filter (filedUnder codec key)).map Prod.fst)
  | none => .error .notFound

/-- Nothing was skipped before a list the certificate selects. -/
def NothingSkippedBefore (codec : Codec) (toi : Nat) (crls : List CertificateList)
    (cert : PDVCertificate) : Prop :=
  ∀ key, selectedKey codec (accepted codec toi [] crls) cert = some key →
    ∀ i e, (accepted codec toi [] crls)[i]? = some e → filedUnder codec key e = true →
      crls.take (i + 1) = ((accepted codec toi [] crls).take (i + 1)).map Prod.fst

/-! ### The accepted lists -/

section Accepted

variable (codec : Codec) (toi : Nat) (seen : List CrlInfo)

theorem accepted_length_le (crls : List CertificateList) :
    (accepted codec toi seen crls).length ≤ crls.length := by
  induction crls generalizing seen with
  | nil => simp [accepted]
  | cons crl rest ih =>
    simp only [accepted]
    split
    next info _ =>
      split
      · exact Nat.le_succ_of_le (ih seen)
      · exact Nat.succ_le_succ (ih (seen ++ [info]))
    · exact Nat.le_succ_of_le (ih seen)

theorem mem_accepted (crls : List CertificateList) (e : Entry)
    (member : e ∈ accepted codec toi seen crls) :
    e.1 ∈ crls ∧ usable codec toi e.1 = some e.2 ∧ e.2 ∉ seen := by
  induction crls generalizing seen with
  | nil => simp [accepted] at member
  | cons crl rest ih =>
    simp only [accepted] at member
    split at member
    next info found =>
      split at member
      · obtain ⟨listed, parsed, fresh⟩ := ih seen member
        exact ⟨List.mem_cons_of_mem _ listed, parsed, fresh⟩
      next unseen =>
        rcases List.mem_cons.mp member with rfl | later
        · exact ⟨List.mem_cons_self, found, unseen⟩
        · obtain ⟨listed, parsed, fresh⟩ := ih (seen ++ [info]) later
          refine ⟨List.mem_cons_of_mem _ listed, parsed, ?_⟩
          intro old
          exact fresh (List.mem_append_left _ old)
    · obtain ⟨listed, parsed, fresh⟩ := ih seen member
      exact ⟨List.mem_cons_of_mem _ listed, parsed, fresh⟩

theorem accepted_infos_nodup (crls : List CertificateList) :
    ((accepted codec toi seen crls).map Prod.snd).Nodup := by
  induction crls generalizing seen with
  | nil => simp [accepted]
  | cons crl rest ih =>
    simp only [accepted]
    split
    next info _ =>
      split
      · exact ih seen
      · rw [List.map_cons, List.nodup_cons]
        refine ⟨?_, ih _⟩
        intro again
        obtain ⟨e, listed, same⟩ := List.mem_map.mp again
        have fresh := (mem_accepted codec toi _ rest e listed).2.2
        exact fresh (by simp [same])
    · exact ih seen

/-- A usable list at position `j` is either a duplicate of an info seen before or
has its info accepted at position `j` or earlier. -/
theorem info_accepted_by_position (crls : List CertificateList) (j : Nat) (crl : CertificateList)
    (info : CrlInfo) (here : crls[j]? = some crl) (parsed : usable codec toi crl = some info) :
    info ∈ seen ∨
      ∃ k ≤ j, ((accepted codec toi seen crls).map Prod.snd)[k]? = some info := by
  induction crls generalizing seen j with
  | nil => simp at here
  | cons first rest ih =>
    simp only [accepted]
    cases j with
    | zero =>
      simp only [List.getElem?_cons_zero, Option.some.injEq] at here
      subst here
      by_cases old : info ∈ seen
      · exact Or.inl old
      · right
        exact ⟨0, Nat.le_refl 0, by simp [parsed, old]⟩
    | succ j =>
      simp only [List.getElem?_cons_succ] at here
      split
      next other _ =>
        split
        · rcases ih seen j here with old | ⟨k, bound, found⟩
          · exact Or.inl old
          · exact Or.inr ⟨k, Nat.le_succ_of_le bound, found⟩
        · rcases ih (seen ++ [other]) j here with old | ⟨k, bound, found⟩
          · rcases List.mem_append.mp old with older | this
            · exact Or.inl older
            · right
              simp only [List.mem_singleton] at this
              exact ⟨0, Nat.zero_le _, by simp [this]⟩
          · exact Or.inr ⟨k + 1, Nat.succ_le_succ bound, by simpa using found⟩
      · rcases ih seen j here with old | ⟨k, bound, found⟩
        · exact Or.inl old
        · exact Or.inr ⟨k, Nat.le_succ_of_le bound, found⟩

/-- If the list at position `i` is the one accepted as number `i`, then every
list up to there was accepted: a skip moves all later positions, and the accepted
infos are distinct. -/
theorem take_eq_of_same_position (crls : List CertificateList) (i : Nat) (e : Entry)
    (kept : (accepted codec toi seen crls)[i]? = some e) (here : crls[i]? = some e.1) :
    crls.take (i + 1) = ((accepted codec toi seen crls).take (i + 1)).map Prod.fst := by
  induction crls generalizing seen i with
  | nil => simp at here
  | cons first rest ih =>
    have member := mem_accepted codec toi seen (first :: rest) e (List.mem_of_getElem? kept)
    by_cases taken : ∃ info, usable codec toi first = some info ∧ info ∉ seen
    · obtain ⟨info, found, unseen⟩ := taken
      have unfolded : accepted codec toi seen (first :: rest) =
          (first, info) :: accepted codec toi (seen ++ [info]) rest := by
        simp [accepted, found, unseen]
      rw [unfolded] at kept ⊢
      cases i with
      | zero => simp
      | succ i =>
        simp only [List.getElem?_cons_succ] at kept here
        simpa using ih (seen ++ [info]) i kept here
    · -- the head is skipped: the info at position `i` would be accepted too early
      exfalso
      have skipped : accepted codec toi seen (first :: rest) = accepted codec toi seen rest := by
        simp only [accepted]
        split
        next info found =>
          split
          · rfl
          next unseen => exact absurd ⟨info, found, unseen⟩ taken
        · rfl
      rw [skipped] at kept
      cases i with
      | zero =>
        simp only [List.getElem?_cons_zero, Option.some.injEq] at here
        exact taken ⟨e.2, by rw [here]; exact member.2.1, member.2.2⟩
      | succ i =>
        simp only [List.getElem?_cons_succ] at here
        rcases info_accepted_by_position codec toi seen rest i e.1 e.2 here member.2.1 with
          old | ⟨k, bound, found⟩
        · exact member.2.2 old
        · have later : ((accepted codec toi seen rest).map Prod.snd)[i + 1]? = some e.2 := by
            rw [List.getElem?_map, kept]
            rfl
          have inBounds : k < ((accepted codec toi seen rest).map Prod.snd).length :=
            (List.getElem?_eq_some_iff.mp found).1
          have equal := (List.getElem?_inj inBounds
            (accepted_infos_nodup codec toi seen rest)).mp (found.trans later.symm)
          omega

end Accepted

/-! ### The index maps hold the positions of the accepted lists -/

/-- The map consulted for a key. -/
def CrlStore.index (store : CrlStore) : Key → Option (List Nat)
  | .dp name => store.dps name
  | .skid kid => store.skIds kid
  | .issuer name => store.issuers name

variable (codec : Codec) (entries : List Entry)

theorem lookup_eq_findSome (store : CrlStore) (cert : PDVCertificate) :
    store.lookup codec cert = (keysOf codec cert).findSome? store.index := by
  unfold CrlStore.lookup keysOf
  rw [List.findSome?_append, List.findSome?_append, List.findSome?_map]
  have points : store.index ∘ Key.dp = store.dps := rfl
  rw [points]
  cases ((getDpsFromCert codec cert).getD []).findSome? store.dps with
  | some indices => rfl
  | none =>
    cases cert.authorityKeyIdentifier.bind (·.keyIdentifier) with
    | none => simp [CrlStore.index]
    | some kid => cases found : store.skIds kid <;> simp [CrlStore.index, found]

/-- The positions filed under a key, absent when there are none. -/
def positions (codec : Codec) (entries : List Entry) (key : Key) : Option (List Nat) :=
  match entries.findIdxs (filedUnder codec key) with
  | [] => none
  | indices => some indices

theorem positions_append_filed (e : Entry) (key : Key) (filed : filedUnder codec key e = true) :
    positions codec (entries ++ [e]) key =
      some ((positions codec entries key).getD [] ++ [entries.length]) := by
  simp only [positions, List.findIdxs_append, List.findIdxs_singleton, filed, if_true, Nat.zero_add]
  cases entries.findIdxs (filedUnder codec key) <;> simp

theorem positions_append_other (e : Entry) (key : Key) (other : filedUnder codec key e = false) :
    positions codec (entries ++ [e]) key = positions codec entries key := by
  simp [positions, other]

/-- The store has indexed exactly `entries`. -/
structure Indexed (codec : Codec) (entries : List Entry) (store : CrlStore) : Prop where
  infos : store.crlInfo = entries.map Prod.snd
  index : ∀ key, store.index key = positions codec entries key

theorem indexed_ofList (crls : List CertificateList) : Indexed codec [] (CrlStore.ofList crls) where
  infos := rfl
  index key := by cases key <;> rfl

theorem addCrlInfo_crlInfo (crl : CertificateList) (info : CrlInfo)
    (store : CrlStore) (fresh : info ∉ store.crlInfo) :
    (store.addCrlInfo codec crl info).crlInfo = store.crlInfo ++ [info] := by
  simp only [CrlStore.addCrlInfo, if_neg fresh]
  split
  · rfl
  · split <;> split <;> rfl

theorem addCrlInfo_index (crl : CertificateList) (info : CrlInfo)
    (store : CrlStore) (fresh : info ∉ store.crlInfo) (key : Key) :
    (store.addCrlInfo codec crl info).index key =
      if filedUnder codec key (crl, info) = true then
        some ((store.index key).getD [] ++ [store.crlInfo.length])
      else store.index key := by
  cases found : getDpFromCrl codec crl with
  | some dp =>
    cases key with
    | dp name =>
      by_cases same : dp = name
      · simp [CrlStore.addCrlInfo, fresh, CrlStore.index, filedUnder, found, IndexMap.push, same]
      · simp [CrlStore.addCrlInfo, fresh, CrlStore.index, filedUnder, found, IndexMap.push, same,
          Ne.symm same]
    | skid kid => simp [CrlStore.addCrlInfo, fresh, CrlStore.index, filedUnder, found]
    | issuer name => simp [CrlStore.addCrlInfo, fresh, CrlStore.index, filedUnder, found]
  | none =>
    cases key with
    | dp name =>
      simp only [CrlStore.addCrlInfo, if_neg fresh, CrlStore.index, filedUnder, found]
      split <;> split <;> simp
    | skid kid =>
      simp only [CrlStore.addCrlInfo, if_neg fresh, CrlStore.index, filedUnder, found]
      cases skid : info.skid with
      | none => split <;> simp
      | some akid =>
        by_cases same : akid = kid
        · split <;> simp [IndexMap.push, same]
        · split <;> simp [IndexMap.push, same, Ne.symm same]
    | issuer name =>
      simp only [CrlStore.addCrlInfo, if_neg fresh, CrlStore.index, filedUnder, found]
      by_cases complete : info.typeInfo.scope = .complete
      · by_cases same : codec.nameToString crl.issuer = name
        · cases info.skid <;> simp [IndexMap.push, complete, same]
        · cases info.skid <;> simp [IndexMap.push, complete, same, Ne.symm same]
      · cases info.skid <;> simp [complete]

theorem indexed_addCrlInfo (store : CrlStore) (crl : CertificateList) (info : CrlInfo)
    (indexed : Indexed codec entries store) (fresh : info ∉ entries.map Prod.snd) :
    Indexed codec (entries ++ [(crl, info)]) (store.addCrlInfo codec crl info) := by
  have length : store.crlInfo.length = entries.length := by simp [indexed.infos]
  rw [← indexed.infos] at fresh
  constructor
  · rw [addCrlInfo_crlInfo codec crl info store fresh, indexed.infos]
    simp
  · intro key
    rw [addCrlInfo_index codec crl info store fresh key, indexed.index key, length]
    split
    next filed => rw [positions_append_filed codec entries _ key filed]
    next other => rw [positions_append_other codec entries _ key (by simpa using other)]

theorem indexed_foldl (toi : Nat) (crls : List CertificateList)
    (entries : List Entry) (store : CrlStore) (indexed : Indexed codec entries store) :
    Indexed codec (entries ++ accepted codec toi (entries.map Prod.snd) crls)
      (crls.foldl (CrlStore.indexCrl codec toi) store) := by
  induction crls generalizing entries store with
  | nil => simpa [accepted] using indexed
  | cons crl rest ih =>
    simp only [List.foldl_cons, accepted]
    have step : CrlStore.indexCrl codec toi store crl =
        match usable codec toi crl with
        | some info => store.addCrlInfo codec crl info
        | none => store := by
      unfold CrlStore.indexCrl usable
      cases CrlInfo.tryFrom codec crl with
      | error _ => rfl
      | ok info => cases checkCrlValidAtToi toi crl <;> rfl
    rw [step]
    cases usable codec toi crl with
    | none => exact ih entries store indexed
    | some info =>
      by_cases old : info ∈ entries.map Prod.snd
      · have unchanged : store.addCrlInfo codec crl info = store := by
          rw [← indexed.infos] at old
          simp [CrlStore.addCrlInfo, old]
        simp only [if_pos old, unchanged]
        exact ih entries store indexed
      · simp only [if_neg old]
        have next := ih (entries ++ [(crl, info)]) (store.addCrlInfo codec crl info)
          (indexed_addCrlInfo codec entries store crl info indexed old)
        simpa using next

theorem indexed_indexCrls (toi : Nat) (crls : List CertificateList) :
    Indexed codec (accepted codec toi [] crls) ((CrlStore.ofList crls).indexCrls codec toi) := by
  exact indexed_foldl codec toi crls [] (CrlStore.ofList crls) (indexed_ofList codec crls)

/-! ### Lookups through shifted positions -/

theorem findSome_positions (keys : List Key) :
    keys.findSome? (positions codec entries) =
      (keys.find? fun key => entries.any (filedUnder codec key)).map fun key =>
        entries.findIdxs (filedUnder codec key) := by
  induction keys with
  | nil => rfl
  | cons key keys ih =>
    rw [List.findSome?_cons, List.find?_cons]
    cases hits : entries.findIdxs (filedUnder codec key) with
    | nil =>
      have none_filed : entries.any (filedUnder codec key) = false := by
        simpa using List.findIdxs_eq_nil_iff.mp hits
      simp only [positions, hits, none_filed, ih]
    | cons index rest =>
      have some_filed : entries.any (filedUnder codec key) = true := by
        by_contra absent
        have empty : entries.findIdxs (filedUnder codec key) = [] :=
          List.findIdxs_eq_nil_iff.mpr (by simpa using absent)
        rw [empty] at hits
        cases hits
      simp only [positions, hits, some_filed, Option.map_some]

variable {α β : Type}

/-- Reading positions `g` off one list and values `h` off another agree exactly
when they agree at every hit. -/
theorem map_findIdxs_eq_iff (p : α → Bool) (g : Nat → β) (h : α → β) (xs : List α) (start : Nat) :
    (xs.findIdxs p start).map g = (xs.filter p).map h ↔
      ∀ i x, xs[i]? = some x → p x = true → g (i + start) = h x := by
  induction xs generalizing start with
  | nil => simp
  | cons x xs ih =>
    have shift : (∀ i y, xs[i]? = some y → p y = true → g (i + (start + 1)) = h y) ↔
        ∀ i y, (x :: xs)[i + 1]? = some y → p y = true → g (i + 1 + start) = h y := by
      simp only [List.getElem?_cons_succ, Nat.add_assoc, Nat.add_comm 1 start]
    have split_zero : (∀ i y, (x :: xs)[i]? = some y → p y = true → g (i + start) = h y) ↔
        (p x = true → g start = h x) ∧
          ∀ i y, (x :: xs)[i + 1]? = some y → p y = true → g (i + 1 + start) = h y := by
      constructor
      · intro all
        exact ⟨fun hit => by simpa using all 0 x rfl hit, fun i => all (i + 1)⟩
      · rintro ⟨first, later⟩ i y found hit
        cases i with
        | zero =>
          simp only [List.getElem?_cons_zero, Option.some.injEq] at found
          subst found
          simpa using first hit
        | succ i => exact later i y found hit
    rw [split_zero, ← shift, ← ih]
    by_cases hit : p x = true
    · simp [hit]
    · simp [hit]

theorem filterMap_eq_iff_of_forall_isSome {f : α → Option β} {xs : List α} (ys : List β)
    (present : ∀ x ∈ xs, (f x).isSome = true) : xs.filterMap f = ys ↔ xs.map f = ys.map some := by
  have exact : xs.map f = (xs.filterMap f).map some := by
    induction xs with
    | nil => rfl
    | cons x xs ih =>
      obtain ⟨y, found⟩ := Option.isSome_iff_exists.mp (present x List.mem_cons_self)
      have rest := ih fun z member => present z (List.mem_cons_of_mem _ member)
      simp [found, rest]
  rw [exact]
  exact (List.map_inj_right fun _ _ same => Option.some.inj same).symm

/-- Re-encoding is faithful on the lists of the store: it succeeds, and different
lists have different encodings. -/
structure FaithfulDer (codec : Codec) (crls : List CertificateList) : Prop where
  encodes : ∀ crl ∈ crls, (codec.encodeCrl crl).isSome = true
  injective : ∀ a ∈ crls, ∀ b ∈ crls, codec.encodeCrl a = codec.encodeCrl b → a = b

theorem encodeAll_ok (crls : List CertificateList) (der : FaithfulDer codec crls)
    (xs : List CertificateList) (listed : ∀ x ∈ xs, x ∈ crls) :
    ∃ ders, encodeAll codec xs = .ok ders ∧ xs.map codec.encodeCrl = ders.map some := by
  induction xs with
  | nil => exact ⟨[], rfl, rfl⟩
  | cons x xs ih =>
    obtain ⟨d, found⟩ := Option.isSome_iff_exists.mp (der.encodes x (listed x List.mem_cons_self))
    obtain ⟨ds, rest, same⟩ := ih fun y member => listed y (List.mem_cons_of_mem _ member)
    refine ⟨d :: ds, ?_, by simp [found, same]⟩
    unfold encodeAll at rest ⊢
    simp only [List.mapM_cons, found, rest]
    rfl

theorem eq_of_map_encodeCrl (crls : List CertificateList) (der : FaithfulDer codec crls)
    (xs ys : List CertificateList) (left : ∀ x ∈ xs, x ∈ crls) (right : ∀ y ∈ ys, y ∈ crls)
    (maps : xs.map codec.encodeCrl = ys.map codec.encodeCrl) : xs = ys := by
  induction xs generalizing ys with
  | nil => simpa using maps.symm
  | cons x xs ih =>
    cases ys with
    | nil => simp at maps
    | cons y ys =>
      simp only [List.map_cons, List.cons.injEq] at maps
      have head := der.injective x (left x List.mem_cons_self) y
        (right y List.mem_cons_self) maps.1
      have tail := ih ys (fun z member => left z (List.mem_cons_of_mem _ member))
        (fun z member => right z (List.mem_cons_of_mem _ member)) maps.2
      rw [head, tail]

theorem encodeAll_eq_iff {codec : Codec} {crls : List CertificateList}
    (der : FaithfulDer codec crls) {xs ys : List CertificateList} (left : ∀ x ∈ xs, x ∈ crls)
    (right : ∀ y ∈ ys, y ∈ crls) : encodeAll codec xs = encodeAll codec ys ↔ xs = ys := by
  constructor
  · intro equal
    obtain ⟨dx, okx, mapx⟩ := encodeAll_ok codec crls der xs left
    obtain ⟨dy, oky, mapy⟩ := encodeAll_ok codec crls der ys right
    rw [okx, oky, Except.ok.injEq] at equal
    exact eq_of_map_encodeCrl codec crls der xs ys left right (by rw [mapx, mapy, equal])
  · intro equal
    rw [equal]

/-- The list at the `i`-th position is the `i`-th accepted one iff nothing was
skipped up to there. -/
theorem same_position_iff {codec : Codec} {toi : Nat} {crls : List CertificateList} {i : Nat}
    {e : Entry} (kept : (accepted codec toi [] crls)[i]? = some e) :
    crls[i]? = some e.1 ↔
      crls.take (i + 1) = ((accepted codec toi [] crls).take (i + 1)).map Prod.fst := by
  constructor
  · exact take_eq_of_same_position codec toi [] crls i e kept
  · intro takes
    have reads := congrArg (fun xs : List CertificateList => xs[i]?) takes
    simpa [List.getElem?_take, kept] using reads

/-- **Revocation lookup is exact iff nothing was skipped in front.** A lookup
answers the accepted lists filed under the certificate's first matching key
exactly when no list that indexing skipped (outside its validity, unparseable or
duplicated) stands before one of them. -/
theorem getCrls_eq_expected_iff (codec : Codec) (toi : Nat) (crls : List CertificateList)
    (cert : PDVCertificate) (der : FaithfulDer codec crls) :
    ((CrlStore.ofList crls).indexCrls codec toi).getCrls codec cert =
        expectedCrls codec toi crls cert ↔
      NothingSkippedBefore codec toi crls cert := by
  have indexed := indexed_indexCrls codec toi crls
  have stored : ((CrlStore.ofList crls).indexCrls codec toi).crls = crls :=
    CrlStore.crls_indexCrls codec toi (.ofList crls)
  have looked : ((CrlStore.ofList crls).indexCrls codec toi).lookup codec cert =
      (selectedKey codec (accepted codec toi [] crls) cert).map fun key =>
        (accepted codec toi [] crls).findIdxs (filedUnder codec key) := by
    rw [lookup_eq_findSome, funext indexed.index]
    exact findSome_positions codec _ _
  unfold CrlStore.getCrls expectedCrls NothingSkippedBefore
  rw [looked, stored]
  generalize found : accepted codec toi [] crls = entries at *
  cases selectedKey codec entries cert with
  | none => simp
  | some key =>
    simp only [Option.map_some, Option.some.injEq, forall_eq']
    -- every hit lies inside `crls`, which is at least as long as the accepted list
    have bound : entries.length ≤ crls.length := by
      rw [← found]
      exact accepted_length_le codec toi [] crls
    have present : ∀ i ∈ entries.findIdxs (filedUnder codec key), (crls[i]?).isSome = true := by
      intro i hit
      have inside := List.lt_add_of_mem_findIdxs i hit
      simp only [Nat.add_zero] at inside
      simp only [isSome_getElem?]
      omega
    have listed : ∀ crl ∈ (entries.filter (filedUnder codec key)).map Prod.fst, crl ∈ crls := by
      intro crl member
      obtain ⟨e, hit, rfl⟩ := List.mem_map.mp member
      rw [← found] at hit
      exact (mem_accepted codec toi [] crls e (List.mem_filter.mp hit).1).1
    have fetched : ∀ crl ∈ (entries.findIdxs (filedUnder codec key)).filterMap
        (fun index => crls[index]?), crl ∈ crls := by
      intro crl member
      obtain ⟨i, _, read⟩ := List.mem_filterMap.mp member
      exact List.mem_of_getElem? read
    change encodeAll codec _ = encodeAll codec _ ↔ _
    rw [encodeAll_eq_iff der fetched listed,
      filterMap_eq_iff_of_forall_isSome _ present, List.map_map, map_findIdxs_eq_iff]
    constructor
    · intro agree i e kept hit
      rw [← found] at kept ⊢
      exact (same_position_iff kept).mp (agree i e (by rw [← found]; exact kept) hit)
    · intro aligned i e kept hit
      have takes := aligned i e kept hit
      rw [← found] at kept takes
      exact (same_position_iff kept).mpr takes

/-! ### A store with an expired list -/

/-- An encoding that keeps the update times apart; the sample lists carry no
extensions, so nothing is ever decoded. -/
def sampleCodec : Codec where
  nameToString name := String.join (name.rdns.map fun rdn => rdn.1 ++ "=" ++ rdn.2)
  encodeName name := some (name.rdns.map fun rdn => UInt8.ofNat rdn.2.length)
  encodeAlgorithm oid := some oid
  encodeExtensions exts := some (exts.flatMap (·.extnValue))
  encodeDistributionPointName _ := none
  encodeCrl crl := some [UInt8.ofNat crl.thisUpdate]
  decodeIssuingDistributionPoint _ := none
  decodeAuthorityKeyIdentifier _ := none

def sampleIssuer : Name := ⟨[("CN", "acme")]⟩

/-- A list of `sampleIssuer` for the given period. -/
def sampleCrl (thisUpdate nextUpdate : Nat) : CertificateList where
  issuer := sampleIssuer
  thisUpdate := thisUpdate
  nextUpdate := some nextUpdate
  revokedCertificates := []
  crlExtensions := none
  signatureAlgorithm := [1]
  signature := [2]

def sampleCert : PDVCertificate := ⟨sampleIssuer, none, none⟩

theorem sampleCodec_faithful : FaithfulDer sampleCodec [sampleCrl 50 90, sampleCrl 10 20] where
  encodes := by decide
  injective := by decide

/-- With the expired list behind the valid one the lookup is right. -/
theorem getCrls_eq_expected_sample :
    ((CrlStore.ofList [sampleCrl 50 90, sampleCrl 10 20]).indexCrls sampleCodec 60).getCrls
        sampleCodec sampleCert =
      expectedCrls sampleCodec 60 [sampleCrl 50 90, sampleCrl 10 20] sampleCert := by
  refine (getCrls_eq_expected_iff sampleCodec 60 _ sampleCert sampleCodec_faithful).mpr ?_
  intro key _ i e kept _
  have one : (accepted sampleCodec 60 [] [sampleCrl 50 90, sampleCrl 10 20]).length = 1 := by
    decide
  have first : i = 0 := by
    have inside := (List.getElem?_eq_some_iff.mp kept).1
    omega
  subst first
  decide

/-- With the expired list in front, the certificate's issuer is answered with the
expired list, which indexing skipped, instead of the valid one. -/
theorem getCrls_answers_skipped_list :
    ((CrlStore.ofList [sampleCrl 10 20, sampleCrl 50 90]).indexCrls sampleCodec 60).getCrls
        sampleCodec sampleCert = .ok [[10]] ∧
      expectedCrls sampleCodec 60 [sampleCrl 10 20, sampleCrl 50 90] sampleCert = .ok [[50]] ∧
      usable sampleCodec 60 (sampleCrl 10 20) = none := by
  decide

end CoreCrypto.Revocation
