import BeeApi.Batch.Updater

/-!
# Groups

`buildBatchUpdateGroups` cuts a store into groups, one for each key, and every group consists of
exactly the deltas of its key.  `prepare_spec` says what `prepareInFlightLocked` does to a slot.
-/

namespace BeeApi.Batch

open List Option Table

def keyOf : BatchUpdateType × ℤ → GroupKey
  | (.userQuota, id) => .user id
  | (.usedQuota, id) => .user id
  | (.requestCount, id) => .user id
  | (.tokenQuota, id) => .token id
  | (.channelUsedQuota, id) => .channel id

structure IsGroup (snapshot : Stores) (key : GroupKey) (group : List BatchUpdate) : Prop where
  key_eq : batchUpdateGroupKey group = .ok key
  nodup : (group.map BatchUpdate.slot).Nodup
  mem_iff : ∀ update, update ∈ group ↔
    snapshot.get? update.slot = some update.delta ∧ keyOf update.slot = key

structure IsFamily (kinds : List BatchUpdateType) (key : ℤ → GroupKey) : Prop where
  nodup : kinds.Nodup
  keyOf_iff : ∀ slot id, keyOf slot = key id ↔ slot.1 ∈ kinds ∧ slot.2 = id
  groupKey : ∀ group id, group ≠ [] → (∀ update ∈ group, keyOf update.slot = key id) →
    (group.map BatchUpdate.kind).Nodup → batchUpdateGroupKey group = .ok (key id)

variable {id : ℤ} {key : ℤ → GroupKey} {snapshot : Stores} {kinds : List BatchUpdateType}
  {u : BatchUpdater}

theorem any_id_ne_eq_false {first : BatchUpdate} {rest : List BatchUpdate}
    (h : ∀ update ∈ first :: rest, update.id = id) :
    ((first :: rest).any fun update => update.id != first.id) = false := by
  rw [List.any_eq_false]
  intro update hu
  simp [h update hu, h first List.mem_cons_self]

theorem isFamily_user : IsFamily userDeleteKinds .user where
  nodup := by decide
  keyOf_iff := by
    rintro ⟨kind, id'⟩ id
    cases kind <;> simp [keyOf, userDeleteKinds]
  groupKey := by
    intro group id hne hkey _
    have hslot : ∀ update ∈ group, update.kind ∈ userDeleteKinds ∧ update.id = id := by
      intro update hu
      have hk := hkey update hu
      obtain ⟨kind, id', delta⟩ := update
      cases kind <;> simp_all [keyOf, BatchUpdate.slot, userDeleteKinds]
    cases group with
    | nil => exact absurd rfl hne
    | cons first rest =>
      have hfirst := hslot first mem_cons_self
      have hfind : ((first :: rest).find? fun update => update.kind ∉ userDeleteKinds) = none := by
        rw [find?_eq_none]
        intro update hu
        simp [(hslot update hu).1]
      unfold batchUpdateGroupKey
      dsimp only
      rw [any_id_ne_eq_false fun u hu => (hslot u hu).2]
      simp only [Bool.false_eq_true, if_false, hfind, hfirst.2]
      cases hk : first.kind <;> simp_all [userDeleteKinds]

theorem isFamily_single {kind : BatchUpdateType}
    (hkeyOf : ∀ slot id, keyOf slot = key id ↔ slot.1 = kind ∧ slot.2 = id)
    (hgroup : ∀ id delta, batchUpdateGroupKey [⟨kind, id, delta⟩] = .ok (key id)) :
    IsFamily [kind] key where
  nodup := nodup_singleton kind
  keyOf_iff := by
    intro slot id
    rw [hkeyOf, mem_singleton]
  groupKey := by
    intro group id hne hkey hnodup
    have hslot : ∀ update ∈ group, update.kind = kind ∧ update.id = id := fun update hu =>
      (hkeyOf update.slot id).1 (hkey update hu)
    match group with
    | [] => exact absurd rfl hne
    | [first] =>
      obtain ⟨hk, hid⟩ := hslot first mem_cons_self
      obtain ⟨k, i, delta⟩ := first
      simp only at hk hid
      rw [hk, hid]
      exact hgroup id delta
    | first :: second :: rest =>
      have h₁ := (hslot first (by simp)).1
      have h₂ := (hslot second (by simp)).1
      simp [h₁, h₂] at hnodup

theorem isFamily_token : IsFamily [.tokenQuota] .token := by
  refine isFamily_single ?_ ?_
  · rintro ⟨kind, id'⟩ id
    cases kind <;> simp [keyOf]
  · intro id delta
    simp [batchUpdateGroupKey]

theorem isFamily_channel : IsFamily [.channelUsedQuota] .channel := by
  refine isFamily_single ?_ ?_
  · rintro ⟨kind, id'⟩ id
    cases kind <;> simp [keyOf]
  · intro id delta
    simp [batchUpdateGroupKey]

/-! ## The groups of a store -/

theorem mem_sortedBatchIDs {ids : List ℤ} : id ∈ sortedBatchIDs ids ↔ id ∈ ids := by
  rw [sortedBatchIDs, mem_insertionSort, mem_dedup]

theorem nodup_sortedBatchIDs (ids : List ℤ) : (sortedBatchIDs ids).Nodup :=
  (perm_insertionSort _ _).nodup_iff.2 (nodup_dedup ids)

theorem mem_batchIDs :
    id ∈ batchIDs snapshot kinds ↔ ∃ kind ∈ kinds, ∃ delta, snapshot.get? (kind, id) = some delta := by
  simp only [batchIDs, List.mem_map, List.mem_filter, Table.mem_keys_iff, decide_eq_true_eq]
  constructor
  · rintro ⟨⟨kind, id'⟩, ⟨⟨delta, hd⟩, hk⟩, rfl⟩
    exact ⟨kind, hk, delta, hd⟩
  · rintro ⟨kind, hk, delta, hd⟩
    exact ⟨(kind, id), ⟨⟨delta, hd⟩, hk⟩, rfl⟩

theorem mem_batchGroup {update : BatchUpdate} : update ∈ batchGroup snapshot kinds id ↔
      snapshot.get? update.slot = some update.delta ∧ update.kind ∈ kinds ∧ update.id = id := by
  obtain ⟨kind, id', delta⟩ := update
  simp only [batchGroup, mem_filterMap, map_eq_some_iff, BatchUpdate.mk.injEq, BatchUpdate.slot]
  constructor
  · rintro ⟨k, hk, d, hd, rfl, rfl, rfl⟩
    exact ⟨hd, hk, rfl⟩
  · rintro ⟨hd, hk, rfl⟩
    exact ⟨kind, hk, delta, hd, rfl, rfl, rfl⟩

theorem kinds_batchGroup (snapshot : Stores) (kinds : List BatchUpdateType) (id : ℤ) :
    ((batchGroup snapshot kinds id).map BatchUpdate.kind).Sublist kinds := by
  induction kinds with
  | nil => exact List.Sublist.refl _
  | cons kind kinds ih =>
    unfold batchGroup at ih ⊢
    rw [filterMap_cons]
    cases snapshot.get? (kind, id) with
    | none => exact ih.cons kind
    | some delta => exact ih.cons_cons kind

theorem IsFamily.isGroup (hf : IsFamily kinds key) (hid : id ∈ batchIDs snapshot kinds) :
    IsGroup snapshot (key id) (batchGroup snapshot kinds id) := by
  have hkinds := hf.nodup.sublist (kinds_batchGroup snapshot kinds id)
  have hmem : ∀ update, update ∈ batchGroup snapshot kinds id ↔
      snapshot.get? update.slot = some update.delta ∧ keyOf update.slot = key id := by
    intro update
    rw [mem_batchGroup, hf.keyOf_iff]
    rfl
  refine ⟨hf.groupKey _ id ?_ (fun update hu => ((hmem update).1 hu).2) hkinds, ?_, hmem⟩
  · obtain ⟨kind, hk, delta, hd⟩ := mem_batchIDs.1 hid
    have hin : (⟨kind, id, delta⟩ : BatchUpdate) ∈ batchGroup snapshot kinds id :=
      mem_batchGroup.2 ⟨hd, hk, rfl⟩
    exact ne_nil_of_mem hin
  · have hmap : (batchGroup snapshot kinds id).map BatchUpdate.kind =
        ((batchGroup snapshot kinds id).map BatchUpdate.slot).map Prod.fst := by
      rw [List.map_map]
      rfl
    rw [hmap] at hkinds
    exact hkinds.of_map _

def groupKeys (snapshot : Stores) : List GroupKey :=
  (sortedBatchIDs (batchIDs snapshot userDeleteKinds)).map .user ++
    (sortedBatchIDs (batchIDs snapshot [.tokenQuota])).map .token ++
    (sortedBatchIDs (batchIDs snapshot [.channelUsedQuota])).map .channel

theorem nodup_groupKeys (snapshot : Stores) : (groupKeys snapshot).Nodup := by
  have hmap : ∀ (key : ℤ → GroupKey), Function.Injective key → ∀ kinds,
      ((sortedBatchIDs (batchIDs snapshot kinds)).map key).Nodup := fun key hkey kinds =>
    (nodup_sortedBatchIDs _).map hkey
  unfold groupKeys
  rw [nodup_append, nodup_append]
  refine ⟨⟨hmap _ (fun a b h => GroupKey.user.inj h) _, hmap _ (fun a b h => GroupKey.token.inj h) _,
    ?_⟩, hmap _ (fun a b h => GroupKey.channel.inj h) _, ?_⟩
  · intro a ha b hb
    obtain ⟨i, -, rfl⟩ := mem_map.1 ha
    obtain ⟨j, -, rfl⟩ := mem_map.1 hb
    simp
  · intro a ha b hb
    obtain ⟨j, -, rfl⟩ := mem_map.1 hb
    rcases mem_append.1 ha with ha | ha
    all_goals
      obtain ⟨i, -, rfl⟩ := mem_map.1 ha
      simp

theorem IsFamily.forall₂ (hf : IsFamily kinds key) (snapshot : Stores) :
    List.Forall₂ (IsGroup snapshot) ((sortedBatchIDs (batchIDs snapshot kinds)).map key)
      (batchGroups snapshot kinds) := by
  unfold batchGroups
  rw [forall₂_map_left_iff, forall₂_map_right_iff, forall₂_same]
  intro id hid
  exact hf.isGroup (mem_sortedBatchIDs.1 hid)

theorem forall₂_isGroup (snapshot : Stores) :
    List.Forall₂ (IsGroup snapshot) (groupKeys snapshot) (buildBatchUpdateGroups snapshot) := by
  exact rel_append (rel_append (isFamily_user.forall₂ snapshot)
    (isFamily_token.forall₂ snapshot)) (isFamily_channel.forall₂ snapshot)

theorem mem_groupKeys {key : GroupKey} :
    key ∈ groupKeys snapshot ↔ ∃ slot delta, snapshot.get? slot = some delta ∧ keyOf slot = key := by
  have hfamily : ∀ {kinds key'}, IsFamily kinds key' → ∀ id,
      id ∈ sortedBatchIDs (batchIDs snapshot kinds) ↔
        ∃ slot delta, snapshot.get? slot = some delta ∧ keyOf slot = key' id := by
    intro kinds key' hf id
    rw [mem_sortedBatchIDs, mem_batchIDs]
    constructor
    · rintro ⟨kind, hk, delta, hd⟩
      exact ⟨(kind, id), delta, hd, (hf.keyOf_iff _ _).2 ⟨hk, rfl⟩⟩
    · rintro ⟨⟨kind, id'⟩, delta, hd, hkey⟩
      obtain ⟨hk, rfl⟩ := (hf.keyOf_iff _ _).1 hkey
      exact ⟨kind, hk, delta, hd⟩
  unfold groupKeys
  cases key with
  | user id => simp [hfamily isFamily_user]
  | token id => simp [hfamily isFamily_token]
  | channel id => simp [hfamily isFamily_channel]

/-! ## Preparing -/

/-- Every operation id is a text that `newFlushOperationID` made. -/
def IdsNonempty (u : BatchUpdater) : Prop :=
  ∀ key op, u.operationIDs.get? key = some op → op ≠ ""

theorem newFlushOperationID_ne (uuid : ℕ → String) (n : ℕ) : newFlushOperationID uuid n ≠ "" := by
  intro h
  have hlen := congrArg String.length h
  rw [newFlushOperationID, String.length_append] at hlen
  have : "batch-".length = 6 := by decide
  have : "".length = 0 := by decide
  omega

theorem newFlushOperationID_injective {uuid : ℕ → String} (huuid : uuid.Injective) :
    (newFlushOperationID uuid).Injective := by
  intro n m h
  exact huuid ((String.append_right_inj "batch-").1 h)

theorem IdsNonempty.getD_ne_iff (hu : IdsNonempty u) (key : GroupKey) :
    (u.operationIDs.get? key).getD "" ≠ "" ↔ u.operationIDs.get? key ≠ none := by
  cases h : u.operationIDs.get? key with
  | none => simp
  | some op => simpa using hu key op h

/-- A slot is taken by a preparation over `keys` when its group is not in flight yet. -/
def Taken (u : BatchUpdater) (keys : List GroupKey) (slot : BatchUpdateType × ℤ) : Prop :=
  keyOf slot ∈ keys ∧ u.operationIDs.get? (keyOf slot) = none

structure Prepared (uuid : ℕ → String) (keys : List GroupKey) (u u' : BatchUpdater) : Prop where
  state : u'.state = u.state
  ids : IdsNonempty u'
  drawn : u.drawn ≤ u'.drawn
  taken : ∀ slot, Taken u keys slot → u'.stores.get? slot = none ∧
    u'.inFlight.get? slot = (u.stores.get? slot).or (u.inFlight.get? slot)
  kept : ∀ slot, ¬Taken u keys slot →
    u'.stores.get? slot = u.stores.get? slot ∧ u'.inFlight.get? slot = u.inFlight.get? slot
  known : ∀ key op, u.operationIDs.get? key = some op → u'.operationIDs.get? key = some op
  fresh : ∀ key ∈ keys, u.operationIDs.get? key = none →
    ∃ n, u.drawn ≤ n ∧ n < u'.drawn ∧ u'.operationIDs.get? key = some (newFlushOperationID uuid n)
  other : ∀ key ∉ keys, u'.operationIDs.get? key = u.operationIDs.get? key
  distinct : uuid.Injective → ∀ key₁ ∈ keys, ∀ key₂ ∈ keys, u.operationIDs.get? key₁ = none →
    u.operationIDs.get? key₂ = none → u'.operationIDs.get? key₁ = u'.operationIDs.get? key₂ →
    key₁ = key₂

theorem Prepared.nil (uuid : ℕ → String) (hu : IdsNonempty u) :
    Prepared uuid [] u u where
  state := rfl
  ids := hu
  drawn := le_rfl
  taken := by
    rintro slot ⟨hmem, -⟩
    cases hmem
  kept := fun _ _ => ⟨rfl, rfl⟩
  known := fun _ _ h => h
  fresh := by
    intro key hmem
    cases hmem
  other := fun _ _ => rfl
  distinct := by
    intro _ key hmem
    cases hmem

theorem prepareGroup_spec {uuid : ℕ → String} {u : BatchUpdater} {key : GroupKey}
    {group : List BatchUpdate} (hu : IdsNonempty u) (hg : IsGroup u.stores key group) :
    ∃ u', prepareGroup uuid u group = .ok u' ∧ Prepared uuid [key] u u' := by
  unfold prepareGroup
  rw [hg.key_eq]
  dsimp only
  by_cases hin : u.operationIDs.get? key = none
  · rw [if_neg (by rw [hu.getD_ne_iff]; exact not_not.2 hin)]
    refine ⟨_, rfl, ?_⟩
    have hslots : ∀ slot, slot ∈ group.map BatchUpdate.slot ↔
        (u.stores.get? slot).isSome ∧ keyOf slot = key := by
      intro slot
      rw [List.mem_map]
      constructor
      · rintro ⟨update, hmem, rfl⟩
        obtain ⟨hd, hk⟩ := (hg.mem_iff update).1 hmem
        exact ⟨by simp [hd], hk⟩
      · rintro ⟨hsome, hk⟩
        obtain ⟨delta, hd⟩ := isSome_iff_exists.1 hsome
        exact ⟨⟨slot.1, slot.2, delta⟩, (hg.mem_iff _).2 ⟨hd, hk⟩, rfl⟩
    have hput := get?_foldl_put_of_notMem BatchUpdate.slot BatchUpdate.delta group u.inFlight
    have herase := get?_foldl_erase BatchUpdate.slot group u.stores
    refine ⟨rfl, ?_, Nat.le_succ _, ?_, ?_, ?_, ?_, ?_, ?_⟩
    · intro key' op hop
      rw [get?_put] at hop
      split_ifs at hop
      · rw [← some.inj hop]
        exact newFlushOperationID_ne uuid _
      · exact hu key' op hop
    · rintro slot ⟨hmem, -⟩
      have hk : keyOf slot = key := mem_singleton.1 hmem
      rw [herase]
      cases hd : u.stores.get? slot with
      | none =>
        have hnot : slot ∉ group.map BatchUpdate.slot := by simp [hslots, hd]
        rw [if_neg hnot, hput slot hnot]
        exact ⟨rfl, rfl⟩
      | some delta =>
        have hmem : (⟨slot.1, slot.2, delta⟩ : BatchUpdate) ∈ group := (hg.mem_iff _).2 ⟨hd, hk⟩
        rw [if_pos ((hslots slot).2 ⟨by simp [hd], hk⟩)]
        exact ⟨rfl, get?_foldl_put_of_mem BatchUpdate.slot BatchUpdate.delta group u.inFlight
          hg.nodup hmem⟩
    · intro slot hnot
      have hk : keyOf slot ≠ key := by
        rintro rfl
        exact hnot ⟨mem_singleton_self _, hin⟩
      have hslot : slot ∉ group.map BatchUpdate.slot := by simp [hslots, hk]
      rw [herase, if_neg hslot, hput slot hslot]
      exact ⟨rfl, rfl⟩
    · intro key' op hop
      rw [get?_put, if_neg, hop]
      rintro rfl
      rw [hin] at hop
      cases hop
    · intro key' hmem _
      obtain rfl := mem_singleton.1 hmem
      exact ⟨u.drawn, le_rfl, Nat.lt_succ_self _, (get?_put _ _ _ _).trans (if_pos rfl)⟩
    · intro key' hmem
      exact (get?_put _ _ _ _).trans (if_neg fun h => hmem (mem_singleton.2 h))
    · intro _ key₁ h₁ key₂ h₂ _ _ _
      exact (mem_singleton.1 h₁).trans (mem_singleton.1 h₂).symm
  · rw [if_pos ((hu.getD_ne_iff key).2 hin)]
    refine ⟨u, rfl, rfl, hu, le_rfl, ?_, fun _ _ => ⟨rfl, rfl⟩, fun _ _ h => h, ?_,
      fun _ _ => rfl, ?_⟩
    · rintro slot ⟨hmem, hnone⟩
      rw [mem_singleton.1 hmem] at hnone
      exact absurd hnone hin
    · intro key' hmem hnone
      rw [mem_singleton.1 hmem] at hnone
      exact absurd hnone hin
    · intro _ key₁ h₁ key₂ h₂ _ _ _
      exact (mem_singleton.1 h₁).trans (mem_singleton.1 h₂).symm

theorem IsGroup.congr {snapshot' : Stores} {key : GroupKey} {group : List BatchUpdate}
    (hg : IsGroup snapshot key group)
    (h : ∀ slot, keyOf slot = key → snapshot'.get? slot = snapshot.get? slot) :
    IsGroup snapshot' key group where
  key_eq := hg.key_eq
  nodup := hg.nodup
  mem_iff := by
    intro update
    rw [hg.mem_iff]
    constructor
    · rintro ⟨hd, hk⟩
      exact ⟨(h _ hk).trans hd, hk⟩
    · rintro ⟨hd, hk⟩
      exact ⟨(h _ hk).symm.trans hd, hk⟩

theorem Prepared.cons {uuid : ℕ → String} {key : GroupKey} {keys : List GroupKey}
    {u u₁ u' : BatchUpdater} (h₁ : Prepared uuid [key] u u₁) (h₂ : Prepared uuid keys u₁ u')
    (hkey : key ∉ keys) : Prepared uuid (key :: keys) u u' := by
  have hother : ∀ key', key' ≠ key → u₁.operationIDs.get? key' = u.operationIDs.get? key' :=
    fun key' hne => h₁.other key' fun h => hne (mem_singleton.1 h)
  -- the first group draws a smaller number than any later one
  have hsep : uuid.Injective → ∀ key' ∈ keys, u.operationIDs.get? key = none →
      u.operationIDs.get? key' = none → u'.operationIDs.get? key ≠ u'.operationIDs.get? key' := by
    intro huuid key' hmem hnone hnone' he
    have hne : key' ≠ key := fun he => hkey (he ▸ hmem)
    obtain ⟨n, -, hlt, hop⟩ := h₁.fresh key (mem_singleton_self _) hnone
    obtain ⟨m, hle, -, hop'⟩ := h₂.fresh key' hmem ((hother key' hne).trans hnone')
    rw [h₂.known key _ hop, hop', some.injEq] at he
    have := newFlushOperationID_injective huuid he
    omega
  refine ⟨h₂.state.trans h₁.state, h₂.ids, h₁.drawn.trans h₂.drawn, ?_, ?_, ?_, ?_, ?_, ?_⟩
  · rintro slot ⟨hmem, hnone⟩
    rcases mem_cons.1 hmem with hk | hk
    · -- taken by the first group, and left alone by the others
      obtain ⟨hs, hf⟩ := h₁.taken slot ⟨mem_singleton.2 hk, hnone⟩
      obtain ⟨hs', hf'⟩ := h₂.kept slot fun ht => hkey (hk ▸ ht.1)
      exact ⟨hs'.trans hs, hf'.trans hf⟩
    · have hne : keyOf slot ≠ key := fun he => hkey (he ▸ hk)
      obtain ⟨hs, hf⟩ := h₁.kept slot fun ht => hne (mem_singleton.1 ht.1)
      obtain ⟨hs', hf'⟩ := h₂.taken slot ⟨hk, (hother _ hne).trans hnone⟩
      rw [hs, hf] at hf'
      exact ⟨hs', hf'⟩
  · intro slot hnot
    obtain ⟨hs, hf⟩ := h₁.kept slot fun ht =>
      hnot ⟨mem_cons.2 (.inl (mem_singleton.1 ht.1)), ht.2⟩
    obtain ⟨hs', hf'⟩ := h₂.kept slot fun ht => by
      have hne : keyOf slot ≠ key := fun he => hkey (he ▸ ht.1)
      exact hnot ⟨mem_cons_of_mem _ ht.1, (hother _ hne).symm.trans ht.2⟩
    exact ⟨hs'.trans hs, hf'.trans hf⟩
  · exact fun key' op hop => h₂.known key' op (h₁.known key' op hop)
  · intro key' hmem hnone
    rcases mem_cons.1 hmem with rfl | hk
    · obtain ⟨n, hle, hlt, hop⟩ := h₁.fresh key' (mem_singleton_self _) hnone
      exact ⟨n, hle, hlt.trans_le h₂.drawn, h₂.known key' _ hop⟩
    · have hne : key' ≠ key := fun he => hkey (he ▸ hk)
      obtain ⟨n, hle, hlt, hop⟩ := h₂.fresh key' hk ((hother key' hne).trans hnone)
      exact ⟨n, h₁.drawn.trans hle, hlt, hop⟩
  · intro key' hmem
    rw [mem_cons, not_or] at hmem
    exact (h₂.other key' hmem.2).trans (hother key' hmem.1)
  · intro huuid key₁ hmem₁ key₂ hmem₂ hnone₁ hnone₂ he
    rcases mem_cons.1 hmem₁ with rfl | hk₁ <;> rcases mem_cons.1 hmem₂ with rfl | hk₂
    · rfl
    · exact absurd he (hsep huuid key₂ hk₂ hnone₁ hnone₂)
    · exact absurd he.symm (hsep huuid key₁ hk₁ hnone₂ hnone₁)
    · have hne₁ : key₁ ≠ key := fun he => hkey (he ▸ hk₁)
      have hne₂ : key₂ ≠ key := fun he => hkey (he ▸ hk₂)
      exact h₂.distinct huuid key₁ hk₁ key₂ hk₂ ((hother _ hne₁).trans hnone₁)
        ((hother _ hne₂).trans hnone₂) he

theorem prepareGroups_spec {uuid : ℕ → String} {keys : List GroupKey}
    {groups : List (List BatchUpdate)} (hu : IdsNonempty u) (hkeys : keys.Nodup)
    (hg : List.Forall₂ (IsGroup u.stores) keys groups) :
    ∃ u', groups.foldlM (prepareGroup uuid) u = .ok u' ∧ Prepared uuid keys u u' := by
  induction keys generalizing u groups with
  | nil =>
    cases hg
    exact ⟨u, rfl, Prepared.nil uuid hu⟩
  | cons key keys ih =>
    cases hg with
    | @cons _ group _ groups hg hrest =>
      rw [nodup_cons] at hkeys
      obtain ⟨u₁, h₁, hp₁⟩ := @prepareGroup_spec uuid u key group hu hg
      -- the other groups are still the groups of what is left in the store
      have hrest₁ : List.Forall₂ (IsGroup u₁.stores) keys groups := by
        have hne : ∀ key' ∈ keys, key' ≠ key := fun key' hmem he => hkeys.1 (he ▸ hmem)
        refine ((forall₂_and_left _ _).2 ⟨hne, hrest⟩).imp ?_
        rintro key' group' ⟨hne', hg'⟩
        refine hg'.congr fun slot hk => ?_
        exact (hp₁.kept slot fun ht => hne' (hk.symm.trans (mem_singleton.1 ht.1))).1
      obtain ⟨u', h', hp'⟩ := ih hp₁.ids hkeys.2 hrest₁
      refine ⟨u', ?_, hp₁.cons hp' hkeys.1⟩
      rw [foldlM_cons, h₁]
      exact h'

theorem prepare_spec (uuid : ℕ → String) (hu : IdsNonempty u) :
    ∃ u', prepareInFlightLocked uuid u = .ok u' ∧ Prepared uuid (groupKeys u.stores) u u' :=
  prepareGroups_spec hu (nodup_groupKeys u.stores) (forall₂_isGroup u.stores)

/-! ## Operations -/

/-- An operation carries the identity and the deltas of a group in flight. -/
structure IsOperation (u : BatchUpdater) (operation : BatchUpdateOperation) : Prop where
  id : u.operationIDs.get? operation.key = some operation.operationID
  group : IsGroup u.inFlight operation.key operation.updates

theorem mapM_batchOperation {keys : List GroupKey} {groups : List (List BatchUpdate)}
    (hu : IdsNonempty u) (hids : ∀ key ∈ keys, u.operationIDs.get? key ≠ none)
    (hg : List.Forall₂ (IsGroup u.inFlight) keys groups) :
    ∃ operations, groups.mapM (batchOperation u) = .ok operations ∧
      operations.map BatchUpdateOperation.key = keys ∧
      ∀ operation ∈ operations, IsOperation u operation := by
  induction hg with
  | nil => exact ⟨[], rfl, rfl, nofun⟩
  | @cons key group keys groups hg _ ih =>
    obtain ⟨operations, hmap, hkeys, hall⟩ := ih fun key' h => hids key' (mem_cons_of_mem _ h)
    have hin := hids key mem_cons_self
    obtain ⟨op, hop⟩ := ne_none_iff_exists'.1 hin
    have hne := hu key op hop
    have hone : batchOperation u group = .ok { key, operationID := op, updates := group } := by
      unfold batchOperation
      rw [hg.key_eq]
      simp [hop, hne]
    refine ⟨{ key, operationID := op, updates := group } :: operations, ?_, ?_, ?_⟩
    · rw [mapM_cons, hone, hmap]
      rfl
    · rw [map_cons, hkeys]
    · intro operation hmem
      rcases mem_cons.1 hmem with rfl | hmem
      · exact ⟨hop, hg⟩
      · exact hall operation hmem

theorem finalizeGroup_of_isOperation {operation : BatchUpdateOperation}
    (ho : IsOperation u operation) (failed : Bool) :
    finalizeGroup u operation failed = (if failed then u
        else { u with
          inFlight := operation.updates.foldl (fun stores update => stores.erase update.slot)
            u.inFlight
          operationIDs := u.operationIDs.erase operation.key }, none) := by
  have hfind : (operation.updates.find? fun update =>
      u.inFlight.get? update.slot ≠ some update.delta) = none := by
    rw [find?_eq_none]
    intro update hmem
    simp [((ho.group.mem_iff update).1 hmem).1]
  unfold finalizeGroup
  rw [ho.id, getD_some, if_neg (not_not.2 rfl), hfind]
  split_ifs <;> rfl

theorem IsOperation.get?_erase {operation : BatchUpdateOperation} (ho : IsOperation u operation)
    (slot : BatchUpdateType × ℤ) :
    (operation.updates.foldl (fun stores update => stores.erase update.slot) u.inFlight).get? slot =
      if keyOf slot = operation.key then none else u.inFlight.get? slot := by
  have herase := get?_foldl_erase BatchUpdate.slot operation.updates u.inFlight slot
  rw [herase]
  split_ifs with hmem hkey hkey
  · rfl
  · obtain ⟨update, hu, rfl⟩ := mem_map.1 hmem
    exact absurd ((ho.group.mem_iff update).1 hu).2 hkey
  · cases hd : u.inFlight.get? slot with
    | none => rfl
    | some delta =>
      have hin : (⟨slot.1, slot.2, delta⟩ : BatchUpdate) ∈ operation.updates :=
        (ho.group.mem_iff _).2 ⟨hd, hkey⟩
      exact absurd (mem_map.2 ⟨_, hin, rfl⟩) hmem
  · rfl

end BeeApi.Batch
