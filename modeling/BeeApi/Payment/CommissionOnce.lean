import BeeApi.Payment.CommissionScan

/-!
# Commissions are paid once

All settlers of a day find the same records, so that the unique index refuses every transaction but the
first.  Users that are deleted are left out: they get no record as invitees.
-/

namespace BeeApi.Affiliate

open List Option Table Bool

/-! ## Paying -/

def commissionOf (records : List AffiliateCommissionDaily) (inviterId : ℤ) : ℤ :=
  ((records.filter fun r => r.inviterId = inviterId).map (·.commission)).sum

theorem getD_foldl_addTotal (records : List AffiliateCommissionDaily) (totals : Table ℤ ℤ) (k : ℤ) :
    ((records.foldl addTotal totals).get? k).getD 0 =
      (totals.get? k).getD 0 + commissionOf records k := by
  induction records generalizing totals with
  | nil => exact (add_zero _).symm
  | cons r records ih =>
    rw [foldl_cons, ih, addTotal, get?_put, commissionOf, commissionOf]
    by_cases hk : k = r.inviterId
    · rw [if_pos hk, filter_cons_of_pos (by simp [hk]), map_cons, sum_cons, hk,
        getD_some, add_assoc]
    · rw [if_neg hk, filter_cons_of_neg (by simpa using Ne.symm hk)]

def User.paid (u : User) (total : ℤ) : User :=
  if u.deleted then u
  else { u with affQuota := u.affQuota + total, affHistory := u.affHistory + total }

theorem get?_payInviter (users : Table ℤ User) (inviterId total k : ℤ) :
    (payInviter users inviterId total).get? k =
      (users.get? k).map fun u => if k = inviterId then u.paid total else u := by
  rw [payInviter, get?_updateWhere]
  cases users.get? k with
  | none => rfl
  | some u =>
    rw [map_some, map_some]
    by_cases hk : k = inviterId <;> cases hdeleted : u.deleted <;> simp [User.paid, hk, hdeleted]

theorem User.paid_zero (u : User) : u.paid 0 = u := by
  unfold paid
  split_ifs
  · rfl
  · rw [add_zero, add_zero]

theorem get?_foldl_payInviter {rows : List (ℤ × ℤ)} (hnodup : (rows.map Prod.fst).Nodup)
    (users : Table ℤ User) (k : ℤ) :
    (rows.foldl (fun users e => payInviter users e.1 e.2) users).get? k =
      (users.get? k).map fun u =>
        u.paid (((rows.find? fun e => e.1 = k).map Prod.snd).getD 0) := by
  induction rows generalizing users with
  | nil =>
    show users.get? k = (users.get? k).map fun u => u.paid 0
    cases users.get? k with
    | none => rfl
    | some u => rw [map_some, User.paid_zero]
  | cons e rows ih =>
    obtain ⟨inviterId, total⟩ := e
    rw [map_cons, nodup_cons] at hnodup
    rw [List.foldl_cons, ih hnodup.2, get?_payInviter, Option.map_map]
    refine map_congr fun u _ => ?_
    by_cases hk : k = inviterId
    · have hnone : rows.find? (fun e => e.1 = k) = none := by
        refine find?_eq_none.2 fun p hp => ?_
        have hmem : p.1 ∈ rows.map Prod.fst := mem_map_of_mem hp
        rw [decide_eq_true_eq]
        intro heq
        rw [heq, hk] at hmem
        exact hnodup.1 hmem
      rw [Function.comp_apply, if_pos hk, hnone, find?_cons_of_pos (by simp [hk])]
      exact User.paid_zero _
    · rw [Function.comp_apply, if_neg hk, find?_cons_of_neg (by simpa using Ne.symm hk)]

theorem get?_payInviters (users : Table ℤ User) (records : List AffiliateCommissionDaily) (k : ℤ) :
    (payInviters users (records.foldl addTotal ∅)).get? k =
      (users.get? k).map fun u => u.paid (commissionOf records k) := by
  have htotal := getD_foldl_addTotal records ∅ k
  rw [get?_empty, getD_none, zero_add] at htotal
  rw [payInviters, get?_foldl_payInviter (records.foldl addTotal ∅).nodup, ← htotal]
  rfl

/-! ## The records of a day -/

variable {day : Day}

/-- Only the balances of the users differ. -/
def SameUsers (users users' : Table ℤ User) : Prop :=
  users'.rows.map (fun e => (e.1, e.2.inviterId, e.2.deleted)) =
    users.rows.map fun e => (e.1, e.2.inviterId, e.2.deleted)

variable {users : Table ℤ User} {records : List AffiliateCommissionDaily} {totals : Table ℤ ℤ}
  {db : Db}

theorem SameUsers.loadInviterMapping {users' : Table ℤ User} (h : SameUsers users users')
    (consume : Table ℤ ℤ) :
    loadInviterMapping users' consume = loadInviterMapping users consume := by
  have hmapping : ∀ t : Table ℤ User, Affiliate.loadInviterMapping t consume =
      ((t.rows.map fun e => (e.1, e.2.inviterId, e.2.deleted)).filter fun e =>
        (consume.get? e.1).isSome && e.2.1 ≠ 0 && !e.2.2).map fun e => (e.1, e.2.1) := by
    intro t
    rw [List.filter_map, List.map_map]
    rfl
  rw [hmapping, hmapping, h]

theorem sameUsers_payInviter (users : Table ℤ User) (inviterId total : ℤ) :
    SameUsers users (payInviter users inviterId total) := by
  show ((users.rows.map _).map _) = _
  rw [List.map_map]
  refine List.map_congr_left fun e _ => ?_
  rw [Function.comp_apply]
  split_ifs <;> rfl

theorem sameUsers_payInviters (users : Table ℤ User) (totals : Table ℤ ℤ) :
    SameUsers users (payInviters users totals) := by
  unfold payInviters
  induction totals.rows generalizing users with
  | nil => rfl
  | cons e rows ih =>
    rw [foldl_cons]
    exact (ih _).trans (sameUsers_payInviter users e.1 e.2)

theorem lookup_eq_some_iff {l : List (ℤ × ℤ)} (h : (l.map Prod.fst).Nodup) {k v : ℤ} :
    l.lookup k = some v ↔ (k, v) ∈ l := by
  induction l with
  | nil => simp
  | cons e l ih =>
    obtain ⟨k', v'⟩ := e
    rw [map_cons, nodup_cons] at h
    rw [lookup_cons, mem_cons, Prod.mk.injEq]
    by_cases hk : k = k'
    · rw [hk, beq_self_eq_true]
      constructor
      · intro heq
        exact .inl ⟨rfl, (some.inj heq).symm⟩
      · rintro (⟨-, rfl⟩ | hmem)
        · rfl
        · exact absurd (mem_map_of_mem hmem) h.1
    · rw [beq_false_of_ne hk]
      exact (ih h.2).trans ⟨.inr, fun hor => hor.resolve_left fun heq => hk heq.1⟩

theorem lookup_loadInviterMapping (users : Table ℤ User) (consume : Table ℤ ℤ) (k inviterId : ℤ) :
    (loadInviterMapping users consume).lookup k = some inviterId ↔
      (consume.get? k).isSome ∧ ∃ u, users.get? k = some u ∧ u.inviterId = inviterId ∧
        inviterId ≠ 0 ∧ u.deleted = false := by
  have hnodup : ((loadInviterMapping users consume).map Prod.fst).Nodup := by
    rw [loadInviterMapping, List.map_map]
    exact users.nodup.sublist (List.filter_sublist.map _)
  rw [lookup_eq_some_iff hnodup, loadInviterMapping, List.mem_map]
  constructor
  · rintro ⟨⟨k', u⟩, hmem, heq⟩
    cases heq
    rw [mem_filter, and_eq_true, and_eq_true, decide_eq_true_eq, not_eq_true'] at hmem
    exact ⟨hmem.2.1.1, u, (get?_eq_some_iff _ _ _).2 hmem.1, rfl, hmem.2.1.2, hmem.2.2⟩
  · rintro ⟨hconsume, u, hget, rfl, hne, hdeleted⟩
    refine ⟨(k, u), mem_filter.2 ⟨(get?_eq_some_iff _ _ _).1 hget, ?_⟩, rfl⟩
    rw [and_eq_true, and_eq_true, decide_eq_true_eq, not_eq_true']
    exact ⟨⟨hconsume, hne⟩, hdeleted⟩

def Day.due (day : Day) (users : Table ℤ User) :
    Option (List AffiliateCommissionDaily × Table ℤ ℤ) :=
  day.scanConsumeByUser.map fun consumeByUser =>
    day.buildCommissionRecords consumeByUser (loadInviterMapping users consumeByUser)

theorem inviteeId_record {inviterById : List (ℤ × ℤ)} {invitee consume : ℤ}
    {r : AffiliateCommissionDaily} (h : day.record inviterById invitee consume = some r) :
    r.inviteeId = invitee := by
  unfold Day.record at h
  split at h
  · exact (nomatch h)
  · split_ifs at h
    rw [← some.inj h]

theorem inviteeIds_sublist (inviterById rows : List (ℤ × ℤ)) :
    ((rows.filterMap fun e => day.record inviterById e.1 e.2).map (·.inviteeId)).Sublist
      (rows.map Prod.fst) := by
  induction rows with
  | nil => exact .slnil
  | cons e rows ih =>
    rw [filterMap_cons, map_cons]
    cases hrecord : day.record inviterById e.1 e.2 with
    | none => exact ih.cons _
    | some r =>
      rw [map_cons, inviteeId_record hrecord]
      exact ih.cons_cons _

theorem nodup_due (h : day.due users = some (records, totals)) :
    (records.map (·.inviteeId)).Nodup := by
  obtain ⟨consume, -, hbuild⟩ := map_eq_some_iff.1 h
  obtain ⟨rfl, -⟩ := Prod.mk.inj hbuild
  exact consume.nodup.sublist (inviteeIds_sublist _ _)

theorem totals_due (h : day.due users = some (records, totals)) :
    totals = records.foldl addTotal ∅ := by
  obtain ⟨consume, -, hbuild⟩ := map_eq_some_iff.1 h
  cases hbuild
  rfl

theorem commission_eq_floor {consume : ℤ} (h : 0 < ⌊day.product consume⌋) :
    day.commission consume = ⌊day.product consume⌋ := by
  have hnum : 0 ≤ (day.product consume).num :=
    Rat.num_nonneg.2 (le_trans zero_le_one (Int.floor_pos.1 h))
  rw [Day.commission, Payment.intPart, Int.tdiv_eq_ediv_of_nonneg hnum]
  exact Rat.floor_def'.symm

structure Day.Due (day : Day) (users : Table ℤ User) (invitee inviterId : ℤ) : Prop where
  user : ∃ u, users.get? invitee = some u ∧ u.inviterId = inviterId ∧ u.deleted = false
  inviter : inviterId ≠ 0
  positive : 0 < ⌊day.product (day.consumption invitee)⌋

def Day.dueRecord (day : Day) (invitee inviterId : ℤ) : AffiliateCommissionDaily where
  inviterId := inviterId
  inviteeId := invitee
  inviteeQuota := day.consumption invitee
  commission := ⌊day.product (day.consumption invitee)⌋

theorem Day.Due.mem {invitee inviterId : ℤ} (hdue : day.Due users invitee inviterId)
    (h : day.due users = some (records, totals)) : day.dueRecord invitee inviterId ∈ records := by
  obtain ⟨consume, hscan, hbuild⟩ := map_eq_some_iff.1 h
  obtain ⟨rfl, -⟩ := Prod.mk.inj hbuild
  obtain ⟨u, huser, hinviter, hdeleted⟩ := hdue.user
  have hconsumption := consumption_of_scan hscan invitee
  have hpositive := hdue.positive
  cases hget : consume.get? invitee with
  | none =>
    -- nothing was consumed
    rw [hget, getD_none] at hconsumption
    rw [← hconsumption, day.product_zero, Int.floor_zero] at hpositive
    exact absurd hpositive (lt_irrefl 0)
  | some total =>
    rw [hget, getD_some] at hconsumption
    have hlookup : (loadInviterMapping users consume).lookup invitee = some inviterId :=
      (lookup_loadInviterMapping _ _ _ _).2
        ⟨by rw [hget]; rfl, u, huser, hinviter, hdue.inviter, hdeleted⟩
    refine mem_filterMap.2 ⟨(invitee, total), (get?_eq_some_iff _ _ _).1 hget, ?_⟩
    rw [hconsumption, record, hlookup, commission_eq_floor hpositive]
    dsimp only
    rw [if_neg (not_le.2 hpositive)]
    rfl

/-! ## Settlements -/

def Settler.Ok (day : Day) (users : Table ℤ User) : Settler → Prop
  | .unsettled => True
  | .scanned consumeByUser => day.scanConsumeByUser = some consumeByUser
  | .nothingDue => ∃ totals, day.due users = some ([], totals)
  | .due records totals => records ≠ [] ∧ day.due users = some (records, totals)
  | .done => True

/-- The three databases that a day goes through; `users` are the users at its start. -/
inductive Db.Ok (day : Day) (users : Table ℤ User) : Db → Prop
  | unsettled : Db.Ok day users { users := users }
  | nothingDue {totals : Table ℤ ℤ} (h : day.due users = some ([], totals)) :
    Db.Ok day users { users := users, records := [placeholder] }
  | settled {records : List AffiliateCommissionDaily} {totals : Table ℤ ℤ} (hne : records ≠ [])
      (h : day.due users = some (records, totals)) :
    Db.Ok day users { users := payInviters users totals, records := records }

structure State.Ok (day : Day) (users : Table ℤ User) (s : State) : Prop where
  db : s.db.Ok day users
  settlers : ∀ settler ∈ s.settlers, settler.Ok day users

theorem Db.Ok.sameUsers (h : db.Ok day users) : SameUsers users db.users := by
  cases h with
  | unsettled => rfl
  | nothingDue => rfl
  | settled => exact sameUsers_payInviters _ _

theorem conflicts_self (h : records ≠ []) : conflicts records records = true := by
  obtain ⟨r, hr⟩ := exists_mem_of_ne_nil _ h
  refine any_eq_true.2 ⟨r, hr, any_eq_true.2 ⟨r, hr, ?_⟩⟩
  rw [decide_eq_true rfl, decide_eq_true rfl]
  rfl

theorem Db.Ok.savePlaceholder (h : db.Ok day users) (hdue : day.due users = some ([], totals)) :
    db.savePlaceholder.Ok day users := by
  cases h with
  | unsettled => exact .nothingDue hdue
  | nothingDue hdue' => exact .nothingDue hdue'
  | settled hne hdue' =>
    rw [hdue'] at hdue
    exact absurd (Prod.mk.inj (some.inj hdue)).1 hne

theorem Db.Ok.settle (h : db.Ok day users) (hne : records ≠ [])
    (hdue : day.due users = some (records, totals)) : (db.settle records totals).Ok day users := by
  cases h with
  | unsettled =>
    have hnone : conflicts [] records = false := any_eq_false.2 fun _ _ => false_ne_true
    rw [Db.settle, hnone]
    exact .settled hne hdue
  | nothingDue hdue' =>
    rw [hdue] at hdue'
    exact absurd (Prod.mk.inj (some.inj hdue')).1 hne
  | settled hne' hdue' =>
    rw [hdue] at hdue'
    cases hdue'
    rw [Db.settle, conflicts_self hne]
    exact .settled hne hdue

theorem ok_afterScan (users : Table ℤ User) : (afterScan day.scanConsumeByUser).Ok day users := by
  cases hscan : day.scanConsumeByUser with
  | none => trivial
  | some consume =>
    rw [afterScan]
    split_ifs with hnil
    · refine ⟨∅, ?_⟩
      rw [Day.due, hscan, map_some, Day.buildCommissionRecords, hnil]
      rfl
    · exact hscan

theorem ok_afterLookup {users' : Table ℤ User} (hsame : SameUsers users users')
    {consume : Table ℤ ℤ} (hscan : day.scanConsumeByUser = some consume) :
    (afterLookup (day.buildCommissionRecords consume (loadInviterMapping users' consume))).Ok day
      users := by
  have hdue : day.due users =
      some (day.buildCommissionRecords consume (loadInviterMapping users' consume)) := by
    rw [Day.due, hscan, hsame.loadInviterMapping]
    rfl
  rw [afterLookup]
  split_ifs with hnil
  · exact ⟨_, hdue.trans (congrArg some (Prod.ext hnil rfl))⟩
  · exact ⟨hnil, hdue⟩

theorem State.Ok.set {s : State} (h : s.Ok day users) (hdb : db.Ok day users) (i : ℕ)
    {settler : Settler} (hsettler : settler.Ok day users) :
    State.Ok day users { db := db, settlers := s.settlers.set i settler } := by
  refine ⟨hdb, fun settler' hmem => ?_⟩
  rcases mem_or_eq_of_mem_set hmem with hmem | rfl
  · exact h.settlers _ hmem
  · exact hsettler

theorem State.Ok.step {s s' : State} {a : Action} (h : s.Ok day users)
    (hstep : step day s a = some s') : s'.Ok day users := by
  cases a with
  | check =>
    rw [Affiliate.step] at hstep
    split_ifs at hstep
    · cases hstep
      refine ⟨h.db, fun settler hmem => ?_⟩
      rcases mem_append.1 hmem with hmem | hmem
      · exact h.settlers _ hmem
      · rw [mem_singleton.1 hmem]
        trivial
    · exact some.inj hstep ▸ h
  | scan i =>
    rw [Affiliate.step] at hstep
    split at hstep
    · cases hstep
      exact h.set h.db i (ok_afterScan users)
    · exact (nomatch hstep)
  | lookup i =>
    rw [Affiliate.step] at hstep
    split at hstep
    · rename_i consume hsettler
      cases hstep
      exact h.set h.db i
        (ok_afterLookup h.db.sameUsers (h.settlers _ (mem_of_getElem? hsettler)))
    · exact (nomatch hstep)
  | commit i committed =>
    rw [Affiliate.step] at hstep
    split at hstep
    · rename_i hsettler
      obtain ⟨totals, hdue⟩ := h.settlers _ (mem_of_getElem? hsettler)
      cases hstep
      refine h.set ?_ i trivial
      split_ifs
      · exact h.db.savePlaceholder hdue
      · exact h.db
    · rename_i records totals hsettler
      obtain ⟨hne, hdue⟩ := h.settlers _ (mem_of_getElem? hsettler)
      cases hstep
      refine h.set ?_ i trivial
      split_ifs
      · exact h.db.settle hne hdue
      · exact h.db
    · exact (nomatch hstep)

/-! ## Once and in full -/

/-- The date in the database; `users` are the users before its settlement. -/
structure Settled (day : Day) (users : Table ℤ User) (db : Db) : Prop where
  once : (db.records.map (·.inviteeId)).Nodup
  paid : ∀ k u, users.get? k = some u → u.deleted = false → ∃ u', db.users.get? k = some u' ∧
    u'.affQuota = u.affQuota + commissionOf db.records k ∧
      u'.affHistory = u.affHistory + commissionOf db.records k
  full : db.records ≠ [] →
    (db.records = [placeholder] ∧ ∀ invitee inviterId, ¬ day.Due users invitee inviterId) ∨
      ∀ invitee inviterId, day.Due users invitee inviterId →
        day.dueRecord invitee inviterId ∈ db.records

theorem Db.Ok.get? (h : db.Ok day users) (k : ℤ) :
    db.users.get? k = (users.get? k).map fun u => u.paid (commissionOf db.records k) := by
  have hzero : users.get? k = (users.get? k).map fun u => u.paid 0 := by
    cases users.get? k with
    | none => rfl
    | some u => rw [map_some, User.paid_zero]
  cases h with
  | unsettled => exact hzero
  | nothingDue =>
    have hplaceholder : commissionOf [placeholder] k = 0 := by
      by_cases hk : (0 : ℤ) = k <;> simp [commissionOf, placeholder, hk]
    rw [hplaceholder]
    exact hzero
  | settled hne hdue =>
    rw [totals_due hdue]
    exact get?_payInviters _ _ _

theorem Db.Ok.isSettled (h : db.Ok day users) :
    Settled day users db where
  once := by
    cases h with
    | unsettled => exact nodup_nil
    | nothingDue => exact pairwise_singleton _ _
    | settled hne hdue => exact nodup_due hdue
  paid := by
    intro k u hget hdeleted
    refine ⟨u.paid (commissionOf db.records k), by rw [h.get?, hget]; rfl, ?_⟩
    rw [User.paid, hdeleted]
    exact ⟨rfl, rfl⟩
  full := by
    intro hrecords
    cases h with
    | unsettled => exact absurd rfl hrecords
    | nothingDue hdue =>
      exact .inl ⟨rfl, fun invitee inviterId hdue' => (nomatch hdue'.mem hdue)⟩
    | settled hne hdue => exact .inr fun invitee inviterId hdue' => hdue'.mem hdue

/-- However settlers interleave, fail or crash, a day is settled once and in full. -/
theorem commission_once {day : Day} {users : Table ℤ User} {l : List Action} {s : State}
    (h : Run.run (step day) { db := { users := users } } l = some s) : Settled day users s.db := by
  have hinit : State.Ok day users { db := { users := users } } := by
    refine ⟨.unsettled, fun settler hmem => ?_⟩
    exact (nomatch hmem)
  have hok : s.Ok day users := Run.invariant (fun _ _ _ hs hstep => State.Ok.step hs hstep) hinit h
  exact hok.db.isSettled

/-- A day with three consumptions at one time, read in pages of one row; the ratio is one tenth. -/
def sampleDay : Day where
  logs :=
    [{ id := 1, userId := 2, createdAt := 5, quota := 70 },
      { id := 2, userId := 3, createdAt := 5, quota := 40 },
      { id := 3, userId := 2, createdAt := 5, quota := 50 }]
  unique := by decide +kernel
  startSec := 0
  endSec := 10
  batchSize := 1
  strToMap := fun _ => none
  isPositive := fun _ => false
  product := fun consume => consume / 10
  product_zero := by rw [Int.cast_zero, zero_div]

def sampleUsers (deleted : Bool) : Table ℤ User :=
  ((Table.put ∅ 1 { deleted := deleted }).put 2 { inviterId := 1 }).put 3
    { inviterId := 1, deleted := deleted }

/-- Two processes settle the day side by side. -/
def sampleRun : List Action :=
  [.check, .check, .scan 0, .scan 1, .lookup 1, .lookup 0, .commit 1 true, .commit 0 true]

theorem commission_once_twoSettlers : ∃ s,
    Run.run (step sampleDay) { db := { users := sampleUsers false } } sampleRun = some s ∧
      Settled sampleDay (sampleUsers false) s.db ∧
      s.db.records = [⟨1, 2, 120, 12⟩, ⟨1, 3, 40, 4⟩] ∧
      (s.db.users.get? 1).map (·.affQuota) = some 16 := by
  exact exists_some_imp (by decide +kernel) fun s hs h => ⟨commission_once hs, h⟩

theorem commission_deleted : ∃ s,
    Run.run (step sampleDay) { db := { users := sampleUsers true } } sampleRun = some s ∧
      (s.db.users.get? 1).map (·.affQuota) = some 0 ∧ commissionOf s.db.records 1 = 12 ∧
      s.db.records ≠ [] ∧ s.db.records ≠ [placeholder] ∧
      ((sampleUsers true).get? 3).map (·.inviterId) = some 1 ∧
      0 < ⌊sampleDay.product (sampleDay.consumption 3)⌋ ∧
      3 ∉ s.db.records.map (·.inviteeId) := by
  decide +kernel

end BeeApi.Affiliate
