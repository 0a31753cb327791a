import BeeApi.Subscription.Group

/-!
# What a purchase writes

A purchase adds one subscription and changes the group of the buyer, nothing else.
-/

namespace BeeApi.Subscription

open Strings Option Table Except

theorem setUserGroup_users (db : Db) (userId : ℤ) (group : String) :
    (setUserGroup db userId group).users = db.users ∨
      (setUserGroup db userId group).users = db.users.modify userId fun u => { u with group } := by
  unfold setUserGroup
  cases hu : db.users.updateRow userId (fun u => u.deletedAt.isNone) fun u => { u with group } with
  | none => exact .inl rfl
  | some users =>
    obtain ⟨u, hget, -, rfl⟩ := (updateRow_eq_some_iff _ _ _ _ _).1 hu
    exact .inr rfl

variable {db db' : Db} {userId buyer : ℤ} {group : String}

theorem get?_setUserGroup_of_ne (h : buyer ≠ userId) :
    (setUserGroup db buyer group).users.get? userId = db.users.get? userId := by
  obtain heq | heq := setUserGroup_users db buyer group
  · rw [heq]
  · rw [heq, get?_modify_of_ne _ _ (Ne.symm h)]

def UserIn (userId : ℤ) (db : Db) (group : String) : Prop :=
  ∃ u, db.users.get? userId = some u ∧ u.deletedAt = none ∧ u.group = group

instance (userId : ℤ) (db : Db) (group : String) : Decidable (UserIn userId db group) :=
  decidable_of_iff ((db.users.get? userId).any fun u => u.deletedAt = none && u.group = group) (by
    simp [UserIn, any_eq_true])

theorem userIn_setUserGroup {group' : String} (h : UserIn userId db group) :
    UserIn userId (setUserGroup db userId group') group' := by
  obtain ⟨u, hget, hlive, -⟩ := h
  refine ⟨{ u with group := group' }, ?_, hlive, rfl⟩
  unfold setUserGroup
  rw [(updateRow_eq_some_iff _ _ _ _ _).2 ⟨u, hget, by simp [hlive], rfl⟩]
  rw [getD_some, get?_modify_self, hget, map_some]

theorem getUserGroup_of_userIn {currentGroup : String} (h : UserIn userId db group)
    (hget : getUserGroupByIdTx db userId = .ok currentGroup) : currentGroup = group := by
  obtain ⟨u, hu, hlive, rfl⟩ := h
  unfold getUserGroupByIdTx at hget
  split_ifs at hget
  rw [hu] at hget
  simp only [hlive, isNone_none, if_true] at hget
  exact (Except.ok.inj hget).symm

def SameButGroup (users users' : Table ℤ User) : Prop :=
  Table.Rel (fun _ u u' => u' = { u with group := u'.group }) users users'

theorem SameButGroup.refl (users : Table ℤ User) : SameButGroup users users :=
  Table.Rel.refl fun _ _ _ => rfl

theorem sameButGroup_setUserGroup (db : Db) (userId : ℤ) (group : String) :
    SameButGroup db.users (setUserGroup db userId group).users := by
  obtain heq | heq := setUserGroup_users db userId group
  · rw [heq]
    exact SameButGroup.refl _
  · rw [heq]
    exact rel_modify (fun _ _ => rfl) fun _ _ _ => rfl

theorem upgradeUserGroup_of_ok {upgradeGroup prevGroup : String}
    (h : upgradeUserGroup db userId upgradeGroup = .ok (db', prevGroup)) :
    db' = { db with users := db'.users } ∧ SameButGroup db.users db'.users ∧
      ∀ other, userId ≠ other → db'.users.get? other = db.users.get? other := by
  unfold upgradeUserGroup at h
  split at h
  · cases h
    exact ⟨rfl, SameButGroup.refl _, fun _ _ => rfl⟩
  obtain ⟨currentGroup, -, h⟩ := bind_eq_ok_iff.1 h
  split_ifs at h
  · cases h
    exact ⟨rfl, sameButGroup_setUserGroup _ _ _, fun _ hne => get?_setUserGroup_of_ne hne⟩
  · cases h
    exact ⟨rfl, SameButGroup.refl _, fun _ _ => rfl⟩

theorem create_of_ok {zone now planId id : ℤ} {plan : SubscriptionPlan}
    (h : createUserSubscriptionFromPlanTx zone db now buyer planId plan = .ok (db', id)) :
    ∃ db₁ prevGroup endTime sub, calcPlanEndTime zone now plan = .ok endTime ∧
      upgradeUserGroup db buyer (trimSpace plan.upgradeGroup) = .ok (db₁, prevGroup) ∧
      id = db₁.userSubscriptions.nextKey ∧
      db' = { db₁ with userSubscriptions := db₁.userSubscriptions.put id sub } ∧
      sub.userId = buyer ∧ sub.status = .active ∧ sub.endTime = endTime ∧
      sub.upgradeGroup = trimSpace plan.upgradeGroup ∧ sub.prevUserGroup = prevGroup ∧
      sub.planId = planId := by
  unfold createUserSubscriptionFromPlanTx at h
  split at h
  · cases h
  split at h
  · cases h
  split at h
  · cases h
  obtain ⟨_, -, h⟩ := bind_eq_ok_iff.1 h
  obtain ⟨endTime, hend, h⟩ := bind_eq_ok_iff.1 h
  obtain ⟨⟨db₁, prevGroup⟩, hup, h⟩ := bind_eq_ok_iff.1 h
  cases h
  exact ⟨db₁, prevGroup, endTime, _, hend, hup, rfl, rfl, rfl, rfl, rfl, rfl, rfl, rfl⟩

theorem createUserSubscriptionFromPlanTx_of_ok {zone now planId id : ℤ} {plan : SubscriptionPlan}
    (h : createUserSubscriptionFromPlanTx zone db now buyer planId plan = .ok (db', id)) :
    ∃ sub, db.userSubscriptions.get? id = none ∧ sub.userId = buyer ∧ sub.planId = planId ∧
      db' = { db with
        users := db'.users, userSubscriptions := db.userSubscriptions.put id sub } ∧
      SameButGroup db.users db'.users := by
  obtain ⟨db₁, _, _, sub, -, hup, rfl, rfl, hbuyer, -, -, -, -, hplan⟩ := create_of_ok h
  obtain ⟨hdb₁, hgroup, -⟩ := upgradeUserGroup_of_ok hup
  have hsubs : db₁.userSubscriptions = db.userSubscriptions := by rw [hdb₁]
  refine ⟨sub, ?_, hbuyer, hplan, ?_, hgroup⟩
  · rw [hsubs]
    exact get?_nextKey _
  · rw [hsubs]
    rw [hdb₁]

end BeeApi.Subscription
