import BeeApi.Relay.Channel

/-!
# The channel under test and the hook before its updates

The columns of `model.Channel` that IQ reads and writes, the updates of `gorm` on a channel, and
`Channel.BeforeUpdate`: an update that writes a watched column takes a new revision and takes away what
IQ owns.
-/

namespace BeeApi.IQTest

open List

structure Channel where
  models : String := ""
  priority : Option Int64 := none
  status : ℤ := Relay.channelStatusEnabled
  degradeLevel : Option ℤ := some 0
  permanentDisabled : Option ℤ := some 0
  verifyDisabled : Option ℤ := some 0
  iqRevision : ℤ := 0
  iqBaselinePriority : Option Int64 := none
  iqAppliedPriority : Option Int64 := none
  iqDisabled : Bool := false
deriving DecidableEq

def Channel.getPriority (ch : Channel) : Int64 := ch.priority.getD 0

/-- The local `healthy` of the enforcer. -/
def Channel.healthy (ch : Channel) : Bool :=
  ch.degradeLevel.getD 0 = 0 && ch.permanentDisabled.getD 0 = 0 && ch.verifyDisabled.getD 0 = 0

/-- A column that IQ does not read: those that the hook watches, and the rest, by name. -/
inductive OtherColumn
  | modelMapping | key | baseURL | channelInfo | headerOverride | paramOverride | setting
  | named (name : String)
deriving DecidableEq

inductive ChannelColumn
  | priority | status | models | degradeLevel | permanentDisabled | verifyDisabled
  | iqRevision | iqBaselinePriority | iqAppliedPriority | iqDisabled
  | other (column : OtherColumn)
deriving DecidableEq

/-- A value for a column; of the columns that IQ does not read it matters only whether the value is the
zero value of its type. -/
inductive Assignment
  | priority (value : Option Int64)
  | status (value : ℤ)
  | models (value : String)
  | degradeLevel (value : Option ℤ)
  | permanentDisabled (value : Option ℤ)
  | verifyDisabled (value : Option ℤ)
  | iqRevision (value : ℤ)
  /-- `gorm.Expr("iq_revision + ?", 1)`. -/
  | nextRevision
  | iqBaselinePriority (value : Option Int64)
  | iqAppliedPriority (value : Option Int64)
  | iqDisabled (value : Bool)
  | other (column : OtherColumn) (zero : Bool)

def Assignment.target : Assignment → ChannelColumn
  | .priority _ => .priority
  | .status _ => .status
  | .models _ => .models
  | .degradeLevel _ => .degradeLevel
  | .permanentDisabled _ => .permanentDisabled
  | .verifyDisabled _ => .verifyDisabled
  | .iqRevision _ => .iqRevision
  | .nextRevision => .iqRevision
  | .iqBaselinePriority _ => .iqBaselinePriority
  | .iqAppliedPriority _ => .iqAppliedPriority
  | .iqDisabled _ => .iqDisabled
  | .other column _ => .other column

/-- The zero value of a field; a pointer is zero when it is nil. -/
def Assignment.isZero : Assignment → Bool
  | .priority value => value.isNone
  | .status value => value = 0
  | .models value => value = ""
  | .degradeLevel value => value.isNone
  | .permanentDisabled value => value.isNone
  | .verifyDisabled value => value.isNone
  | .iqRevision value => value = 0
  | .nextRevision => false
  | .iqBaselinePriority value => value.isNone
  | .iqAppliedPriority value => value.isNone
  | .iqDisabled value => !value
  | .other _ zero => zero

def Assignment.apply (ch : Channel) : Assignment → Channel
  | .priority value => { ch with priority := value }
  | .status value => { ch with status := value }
  | .models value => { ch with models := value }
  | .degradeLevel value => { ch with degradeLevel := value }
  | .permanentDisabled value => { ch with permanentDisabled := value }
  | .verifyDisabled value => { ch with verifyDisabled := value }
  | .iqRevision value => { ch with iqRevision := value }
  | .nextRevision => { ch with iqRevision := ch.iqRevision + 1 }
  | .iqBaselinePriority value => { ch with iqBaselinePriority := value }
  | .iqAppliedPriority value => { ch with iqAppliedPriority := value }
  | .iqDisabled value => { ch with iqDisabled := value }
  | .other _ _ => ch

/-- The list `watched` of the hook. -/
def watched : ChannelColumn → Bool
  | .priority | .status | .models | .degradeLevel | .permanentDisabled | .verifyDisabled => true
  | .other (.named _) => false
  | .other _ => true
  | _ => false

def ofIQ : ChannelColumn → Bool
  | .iqRevision | .iqBaselinePriority | .iqAppliedPriority | .iqDisabled => true
  | _ => false

/-- An update of a channel: the values of a map or of a struct, and the columns selected and omitted;
`selectAll` is the selection of `*`. -/
structure Update where
  isMap : Bool
  dest : List Assignment
  selectAll : Bool := false
  selects : List ChannelColumn := []
  omits : List ChannelColumn := []

namespace Update

/-- `SelectAndOmitColumns`: whether a column is selected or omitted by name. -/
def selected (u : Update) (c : ChannelColumn) : Option Bool :=
  if c ∈ u.omits then some false
  else if u.selectAll || u.selects.contains c then some true
  else none

/-- `SelectAndOmitColumns`: only selected columns are written. -/
def restricted (u : Update) : Bool := !u.selectAll && !u.selects.isEmpty

/-- Whether a value of the update is written: a struct writes its zero values only where they are
selected by name. -/
def writes (u : Update) (a : Assignment) : Bool :=
  match u.selected a.target with
  | some permitted => permitted
  | none => !u.restricted && (u.isMap || !a.isZero)

def run (u : Update) (ch : Channel) : Channel := (u.dest.filter u.writes).foldl Assignment.apply ch

/-- The local `touches` of the hook. -/
def touches (u : Update) : Bool := u.dest.any fun a => watched a.target && u.writes a

def beforeUpdate (u : Update) : Update :=
  if !u.touches then u
  else
    let updates := if u.isMap then u.dest else u.dest.filter u.writes
    { isMap := true
      dest := updates.filter (fun a => !ofIQ a.target) ++
        [.nextRevision, .iqBaselinePriority none, .iqAppliedPriority none, .iqDisabled false]
      selectAll := u.selectAll
      selects :=
        if u.selects.isEmpty || u.selectAll then u.selects
        else u.selects ++ [.iqRevision, .iqBaselinePriority, .iqAppliedPriority, .iqDisabled]
      omits := u.omits }

/-- The updates of the callers: the columns of IQ are never omitted, and are written only by an update
that writes a watched column, as one of a whole row. -/
def Regular (u : Update) : Prop :=
  (∀ c ∈ u.omits, ofIQ c = false) ∧ ∀ a ∈ u.dest, ofIQ a.target = true → u.writes a = true →
    u.touches = true

instance (u : Update) : Decidable u.Regular := inferInstanceAs (Decidable (_ ∧ _))

end Update

/-- An update of a channel, made by something other than IQ. -/
structure Edit extends Update where
  regular : toUpdate.Regular

def Edit.run (e : Edit) (ch : Channel) : Channel := e.beforeUpdate.run ch

namespace Update

theorem apply_ofIQ {a : Assignment} (h : ofIQ a.target = false) (ch : Channel) :
    (a.apply ch).iqRevision = ch.iqRevision ∧
      (a.apply ch).iqBaselinePriority = ch.iqBaselinePriority ∧
      (a.apply ch).iqAppliedPriority = ch.iqAppliedPriority ∧
      (a.apply ch).iqDisabled = ch.iqDisabled := by
  cases a
  case iqRevision | nextRevision | iqBaselinePriority | iqAppliedPriority | iqDisabled =>
    simp [ofIQ, Assignment.target] at h
  all_goals exact ⟨rfl, rfl, rfl, rfl⟩

theorem foldl_apply_revision {l : List Assignment} (h : ∀ a ∈ l, ofIQ a.target = false)
    (ch : Channel) : (l.foldl Assignment.apply ch).iqRevision = ch.iqRevision := by
  induction l generalizing ch with
  | nil => rfl
  | cons a l ih =>
    rw [foldl_cons, ih fun b hb => h b (mem_cons_of_mem a hb)]
    exact (apply_ofIQ (h a mem_cons_self) ch).1

theorem foldl_apply_eq_self {l : List Assignment}
    (h : ∀ a ∈ l, watched a.target = false ∧ ofIQ a.target = false) (ch : Channel) :
    l.foldl Assignment.apply ch = ch := by
  induction l with
  | nil => rfl
  | cons a l ih =>
    have happly : a.apply ch = ch := by
      obtain ⟨hwatched, hofIQ⟩ := h a mem_cons_self
      cases a
      case other => rfl
      case iqRevision | nextRevision | iqBaselinePriority | iqAppliedPriority | iqDisabled =>
        simp [ofIQ, Assignment.target] at hofIQ
      all_goals simp [watched, Assignment.target] at hwatched
    rw [foldl_cons, happly]
    exact ih fun b hb => h b (mem_cons_of_mem a hb)

theorem writes_beforeUpdate {u : Update} (homits : ∀ c ∈ u.omits, ofIQ c = false)
    (htouches : u.touches = true) {a : Assignment} (ha : ofIQ a.target = true) :
    u.beforeUpdate.writes a = true := by
  have homit : a.target ∉ u.omits := by
    intro hmem
    rw [homits _ hmem] at ha
    cases ha
  have htarget : a.target ∈ [ChannelColumn.iqRevision, .iqBaselinePriority, .iqAppliedPriority,
      .iqDisabled] := by
    generalize a.target = c at ha
    cases c <;> simp [ofIQ] at ha ⊢
  unfold beforeUpdate
  simp only [htouches, Bool.not_true, Bool.false_eq_true, if_false, writes, selected, if_neg homit,
    restricted]
  cases hall : u.selectAll with
  | true => simp
  | false =>
    cases hselects : u.selects with
    | nil => simp
    | cons c l =>
      have hmem : a.target ∈ c :: l ++ [ChannelColumn.iqRevision, .iqBaselinePriority,
          .iqAppliedPriority, .iqDisabled] := mem_append_right _ htarget
      simp only [isEmpty_cons, Bool.or_false, Bool.false_eq_true, if_false, Bool.false_or,
        contains_iff_mem.2 hmem, if_true]

end Update

namespace Edit

/-- An edit that writes a watched column takes a new revision and clears what IQ owns. -/
theorem run_of_touches (e : Edit) (htouches : e.touches = true) (ch : Channel) :
    (e.run ch).iqRevision = ch.iqRevision + 1 ∧ (e.run ch).iqBaselinePriority = none ∧
      (e.run ch).iqAppliedPriority = none ∧ (e.run ch).iqDisabled = false := by
  have hwrites : ∀ a : Assignment, ofIQ a.target = true → e.beforeUpdate.writes a = true :=
    fun a ha => Update.writes_beforeUpdate e.regular.1 htouches ha
  unfold Edit.run Update.run
  have hdest : ∃ l : List Assignment, e.beforeUpdate.dest = l.filter (fun a => !ofIQ a.target) ++
      [.nextRevision, .iqBaselinePriority none, .iqAppliedPriority none, .iqDisabled false] := by
    unfold Update.beforeUpdate
    rw [htouches]
    exact ⟨_, rfl⟩
  obtain ⟨l, hdest⟩ := hdest
  rw [hdest, filter_append, foldl_append]
  have hlast : [Assignment.nextRevision, .iqBaselinePriority none, .iqAppliedPriority none,
      .iqDisabled false].filter e.beforeUpdate.writes =
      [.nextRevision, .iqBaselinePriority none, .iqAppliedPriority none, .iqDisabled false] := by
    refine filter_eq_self.2 fun a ha => hwrites a ?_
    simp only [mem_cons, not_mem_nil, or_false] at ha
    rcases ha with rfl | rfl | rfl | rfl <;> rfl
  rw [hlast]
  refine ⟨?_, rfl, rfl, rfl⟩
  refine congrArg (· + 1) (Update.foldl_apply_revision (fun a ha => ?_) ch)
  have hnot := (mem_filter.1 (mem_filter.1 ha).1).2
  simpa using hnot

theorem run_of_not_touches (e : Edit) (htouches : e.touches = false) (ch : Channel) :
    e.run ch = ch := by
  unfold Edit.run Update.run Update.beforeUpdate
  rw [htouches]
  refine Update.foldl_apply_eq_self (fun a ha => ?_) ch
  obtain ⟨hmem, hwrites⟩ := mem_filter.1 ha
  constructor
  · have hnone := any_eq_false.1 htouches a hmem
    cases hwatched : watched a.target with
    | false => rfl
    | true => exact absurd (by rw [hwatched]; exact hwrites) hnone
  · cases hofIQ : ofIQ a.target with
    | false => rfl
    | true =>
      have htrue := e.regular.2 a hmem hofIQ hwrites
      rw [htouches] at htrue
      cases htrue

/-- A new priority. -/
example : (Edit.run ⟨{ isMap := true, dest := [.priority (some 150)] }, by decide⟩
    { priority := some 90, iqBaselinePriority := some 100, iqAppliedPriority := some 90 }) =
      { priority := some 150, iqRevision := 1 } := by decide

end Edit

end BeeApi.IQTest
