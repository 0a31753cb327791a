import BeeApi.Relay.Status

/-!
# Status changes beside counters and health

`UpdateChannelStatus` reads the row of a channel and later saves every column but the key, while the
used quota and the columns of the health state machine are written by statements of their own.  These
follow the abstract machine `Protected` exactly as long as every save finds them as its read left them.
-/

namespace BeeApi.Relay

/-- The used quota, and what the health state machine has written. -/
structure Protected where
  usedQuota : ℤ
  priority : Option ℤ
  weight : Option ℕ
  degradeLevel : Option ℤ
  originalPriority : Option ℤ
  originalWeight : Option ℕ

def Channel.protectedPart (channel : Channel) : Protected where
  usedQuota := channel.usedQuota
  priority := channel.priority
  weight := channel.weight
  degradeLevel := channel.degradeLevel
  originalPriority := channel.originalPriority
  originalWeight := channel.originalWeight

/-- The columns of a call of `UpdateChannelHealthFields`; a column without a value is not written. -/
structure HealthFields where
  priority : Option ℤ := none
  weight : Option ℕ := none
  degradeLevel : Option ℤ := none
  originalPriority : Option ℤ := none
  originalWeight : Option ℕ := none
  lastDemoteAt : Option ℤ := none
  lastUpgradeAt : Option ℤ := none
  lastDemoteReason : Option String := none

/-- A status change reads the row and saves it; the used quota is incremented, at once or by a flush of
the batch updater; the health state machine writes its columns. -/
inductive RowStep where
  | readStatus (pid : ℕ) (call : StatusCall)
  | saveStatus (pid : ℕ)
  | updateChannelUsedQuota (quota : ℤ)
  | flushUsedQuota (delta : ℤ)
  | updateChannelHealthFields (fields : HealthFields)

/-- What the writers mean: increments add up, and the last written value counts. -/
def Protected.step (p : Protected) : RowStep → Protected
  | .readStatus _ _ => p
  | .saveStatus _ => p
  | .updateChannelUsedQuota quota => { p with usedQuota := p.usedQuota + quota }
  | .flushUsedQuota delta => { p with usedQuota := p.usedQuota + delta }
  | .updateChannelHealthFields fields =>
    { p with
      priority := fields.priority <|> p.priority
      weight := fields.weight <|> p.weight
      degradeLevel := fields.degradeLevel <|> p.degradeLevel
      originalPriority := fields.originalPriority <|> p.originalPriority
      originalWeight := fields.originalWeight <|> p.originalWeight }

def RowStep.increment : RowStep → ℤ
  | .updateChannelUsedQuota quota => quota
  | .flushUsedQuota delta => delta
  | _ => 0

/-- The row, and the status changes between their read and their save. -/
structure RowState where
  row : Channel
  pending : Table ℕ (Channel × StatusCall) := ∅

def addUsedQuota (row : Channel) (quota : ℤ) : Channel :=
  { row with usedQuota := row.usedQuota + quota }

def updateHealthFields (row : Channel) (fields : HealthFields) : Channel :=
  { row with
    priority := fields.priority <|> row.priority
    weight := fields.weight <|> row.weight
    degradeLevel := fields.degradeLevel <|> row.degradeLevel
    originalPriority := fields.originalPriority <|> row.originalPriority
    originalWeight := fields.originalWeight <|> row.originalWeight
    lastDemoteAt := fields.lastDemoteAt <|> row.lastDemoteAt
    lastUpgradeAt := fields.lastUpgradeAt <|> row.lastUpgradeAt
    lastDemoteReason := fields.lastDemoteReason <|> row.lastDemoteReason }

/-- A step of a writer.  A status change that returns early saves nothing. -/
def rowStep (env : ChannelEnv) (s : RowState) : RowStep → Option RowState
  | .readStatus pid call =>
    match updatedStatusRow env s.row call with
    | none => some s
    | some _ => (s.pending.insert? pid (s.row, call)).map fun pending => { s with pending }
  | .saveStatus pid =>
    match s.pending.get? pid with
    | none => none
    | some (snapshot, call) =>
      match updatedStatusRow env snapshot call with
      | none => none
      | some (updated, _) =>
        some
          { row := if call.saves then { updated with key := s.row.key } else s.row
            pending := s.pending.erase pid }
  | .updateChannelUsedQuota quota => some { s with row := addUsedQuota s.row quota }
  | .flushUsedQuota delta => some { s with row := addUsedQuota s.row delta }
  | .updateChannelHealthFields fields => some { s with row := updateHealthFields s.row fields }

/-- A save finds the counter and the health columns as its read left them. -/
def SavesWhatItRead (s : RowState) : RowStep → Prop
  | .saveStatus pid => ∀ snapshot call, s.pending.get? pid = some (snapshot, call) →
    call.saves = true → snapshot.protectedPart = s.row.protectedPart
  | _ => True

theorem handlerMultiKeyUpdate_eq (env : ChannelEnv) (channel : Channel) (call : StatusCall) :
    ∃ status info otherInfo, handlerMultiKeyUpdate env channel call =
      { channel with status := status, channelInfo := info, otherInfo := otherInfo } := by
  unfold handlerMultiKeyUpdate
  dsimp only
  split
  · exact ⟨call.status, channel.channelInfo, channel.otherInfo, rfl⟩
  split
  · exact ⟨call.status, channel.channelInfo, channel.otherInfo, rfl⟩
  split
  · exact ⟨channel.status, channel.channelInfo, channel.otherInfo, rfl⟩
  split
  · exact ⟨_, _, _, rfl⟩
  split
  · exact ⟨_, _, channel.otherInfo, rfl⟩
  · exact ⟨channel.status, _, channel.otherInfo, rfl⟩

theorem updatedStatusRow_protectedPart {env : ChannelEnv} {channel updated : Channel}
    {call : StatusCall} {b : Bool} (h : updatedStatusRow env channel call = some (updated, b)) :
    updated.protectedPart = channel.protectedPart := by
  obtain ⟨status, info, otherInfo, hmulti⟩ := handlerMultiKeyUpdate_eq env channel call
  unfold updatedStatusRow at h
  rw [hmulti] at h
  split at h
  · cases h
  · cases h
    split
    · split <;> rfl
    · split <;> rfl

/-- A step does to the counter and the health columns what it means exactly when it saves what it
read. -/
theorem protectedPart_step_iff {env : ChannelEnv} {s s' : RowState} {a : RowStep}
    (h : rowStep env s a = some s') :
    s'.row.protectedPart = s.row.protectedPart.step a ↔ SavesWhatItRead s a := by
  cases a with
  | readStatus pid call =>
    refine ⟨fun _ => trivial, fun _ => ?_⟩
    rw [rowStep] at h
    split at h
    · cases h
      rfl
    · obtain ⟨pending, -, rfl⟩ := Option.map_eq_some_iff.1 h
      rfl
  | saveStatus pid =>
    rw [rowStep] at h
    cases hpending : s.pending.get? pid with
    | none =>
      rw [hpending] at h
      cases h
    | some r =>
      obtain ⟨snapshot, call⟩ := r
      rw [hpending] at h
      dsimp only at h
      cases hupdated : updatedStatusRow env snapshot call with
      | none =>
        rw [hupdated] at h
        cases h
      | some r =>
        obtain ⟨updated, b⟩ := r
        rw [hupdated] at h
        cases h
        have hsnapshot := updatedStatusRow_protectedPart hupdated
        have hsave : SavesWhatItRead s (.saveStatus pid) ↔
            (call.saves = true → snapshot.protectedPart = s.row.protectedPart) := by
          constructor
          · exact fun hok => hok snapshot call hpending
          · intro hok snapshot' call' hpending'
            rw [hpending] at hpending'
            cases hpending'
            exact hok
        rw [hsave, ← hsnapshot]
        cases hsaves : call.saves with
        | false => simp [Protected.step]
        | true => exact ⟨fun heq _ => heq, fun hok => hok rfl⟩
  | updateChannelUsedQuota | flushUsedQuota | updateChannelHealthFields =>
    cases h
    exact ⟨fun _ => trivial, fun _ => rfl⟩

theorem usedQuota_foldl (steps : List RowStep) (p : Protected) :
    (steps.foldl Protected.step p).usedQuota = p.usedQuota + (steps.map RowStep.increment).sum := by
  induction steps generalizing p with
  | nil => simp
  | cons a steps ih =>
    rw [List.foldl_cons, ih, List.map_cons, List.sum_cons]
    cases a <;> simp [Protected.step, RowStep.increment, add_assoc]

/-- The used quota is the initial value with all increments, and the columns of the health state machine
are what it has written last, exactly when every save finds them as its read left them. -/
theorem nothing_lost_iff {env : ChannelEnv} {steps : List RowStep} {start s : RowState}
    (h : Run.run (rowStep env) start steps = some s) :
    (∀ before after, steps = before ++ after → ∀ s', Run.run (rowStep env) start before = some s' →
        s'.row.protectedPart = before.foldl Protected.step start.row.protectedPart ∧
        s'.row.usedQuota = start.row.usedQuota + (before.map RowStep.increment).sum) ↔
      Run.Along (rowStep env) SavesWhatItRead start steps := by
  have hsum : ∀ (s' : RowState) (before : List RowStep) (p : Protected),
      s'.row.protectedPart = before.foldl Protected.step p →
        s'.row.usedQuota = p.usedQuota + (before.map RowStep.increment).sum := by
    intro s' before p heq
    rw [← usedQuota_foldl, ← heq]
    rfl
  have hbooks := Run.forall_prefix_iff_along (I := fun _ => True) (f := Protected.step)
    (P := fun s p => s.row.protectedPart = p) (fun _ _ _ _ _ => trivial)
    (fun s p a s' _ hp hs => by rw [← hp]; exact protectedPart_step_iff hs) trivial rfl h
  rw [← hbooks]
  refine forall₅_congr fun before after _ s' _ => ?_
  exact ⟨fun hall => hall.1, fun hparts => ⟨hparts, hsum s' before _ hparts⟩⟩

/-- A status change that is not interrupted, and an increment after it. -/
theorem nothing_lost_of_uninterrupted :
    ∃ s, Run.run (rowStep {}) { row := { usedQuota := 10 } }
        [.readStatus 1 { channelId := 1, status := 3 }, .saveStatus 1, .updateChannelUsedQuota 7] =
          some s ∧ s.row.status = 3 ∧ s.row.usedQuota = 17 := by
  have halong : Run.Along (rowStep {}) SavesWhatItRead { row := { usedQuota := 10 } }
      [.readStatus 1 { channelId := 1, status := 3 }, .saveStatus 1,
        .updateChannelUsedQuota 7] := by
    refine ⟨trivial, fun snapshot call hpending _ => ?_, trivial, trivial⟩
    cases hpending
    rfl
  exact Option.exists_some_imp (by decide +kernel) fun s h hstatus =>
    ⟨hstatus, ((nothing_lost_iff h).2 halong _ [] (List.append_nil _).symm s h).2⟩

theorem increment_lost_between_read_and_save :
    ∃ s, Run.run (rowStep {}) { row := { usedQuota := 10 } }
        [.readStatus 1 { channelId := 1, status := 3 }, .updateChannelUsedQuota 7, .saveStatus 1] =
          some s ∧
      s.row.usedQuota ≠ 10 + (([.readStatus 1 { channelId := 1, status := 3 },
        .updateChannelUsedQuota 7, .saveStatus 1] : List RowStep).map RowStep.increment).sum := by
  decide +kernel

end BeeApi.Relay
