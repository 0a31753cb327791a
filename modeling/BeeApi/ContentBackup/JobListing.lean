import BeeApi.Lib.Strings
import BeeApi.Lib.Window
import Mathlib.Data.List.Sort
import Mathlib.Data.Prod.Lex

/-!
# The listing of the jobs

`ListJobs` pages through the jobs of a site by a key of up to three columns: the cursor names the last
row of a page, and the next page is what the order has behind it.
-/

namespace BeeApi.ContentBackup

open Strings List

/-- `model.ContentBackupJob`, the columns that `ListJobs` reads. -/
structure ListedJob where
  siteID : String
  jobID : String
  createdAt : ℤ
  status : String := "pending"
  cleanupState : String := ""
  requestID : String := ""
  storageNodeID : String := ""
  sessionSource : String := ""
  sessionHash : String := ""
  userID : ℤ := 0
  channelID : ℤ := 0

/-- `model.ContentBackupJobFilter`; the instants are what `contentBackupUnix` makes of them. -/
structure ContentBackupJobFilter where
  view : String := ""
  status : String := ""
  cleanupState : String := ""
  requestID : String := ""
  storageNodeID : String := ""
  sessionSource : String := ""
  sessionHash : String := ""
  cursor : String := ""
  userID : Option ℤ := none
  channelID : Option ℤ := none
  fromTime : Option ℤ := none
  toTime : Option ℤ := none
  pageSize : ℤ := 0

structure ContentBackupJobPage where
  items : List ListedJob
  nextCursor : Option String
  hasMore : Bool

structure ContentBackupCursor where
  rank : ℤ
  createdAt : ℤ
  jobID : String
deriving DecidableEq

def contentBackupDefaultPageSize : ℕ := 20

def contentBackupMaxPageSize : ℕ := 100

/-- `encoding/json` for a cursor, and `base64.RawURLEncoding`. -/
structure Encoding where
  marshal : ContentBackupCursor → String
  unmarshal : String → Option ContentBackupCursor
  encodeToString : String → String
  decodeString : String → Option String

def encodeContentBackupCursor (enc : Encoding) (cursor : ContentBackupCursor) : String :=
  enc.encodeToString (enc.marshal cursor)

def decodeContentBackupCursor (enc : Encoding) (value : String) :
    Except String ContentBackupCursor :=
  match (enc.decodeString (trimSpace value)).bind enc.unmarshal with
  | none => .error "decode content backup cursor"
  | some cursor =>
    if cursor.jobID = "" then .error "content backup cursor is incomplete" else .ok cursor

def contentBackupQueueRank (status : String) : ℤ :=
  if status = "failed" then 0 else if status = "processing" then 1 else 2

/-- `contentBackupQueueStatusOrder`, the `CASE` of the statements. -/
def contentBackupQueueStatusOrder (status : String) : ℤ :=
  match ([("failed", 0), ("processing", 1)] : List (String × ℤ)).lookup status with
  | some rank => rank
  | none => 2

/-! ## The statement -/

section Statement

variable {κ : Type} [LinearOrder κ] (enc : Encoding) (collate : String → κ)

def ContentBackupJobFilter.queue (filter : ContentBackupJobFilter) : Bool :=
  equalFold filter.view "queue"

def ContentBackupJobFilter.size (filter : ContentBackupJobFilter) : ℕ :=
  if filter.pageSize ≤ 0 then contentBackupDefaultPageSize
  else if (contentBackupMaxPageSize : ℤ) < filter.pageSize then contentBackupMaxPageSize
  else filter.pageSize.toNat

/-- The conditions of the filter, without the one of the cursor. -/
def ContentBackupJobFilter.selects (filter : ContentBackupJobFilter) (siteID : String)
    (job : ListedJob) : Bool :=
  let equals := fun (wanted column : String) => wanted = "" || column = wanted
  job.siteID = siteID &&
    (if filter.status ≠ "" then decide (job.status = filter.status)
      else !filter.queue || ["pending", "processing", "failed"].contains job.status) &&
    equals filter.cleanupState job.cleanupState && equals filter.requestID job.requestID &&
    equals filter.storageNodeID job.storageNodeID &&
    equals filter.sessionSource job.sessionSource && equals filter.sessionHash job.sessionHash &&
    (filter.userID.all fun id => job.userID = id) &&
    (filter.channelID.all fun id => job.channelID = id) &&
    (filter.fromTime.all fun t => t ≤ job.createdAt) &&
    (filter.toTime.all fun t => job.createdAt ≤ t)

def behindCursor (queue : Bool) (cursor : ContentBackupCursor) (job : ListedJob) : Bool :=
  let rank := contentBackupQueueStatusOrder job.status
  if queue then
    decide (cursor.rank < rank) ||
      (decide (rank = cursor.rank) && decide (cursor.createdAt < job.createdAt)) ||
      (decide (rank = cursor.rank) && decide (job.createdAt = cursor.createdAt) &&
        decide (collate cursor.jobID < collate job.jobID))
  else
    decide (job.createdAt < cursor.createdAt) ||
      (decide (job.createdAt = cursor.createdAt) && decide (collate job.jobID < collate cursor.jobID))

def orderedBy (queue : Bool) (a b : ListedJob) : Bool :=
  let rank := fun job : ListedJob => contentBackupQueueStatusOrder job.status
  if queue then
    decide (rank a < rank b) || (decide (rank a = rank b) &&
      (decide (a.createdAt < b.createdAt) ||
        (decide (a.createdAt = b.createdAt) && decide (collate a.jobID ≤ collate b.jobID))))
  else
    decide (b.createdAt < a.createdAt) ||
      (decide (b.createdAt = a.createdAt) && decide (collate b.jobID ≤ collate a.jobID))

def cursorOf (job : ListedJob) : ContentBackupCursor where
  rank := contentBackupQueueRank job.status
  createdAt := job.createdAt
  jobID := job.jobID

def listJobs (jobs : List ListedJob) (siteID : String) (filter : ContentBackupJobFilter) :
    Except String ContentBackupJobPage :=
  let selected := jobs.filter (filter.selects siteID)
  let page := fun rows : List ListedJob =>
    let items := (rows.insertionSort (orderedBy collate filter.queue · ·)).take (filter.size + 1)
    let hasMore := decide (filter.size < items.length)
    let items := items.take filter.size
    let nextCursor := if hasMore then
      items.getLast?.map fun last => encodeContentBackupCursor enc (cursorOf last) else none
    ({ items, nextCursor, hasMore } : ContentBackupJobPage)
  if trimSpace filter.cursor ≠ "" then
    decodeContentBackupCursor enc filter.cursor >>= fun cursor =>
      .ok (page (selected.filter (behindCursor collate filter.queue cursor)))
  else .ok (page selected)

/-- Follow `NextCursor` until `HasMore` is false. -/
def walkJobs (jobs : List ListedJob) (siteID : String) :
    ℕ → ContentBackupJobFilter → Option (Except String (List (List ListedJob)))
  | 0, _ => none
  | fuel + 1, filter =>
    match listJobs enc collate jobs siteID filter with
    | .error e => some (.error e)
    | .ok page =>
      if page.hasMore then
        (walkJobs jobs siteID fuel { filter with cursor := page.nextCursor.getD "" }).map
          fun pages => pages.map (page.items :: ·)
      else some (.ok [page.items])

end Statement

/-! ## The orders of the views -/

section Orders

variable {κ : Type} [LinearOrder κ] {collate : String → κ}

def queueKey (collate : String → κ) (job : ListedJob) : ℤ ×ₗ ℤ ×ₗ κ :=
  toLex (contentBackupQueueRank job.status, toLex (job.createdAt, collate job.jobID))

def historyKey (collate : String → κ) (job : ListedJob) : ℤ ×ₗ κ :=
  toLex (job.createdAt, collate job.jobID)

/-- The order of a view: the queue ascends, the history descends. -/
def ComesBefore (collate : String → κ) (queue : Bool) (a b : ListedJob) : Prop :=
  if queue then queueKey collate a < queueKey collate b
  else historyKey collate b < historyKey collate a

theorem contentBackupQueueStatusOrder_eq (status : String) :
    contentBackupQueueStatusOrder status = contentBackupQueueRank status := by
  unfold contentBackupQueueStatusOrder contentBackupQueueRank
  by_cases hfailed : status = "failed"
  · subst hfailed
    rfl
  by_cases hprocessing : status = "processing"
  · subst hprocessing
    rfl
  simp [lookup_cons, hfailed, hprocessing, beq_eq_false_iff_ne.2 hfailed,
    beq_eq_false_iff_ne.2 hprocessing]

theorem orderedBy_iff (queue : Bool) (a b : ListedJob) : orderedBy collate queue a b = true ↔
    if queue then queueKey collate a ≤ queueKey collate b
    else historyKey collate b ≤ historyKey collate a := by
  unfold orderedBy queueKey historyKey
  simp only [contentBackupQueueStatusOrder_eq]
  cases queue <;> simp [Prod.Lex.toLex_le_toLex]

theorem behindCursor_cursorOf (queue : Bool) (a b : ListedJob) :
    behindCursor collate queue (cursorOf a) b = true ↔ ComesBefore collate queue a b := by
  unfold behindCursor ComesBefore queueKey historyKey cursorOf
  simp only [contentBackupQueueStatusOrder_eq]
  cases queue with
  | true =>
    simp [Prod.Lex.toLex_lt_toLex, @eq_comm _ (contentBackupQueueRank b.status),
      @eq_comm _ b.createdAt]
    tauto
  | false => simp [Prod.Lex.toLex_lt_toLex]

end Orders

/-! ## The walk -/

structure Encoding.ReadsBack (enc : Encoding) (cursor : ContentBackupCursor) : Prop where
  json : enc.unmarshal (enc.marshal cursor) = some cursor
  base64 : enc.decodeString (encodeContentBackupCursor enc cursor) = some (enc.marshal cursor)
  trimmed : trimSpace (encodeContentBackupCursor enc cursor) = encodeContentBackupCursor enc cursor
  nonempty : encodeContentBackupCursor enc cursor ≠ ""

section Walk

variable {κ K : Type} [LinearOrder κ] [LinearOrder K] {enc : Encoding} {collate : String → κ}
  {key : ListedJob → K} {jobs : List ListedJob} {siteID : String} {filter : ContentBackupJobFilter}

/-- The rows of the filter in the order of the view. -/
def listed (collate : String → κ) (jobs : List ListedJob) (siteID : String)
    (filter : ContentBackupJobFilter) : List ListedJob :=
  (jobs.filter (filter.selects siteID)).insertionSort (orderedBy collate filter.queue · ·)

theorem pairwise_insertionSort_key
    (horder : ∀ a b, orderedBy collate filter.queue a b = true ↔ key a ≤ key b)
    (rows : List ListedJob) :
    (rows.insertionSort (orderedBy collate filter.queue · ·)).Pairwise fun a b => key a ≤ key b := by
  have htotal : Std.Total (orderedBy collate filter.queue · · : ListedJob → ListedJob → Prop) :=
    ⟨fun a b => by simpa only [horder] using le_total (key a) (key b)⟩
  have htrans : IsTrans ListedJob (orderedBy collate filter.queue · ·) :=
    ⟨fun a b c hab hbc => (horder a c).2 (((horder a b).1 hab).trans ((horder b c).1 hbc))⟩
  exact (pairwise_insertionSort (orderedBy collate filter.queue · ·) rows).imp
    fun h => (horder _ _).1 h

theorem ascending_listed (horder : ∀ a b, orderedBy collate filter.queue a b = true ↔ key a ≤ key b)
    (hunique : ((jobs.filter (filter.selects siteID)).map key).Nodup) :
    Window.Ascending key (listed collate jobs siteID filter) := by
  have hperm := perm_insertionSort (orderedBy collate filter.queue · ·)
    (jobs.filter (filter.selects siteID))
  have hne := pairwise_map.1 ((hperm.map key).nodup_iff.2 hunique)
  exact ((pairwise_insertionSort_key horder _).and hne).imp fun h => lt_of_le_of_ne h.1 h.2

variable {done rest : List ListedJob}

theorem insertionSort_behind
    (horder : ∀ a b, orderedBy collate filter.queue a b = true ↔ key a ≤ key b)
    (hbehind : ∀ a b, behindCursor collate filter.queue (cursorOf a) b = true ↔ key a < key b)
    (hunique : ((jobs.filter (filter.selects siteID)).map key).Nodup)
    (hsplit : listed collate jobs siteID filter = done ++ rest) {last : ListedJob}
    (hlast : done.getLast? = some last) :
    ((jobs.filter (filter.selects siteID)).filter
        (behindCursor collate filter.queue (cursorOf last))).insertionSort
          (orderedBy collate filter.queue · ·) = rest := by
  have hascending := ascending_listed horder hunique
  rw [hsplit] at hascending
  have hrest : (done ++ rest).filter (behindCursor collate filter.queue (cursorOf last)) = rest := by
    refine Eq.trans (filter_congr fun job _ => ?_) (Window.filter_lt_getLast hascending hlast)
    rw [Bool.eq_iff_iff, hbehind, decide_eq_true_eq]
  have hperm : ((jobs.filter (filter.selects siteID)).filter
      (behindCursor collate filter.queue (cursorOf last))).insertionSort
        (orderedBy collate filter.queue · ·) |>.Perm rest := by
    refine (perm_insertionSort _ _).trans ?_
    rw [← hrest, ← hsplit]
    exact (perm_insertionSort _ _).symm.filter _
  have hsorted : rest.Pairwise fun a b => key a < key b := (pairwise_append.1 hascending).2.1
  refine hperm.eq_of_pairwise (fun a b ha hb hab hba => ?_) (pairwise_insertionSort_key horder _)
    (hsorted.imp le_of_lt)
  have hmem := hperm.mem_iff.1 ha
  exact Window.Ascending.eq_of_key_eq hsorted hmem hb (le_antisymm hab hba)

/-- The page of a statement that finds these rows. -/
def pageOf (enc : Encoding) (size : ℕ) (rest : List ListedJob) : ContentBackupJobPage where
  items := rest.take size
  nextCursor := if size < rest.length then
    (rest.take size).getLast?.map fun last => encodeContentBackupCursor enc (cursorOf last) else none
  hasMore := decide (size < rest.length)

theorem pageOf_eq (size : ℕ) (rest : List ListedJob) :
    let items := rest.take (size + 1)
    let hasMore := decide (size < items.length)
    let items := items.take size
    let nextCursor := if hasMore then
      items.getLast?.map fun last => encodeContentBackupCursor enc (cursorOf last) else none
    ({ items, nextCursor, hasMore } : ContentBackupJobPage) = pageOf enc size rest := by
  have hmore : size < (rest.take (size + 1)).length ↔ size < rest.length := by
    rw [length_take]
    omega
  unfold pageOf
  simp only [hmore, take_take, Nat.min_eq_left (Nat.le_succ size), decide_eq_true_eq]

def CursorAfter (enc : Encoding) (done : List ListedJob) (cursor : String) : Prop :=
  (done = [] ∧ trimSpace cursor = "") ∨
    ∃ last, done.getLast? = some last ∧ cursor = encodeContentBackupCursor enc (cursorOf last)

theorem decode_encode {job : ListedJob} (henc : enc.ReadsBack (cursorOf job)) (hid : job.jobID ≠ "") :
    decodeContentBackupCursor enc (encodeContentBackupCursor enc (cursorOf job)) =
      .ok (cursorOf job) := by
  unfold decodeContentBackupCursor
  rw [henc.trimmed, henc.base64, Option.bind_some, henc.json]
  exact if_neg hid

theorem size_pos (filter : ContentBackupJobFilter) : 0 < filter.size := by
  unfold ContentBackupJobFilter.size contentBackupDefaultPageSize contentBackupMaxPageSize
  split_ifs <;> omega

variable (horder : ∀ a b, orderedBy collate filter.queue a b = true ↔ key a ≤ key b)
  (hbehind : ∀ a b, behindCursor collate filter.queue (cursorOf a) b = true ↔ key a < key b)
  (hunique : ((jobs.filter (filter.selects siteID)).map key).Nodup)
  (henc : ∀ job ∈ jobs, enc.ReadsBack (cursorOf job)) (hid : ∀ job ∈ jobs, job.jobID ≠ "")

include horder hbehind hunique henc hid

theorem listJobs_eq (hsplit : listed collate jobs siteID filter = done ++ rest) {cursor : String}
    (hcursor : CursorAfter enc done cursor) :
    listJobs enc collate jobs siteID { filter with cursor } = .ok (pageOf enc filter.size rest) := by
  have hmem : ∀ job ∈ done, job ∈ jobs := by
    intro job hjob
    have hlisted : job ∈ listed collate jobs siteID filter := by
      rw [hsplit]
      exact mem_append_left rest hjob
    exact mem_of_mem_filter ((mem_insertionSort _).1 hlisted)
  rcases hcursor with ⟨rfl, hblank⟩ | ⟨last, hlast, rfl⟩
  · have hrows : (jobs.filter (filter.selects siteID)).insertionSort
        (orderedBy collate filter.queue · ·) = rest := hsplit
    unfold listJobs
    rw [if_neg (not_not.2 hblank)]
    exact congrArg Except.ok ((pageOf_eq filter.size _).trans (congrArg _ hrows))
  · have hjob := hmem last (mem_of_getLast? hlast)
    have hrows := insertionSort_behind horder hbehind hunique hsplit hlast
    have hblank : trimSpace (encodeContentBackupCursor enc (cursorOf last)) ≠ "" := by
      rw [(henc last hjob).trimmed]
      exact (henc last hjob).nonempty
    unfold listJobs
    rw [if_pos hblank, decode_encode (henc last hjob) (hid last hjob)]
    exact congrArg Except.ok ((pageOf_eq filter.size _).trans (congrArg _ hrows))

theorem walkJobs_rest (hsplit : listed collate jobs siteID filter = done ++ rest) {cursor : String}
    (hcursor : CursorAfter enc done cursor) :
    ∃ fuel pages, walkJobs enc collate jobs siteID fuel { filter with cursor } = some (.ok pages) ∧
      pages ≠ [] ∧ pages.flatten = rest ∧ ∀ page ∈ pages.dropLast, page.length = filter.size := by
  induction hlen : rest.length using Nat.strong_induction_on generalizing done rest cursor with
  | _ n ih =>
    have hpage := listJobs_eq horder hbehind hunique henc hid hsplit hcursor
    have hsize := size_pos filter
    have hstep : ∀ fuel, walkJobs enc collate jobs siteID (fuel + 1) { filter with cursor } =
        if filter.size < rest.length then
          (walkJobs enc collate jobs siteID fuel
            { filter with cursor := (pageOf enc filter.size rest).nextCursor.getD "" }).map
              fun pages => pages.map (rest.take filter.size :: ·)
        else some (.ok [rest.take filter.size]) := by
      intro fuel
      conv_lhs => unfold walkJobs
      rw [hpage]
      unfold pageOf
      simp only [decide_eq_true_eq]
    by_cases hmore : filter.size < rest.length
    · obtain ⟨last, hlast⟩ : ∃ last, (rest.take filter.size).getLast? = some last := by
        refine Option.isSome_iff_exists.1 (getLast?_isSome.2 fun hnil => ?_)
        have hlength := congrArg List.length hnil
        rw [length_take, length_nil] at hlength
        omega
      have hnext : (pageOf enc filter.size rest).nextCursor.getD "" =
          encodeContentBackupCursor enc (cursorOf last) := by
        unfold pageOf
        rw [if_pos hmore, hlast]
        rfl
      have hsplit' : listed collate jobs siteID filter =
          (done ++ rest.take filter.size) ++ rest.drop filter.size := by
        rw [hsplit, append_assoc, take_append_drop]
      obtain ⟨fuel, pages, hwalk, hne, hflatten, hfull⟩ := ih _ (by rw [length_drop]; omega)
        hsplit' (.inr ⟨last, by rw [getLast?_append, hlast]; rfl, hnext⟩) rfl
      refine ⟨fuel + 1, rest.take filter.size :: pages, ?_, cons_ne_nil _ _, ?_, ?_⟩
      · rw [hstep, if_pos hmore, hwalk]
        rfl
      · rw [flatten_cons, hflatten, take_append_drop]
      · rw [dropLast_cons_of_ne_nil hne]
        intro page hin
        rcases mem_cons.1 hin with rfl | hin
        · rw [length_take, Nat.min_eq_left hmore.le]
        · exact hfull page hin
    · refine ⟨1, [rest.take filter.size], (hstep 0).trans (if_neg hmore), cons_ne_nil _ _, ?_,
        fun page hin => (not_mem_nil hin).elim⟩
      rw [flatten_singleton, take_of_length_le (not_lt.1 hmore)]

variable (key) in
theorem walkJobs_of_key :
    ∃ fuel pages,
      walkJobs enc collate jobs siteID fuel { filter with cursor := "" } = some (.ok pages) ∧
      pages.flatten.Perm (jobs.filter (filter.selects siteID)) ∧
      (pages.flatten.Pairwise fun a b => key a < key b) ∧
      ∀ page ∈ pages.dropLast, page.length = filter.size := by
  obtain ⟨fuel, pages, hwalk, -, hflatten, hfull⟩ := walkJobs_rest horder hbehind hunique henc hid
    (nil_append _).symm (.inl ⟨rfl, rfl⟩ : CursorAfter enc [] "")
  refine ⟨fuel, pages, hwalk, ?_, ?_, hfull⟩
  · rw [hflatten]
    exact perm_insertionSort _ _
  · rw [hflatten]
    exact ascending_listed horder hunique

end Walk

theorem nodup_selected {κ : Type} {f : ListedJob → κ} {jobs : List ListedJob} {siteID : String}
    (filter : ContentBackupJobFilter)
    (h : ((jobs.filter fun job => job.siteID = siteID).map f).Nodup) :
    ((jobs.filter (filter.selects siteID)).map f).Nodup := by
  have hsite : ∀ job, filter.selects siteID job = true → job.siteID = siteID := by
    intro job hjob
    unfold ContentBackupJobFilter.selects at hjob
    simp only [Bool.and_eq_true, decide_eq_true_eq] at hjob
    exact hjob.1.1.1.1.1.1.1.1.1.1
  refine h.sublist (List.Sublist.map f ?_)
  have hboth : jobs.filter (filter.selects siteID) =
      (jobs.filter fun job => job.siteID = siteID).filter (filter.selects siteID) := by
    rw [filter_filter]
    refine filter_congr fun job _ => ?_
    cases hjob : filter.selects siteID job with
    | false => rfl
    | true => simp [hsite job hjob]
  rw [hboth]
  exact filter_sublist

def threeJobs : List ListedJob :=
  [{ siteID := "s", jobID := "a", createdAt := 5 },
    { siteID := "s", jobID := "c", createdAt := 7, status := "failed" },
    { siteID := "s", jobID := "b", createdAt := 7, status := "failed" }]

def threeTexts : List (ContentBackupCursor × String × String) :=
  [(⟨2, 5, "a"⟩, "\x7b\"r\":2,\"c\":5,\"j\":\"a\"\x7d", "eyJyIjoyLCJjIjo1LCJqIjoiYSJ9"),
    (⟨0, 7, "c"⟩, "\x7b\"r\":0,\"c\":7,\"j\":\"c\"\x7d", "eyJyIjowLCJjIjo3LCJqIjoiYyJ9"),
    (⟨0, 7, "b"⟩, "\x7b\"r\":0,\"c\":7,\"j\":\"b\"\x7d", "eyJyIjowLCJjIjo3LCJqIjoiYiJ9")]

def threeEncoding : Encoding where
  marshal := fun cursor => ((threeTexts.find? fun t => t.1 = cursor).map fun t => t.2.1).getD ""
  unmarshal := fun text => (threeTexts.find? fun t => t.2.1 = text).map fun t => t.1
  encodeToString := fun text => ((threeTexts.find? fun t => t.2.1 = text).map fun t => t.2.2).getD ""
  decodeString := fun text => (threeTexts.find? fun t => t.2.2 = text).map fun t => t.2.1

end BeeApi.ContentBackup
