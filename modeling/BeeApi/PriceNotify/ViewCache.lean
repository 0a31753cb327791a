import BeeApi.Lib.Run
import BeeApi.PriceNotify.SeparateGroups

/-!
# The cache of the views

`GetVisiblePriceChanges` looks into a cache, builds the views where it has none, and writes them there.
A publication, or a change of what the groups see, ends with `InvalidatePriceChangesCache`.  A call that
has built its views before and writes them afterwards hands them to the calls that follow.
-/

namespace BeeApi.PriceNotify

open Table String

/-- What the views are built from; the batches come without their snapshots. -/
structure World (F : Type) where
  batches : List (PricePublishBatch F) := []
  getUserVisibleGroups : String → Finset String
  modelGroups : String → Option (List String)
  ratios : Ratios F

/-- When views are built: what was stored, the time, and the number of invalidations.  The code keeps
nothing of it. -/
structure Origin (F : Type) where
  world : World F
  now : ℤ
  invalidations : ℕ

structure PriceChangesCacheEntry (F : Type) where
  batches : List (PriceChangeBatchView F)
  expiresAt : ℤ
  origin : Origin F

/-- Where a call of `GetVisiblePriceChanges` stands; it returns no views when the database fails. -/
inductive Phase (F : Type)
  | building
  | built (batches : List (PriceChangeBatchView F)) (origin : Origin F)
  | returned (result : Option (List (PriceChangeBatchView F) × Origin F))

/-- `started` is the number of invalidations before the call. -/
structure ViewCall (F : Type) where
  viewerGroup : String
  days : ℤ
  started : ℕ
  phase : Phase F

structure ViewSystem (F : Type) extends Origin F where
  cache : Table String (PriceChangesCacheEntry F) := .empty
  calls : Table ℕ (ViewCall F) := .empty

inductive ViewAction (F : Type)
  /-- A publication commits, or what the groups see changes. -/
  | change (world : World F)
  | invalidate
  | elapse (seconds : ℕ)
  | read (call : ℕ) (viewerGroup : String) (days : ℤ)
  | build (call : ℕ) (fails : Bool)
  | write (call : ℕ)

def cacheKey (viewerGroup : String) (days : ℤ) : String := viewerGroup ++ "|" ++ toString days

def priceChangesCacheTTL : ℤ := 30

section Calls

variable {F : Type} [Mul F]

/-- `buildVisiblePriceChanges`, on the batches that `GetRecentPricePublishBatches` reads. -/
def buildVisiblePriceChanges (w : World F) (viewerGroup : String) (days now : ℤ) :
    List (PriceChangeBatchView F) :=
  let sinceTs := now - days * 86400
  let batches := (w.batches.filter fun b => sinceTs ≤ b.createdAt && !b.isBaseline).insertionSort
    fun b b' => b'.id ≤ b.id
  batches.filterMap
    (batchView w.ratios viewerGroup (w.getUserVisibleGroups viewerGroup) w.modelGroups)

namespace ViewSystem

def lookUp (s : ViewSystem F) (key : String) : Phase F :=
  match s.cache.get? key with
  | some entry =>
    if s.now < entry.expiresAt then .returned (some (entry.batches, entry.origin)) else .building
  | none => .building

def step (s : ViewSystem F) : ViewAction F → Option (ViewSystem F)
  | .change world => some { s with world }
  | .invalidate => some { s with cache := .empty, invalidations := s.invalidations + 1 }
  | .elapse seconds => some { s with now := s.now + seconds }
  | .read call viewerGroup days =>
    match s.calls.get? call with
    | some _ => none
    | none =>
      let phase := s.lookUp (cacheKey viewerGroup days)
      some { s with
        calls := s.calls.put call { viewerGroup, days, started := s.invalidations, phase } }
  | .build call fails =>
    match s.calls.get? call with
    | some { viewerGroup, days, started, phase := .building } =>
      let batches := buildVisiblePriceChanges s.world viewerGroup days s.now
      let phase := if fails then .returned none else .built batches s.toOrigin
      some { s with calls := s.calls.put call { viewerGroup, days, started, phase } }
    | _ => none
  | .write call =>
    match s.calls.get? call with
    | some { viewerGroup, days, started, phase := .built batches origin } =>
      let entry := { batches, expiresAt := s.now + priceChangesCacheTTL, origin }
      let phase := .returned (some (batches, origin))
      some { s with
        cache := s.cache.put (cacheKey viewerGroup days) entry
        calls := s.calls.put call { viewerGroup, days, started, phase } }
    | _ => none

def IsBuilt (viewerGroup : String) (days : ℤ) (batches : List (PriceChangeBatchView F))
    (origin : Origin F) : Prop :=
  batches = buildVisiblePriceChanges origin.world viewerGroup days origin.now

/-- Every call that has returned views has returned its viewer's, built after the last invalidation
before the call. -/
def Fresh (s : ViewSystem F) : Prop :=
  ∀ call c, s.calls.get? call = some c → ∀ batches origin,
    c.phase = .returned (some (batches, origin)) →
    IsBuilt c.viewerGroup c.days batches origin ∧ c.started ≤ origin.invalidations

/-- The cache is not invalidated while a call holds views that it has built and not written. -/
def Undisturbed (s : ViewSystem F) (a : ViewAction F) : Prop :=
  a = .invalidate → ∀ call c, s.calls.get? call = some c → ∀ batches origin,
    c.phase ≠ .built batches origin

theorem cacheKey_inj {viewerGroup viewerGroup' : String} {days days' : ℤ}
    (h : cacheKey viewerGroup days = cacheKey viewerGroup' days') :
    viewerGroup = viewerGroup' ∧ days = days' := by
  have hlist : ∀ (g : String) (d : ℤ),
      (cacheKey g d).toList = g.toList ++ '|' :: (toString d).toList := by
    intro g d
    unfold cacheKey
    rw [toList_append, toList_append, List.append_assoc]
    rfl
  have hkey := congrArg String.toList h
  rw [hlist, hlist] at hkey
  have hbar := Strings.notMem_toString (c := '|') (by decide) (by decide)
  obtain ⟨hgroup, hdays⟩ := Strings.eq_of_append_sep_right (hbar days) (hbar days') hkey
  exact ⟨toList_injective hgroup, Strings.toString_int_injective (toList_injective hdays)⟩

/-- The phase of a call, after `n` invalidations. -/
def PhaseOk (n : ℕ) (c : ViewCall F) : Phase F → Prop
  | .building => True
  | .built batches origin => IsBuilt c.viewerGroup c.days batches origin ∧ origin.invalidations = n
  | .returned none => True
  | .returned (some (batches, origin)) =>
    IsBuilt c.viewerGroup c.days batches origin ∧ c.started ≤ origin.invalidations

/-- What the cache holds was built after the last invalidation. -/
structure Inv (s : ViewSystem F) : Prop where
  cache : ∀ key entry, s.cache.get? key = some entry →
    entry.origin.invalidations = s.invalidations ∧ ∃ viewerGroup days,
      key = cacheKey viewerGroup days ∧ IsBuilt viewerGroup days entry.batches entry.origin
  calls : ∀ call c, s.calls.get? call = some c →
    c.started ≤ s.invalidations ∧ PhaseOk s.invalidations c c.phase

variable {s s' : ViewSystem F} {a : ViewAction F}

theorem Inv.fresh (h : Inv s) : s.Fresh := by
  intro call c hcall batches origin hphase
  have hok := (h.calls call c hcall).2
  rw [hphase] at hok
  exact hok

theorem Inv.lookUp (h : Inv s) (viewerGroup : String) (days : ℤ) :
    PhaseOk s.invalidations ⟨viewerGroup, days, s.invalidations, .building⟩
      (s.lookUp (cacheKey viewerGroup days)) := by
  unfold ViewSystem.lookUp
  cases hget : s.cache.get? (cacheKey viewerGroup days) with
  | none => trivial
  | some entry =>
    dsimp only
    split_ifs
    · obtain ⟨hinvalidations, g, d, hkey, hbuilt⟩ := h.cache _ entry hget
      obtain ⟨rfl, rfl⟩ := cacheKey_inj hkey
      exact ⟨hbuilt, hinvalidations.ge⟩
    · trivial

theorem Inv.step (h : Inv s) (hok : Undisturbed s a) (hs : s.step a = some s') : Inv s' := by
  cases a with
  | change | elapse =>
    cases hs
    exact ⟨h.cache, h.calls⟩
  | invalidate =>
    cases hs
    refine ⟨nofun, fun call c hcall => ?_⟩
    obtain ⟨hstarted, hphase⟩ := h.calls call c hcall
    refine ⟨hstarted.trans (Nat.le_succ _), ?_⟩
    have hnot := hok rfl call c hcall
    cases hc : c.phase with
    | building => trivial
    | built batches origin => exact absurd hc (hnot batches origin)
    | returned result =>
      rw [hc] at hphase
      cases result <;> exact hphase
  | read call viewerGroup days =>
    dsimp only [ViewSystem.step] at hs
    split at hs
    · cases hs
    · cases hs
      exact ⟨h.cache, forall_get?_put h.calls ⟨le_rfl, h.lookUp viewerGroup days⟩⟩
  | build call fails =>
    dsimp only [ViewSystem.step] at hs
    split at hs
    · rename_i viewerGroup days started hcall
      cases hs
      refine ⟨h.cache, forall_get?_put h.calls ⟨(h.calls _ _ hcall).1, ?_⟩⟩
      cases fails
      · exact ⟨rfl, rfl⟩
      · trivial
    · cases hs
  | write call =>
    dsimp only [ViewSystem.step] at hs
    split at hs
    · rename_i viewerGroup days started batches origin hcall
      cases hs
      obtain ⟨hstarted, hbuilt, hinvalidations⟩ := h.calls _ _ hcall
      exact ⟨forall_get?_put h.cache ⟨hinvalidations, viewerGroup, days, rfl, hbuilt⟩,
        forall_get?_put h.calls ⟨hstarted, hbuilt, hstarted.trans hinvalidations.ge⟩⟩
    · cases hs

end ViewSystem

open ViewSystem

/-- A view tells nothing of other groups exactly when no group passes for the viewer's; when no
invalidation comes between building and writing a view, no call returns one from before an invalidation
that it comes after. -/
theorem visiblePriceChanges_spec [Inhabited F] (world : World F) (now : ℤ) {l : List (ViewAction F)}
    {s : ViewSystem F} (hok : Run.Along step Undisturbed { world, now, invalidations := 0 } l)
    (hrun : Run.run step { world, now, invalidations := 0 } l = some s) :
    (∀ viewerGroup visibleSet modelGroups,
      Separate F viewerGroup visibleSet modelGroups ↔ OwnIsKnown viewerGroup visibleSet) ∧
    s.Fresh := by
  refine ⟨fun _ _ _ => ⟨ownIsKnown_of_separate, separate_of_ownIsKnown⟩, ?_⟩
  have hstart : Inv ({ world, now, invalidations := 0 } : ViewSystem F) := ⟨nofun, nofun⟩
  exact (Run.invariant_along (fun _ _ _ h hok hs => h.step hok hs) hstart hok hrun).fresh

/-- Everybody sees the group `default`; a batch changes its ratio. -/
def defaultWorld (batches : List (PricePublishBatch ℤ)) : World ℤ where
  batches := batches
  getUserVisibleGroups := fun _ => {"default"}
  modelGroups := fun _ => none
  ratios := ⟨fun _ => 1, fun _ _ => none, fun _ => 1, 2, id⟩

def defaultBatch : PricePublishBatch ℤ :=
  ⟨1, 0, "", false, [(PriceChange.groupRatio "default" ⟨1, 2, .up⟩).item]⟩

def published : List (ViewAction ℤ) :=
  [.read 1 "default" 30, .build 1 false, .write 1, .change (defaultWorld [defaultBatch]),
    .invalidate, .read 2 "default" 30, .build 2 false, .write 2]

theorem visiblePriceChanges_published : ∃ s, Run.run step
    { world := defaultWorld [], now := 0, invalidations := 0 } published = some s ∧ s.Fresh := by
  have hok : Run.Along step Undisturbed { world := defaultWorld [], now := 0, invalidations := 0 }
      published := by
    refine ⟨nofun, nofun, nofun, nofun, fun _ call c hcall => ?_, nofun, nofun, nofun, trivial⟩
    have hin := List.mem_singleton.1 ((get?_eq_some_iff _ _ _).1 hcall)
    cases hin
    exact nofun
  exact ⟨_, rfl, (visiblePriceChanges_spec _ _ hok rfl).2⟩

/-- A call that builds before a publication and writes after it hands the old views to the next call. -/
theorem visiblePriceChanges_stale :
    ¬ Separate ℤ "a" {"b->c"} (fun _ => none) ∧ ∃ s, Run.run step
      { world := defaultWorld [], now := 0, invalidations := 0 }
      [.read 1 "default" 30, .build 1 false, .change (defaultWorld [defaultBatch]), .invalidate,
        .write 1, .read 2 "default" 30] = some s ∧ ¬ s.Fresh := by
  constructor
  · intro h
    rcases ownIsKnown_of_separate h with h | h | h
    · exact absurd h (by decide)
    · exact absurd h (by decide +kernel)
    · exact absurd (h "b->c" (Finset.mem_singleton_self _)) (by decide +kernel)
  · refine ⟨_, rfl, fun h => ?_⟩
    exact absurd (h 2 _ rfl _ _ rfl).2 (by decide)

end Calls
end BeeApi.PriceNotify
