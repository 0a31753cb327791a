import BeeApi.ContentBackup.CaptureBudget
import BeeApi.Lib.Run

/-!
# The captures give back what they reserved

As long as nothing is reserved for a capture whose sinks have been released, and no panic loses the sink
of a request that is being read, the two counters of the budget are the sums over the captures, and a
frozen response is the beginning of what was written.
-/

namespace BeeApi.ContentBackup

open List Option Table Bool ContentBackupBudget

/-! ## The budget -/

/-- What an operation does to the budget: it moves the counters, and a reservation fits. -/
structure ContentBackupBudget.Moves (b b' : ContentBackupBudget) (bytes slots : ℤ) : Prop where
  maxBytes : b'.maxBytes = b.maxBytes
  usedBytes : b'.usedBytes = b.usedBytes + bytes
  inflight : b'.inflight = b.inflight + slots
  fits : b.usedBytes ≤ b.maxBytes → b'.usedBytes ≤ b'.maxBytes

namespace ContentBackupBudget

variable {b b' : ContentBackupBudget}

theorem Moves.refl (b : ContentBackupBudget) : b.Moves b 0 0 :=
  ⟨rfl, (add_zero _).symm, (add_zero _).symm, id⟩

theorem reserveBytes_moves {n : ℤ} {ok : Bool} (h : b.reserveBytes n = (ok, b')) :
    b.Moves b' (if ok then max n 0 else 0) 0 := by
  unfold reserveBytes at h
  split_ifs at h with hn hmax <;> cases h
  · rw [if_pos rfl, max_eq_right hn]
    exact Moves.refl b
  · exact ⟨rfl, (add_zero _).symm, (add_zero _).symm, id⟩
  · rw [if_pos rfl, max_eq_left (not_le.1 hn).le]
    exact ⟨rfl, rfl, (add_zero _).symm, fun _ => not_lt.1 hmax⟩

theorem acquireCapture_moves {ok : Bool} (h : b.acquireCapture = (ok, b')) :
    b.Moves b' 0 (if ok then 1 else 0) := by
  unfold acquireCapture at h
  split_ifs at h <;> obtain ⟨rfl, rfl⟩ := Prod.mk.inj h <;>
    exact ⟨rfl, (add_zero _).symm, by simp, id⟩

/-- No clamp: what is released has been counted. -/
theorem releaseBytes_moves {n : ℤ} (hn : 0 ≤ n) (hused : n ≤ b.usedBytes) :
    b.Moves (b.releaseBytes n) (-n) 0 := by
  unfold releaseBytes
  split_ifs with hzero hneg
  · obtain rfl : n = 0 := le_antisymm hzero hn
    exact Moves.refl b
  · omega
  · exact ⟨rfl, sub_eq_add_neg _ _, (add_zero _).symm, fun h => (sub_le_self _ hn).trans h⟩

theorem releaseCapture_moves (h : 1 ≤ b.inflight) : b.Moves b.releaseCapture 0 (-1) := by
  refine ⟨rfl, (add_zero _).symm, ?_, id⟩
  unfold releaseCapture
  rw [if_neg (by omega), sub_eq_add_neg]

end ContentBackupBudget

/-! ## A side of a capture -/

namespace ChunkSink

variable {s s' : ChunkSink} {b b' : ContentBackupBudget}

def content (s : ChunkSink) : Bytes := s.chunks.dropLast.flatten ++ s.last.take s.used

/-- `used` lies in the last chunk, and `captured` counts the content. -/
structure Ok (s : ChunkSink) : Prop where
  used : s.used ≤ s.last.length
  captured : s.captured = s.content.length
  reserved : 0 ≤ s.reserved

theorem ok_empty (limit : ℤ) (readErr : Option String) : Ok { limit, readErr } :=
  ⟨le_rfl, rfl, le_rfl⟩

theorem last_of_chunks {chunks : List Bytes} {chunk : Bytes} (h : s.chunks = chunks ++ [chunk]) :
    s.last = chunk := by
  rw [last, h, getLastD_concat]

theorem flatten_chunks (s : ChunkSink) : s.chunks.flatten = s.chunks.dropLast.flatten ++ s.last := by
  unfold last
  cases hlast : s.chunks.getLast? with
  | none =>
    rw [getLast?_eq_none_iff.1 hlast]
    rfl
  | some chunk =>
    obtain ⟨chunks, hchunks⟩ := getLast?_eq_some_iff.1 hlast
    rw [hchunks, dropLast_concat, getLastD_concat, flatten_append, flatten_singleton]

theorem content_of_chunks (h : s.chunks = []) : s.content = [] := by
  rw [content, last, h]
  exact take_nil

theorem Ok.flatten_snapshotChunks (h : s.Ok) : s.snapshotChunks.flatten = s.content := by
  unfold snapshotChunks
  split_ifs with hnone hused
  · symm
    obtain hzero | hchunks := hnone
    · have hlength := h.captured
      exact length_eq_zero_iff.1 (by omega)
    · exact content_of_chunks hchunks
  · rw [flatten_append, flatten_singleton, content]
  · rw [flatten_chunks, content, take_of_length_le (not_lt.1 hused)]

theorem Ok.captured_of_chunks (h : s.Ok) (hchunks : s.chunks = []) : s.captured = 0 := by
  rw [h.captured, content_of_chunks hchunks]
  rfl

theorem Ok.arm (h : s.Ok) (hchunks : s.chunks = []) (limit : ℤ) :
    Ok { s with limit, chunks := [] } := by
  obtain ⟨_, chunks, _, _, _, _, _⟩ := s
  obtain rfl : chunks = [] := hchunks
  exact ⟨h.used, h.captured, h.reserved⟩

theorem Ok.ensureRoom (h : s.Ok) {ok : Bool} (hroom : s.ensureRoom b = (ok, s', b')) :
    s'.Ok ∧ s'.content = s.content ∧ s'.limit = s.limit ∧
      b.Moves b' (s'.reserved - s.reserved) 0 := by
  unfold ChunkSink.ensureRoom at hroom
  split_ifs at hroom with hlast hlimit
  · obtain ⟨-, rfl, rfl⟩ := by simpa using hroom
    exact ⟨h, rfl, rfl, by rw [sub_self]; exact .refl b⟩
  · obtain ⟨-, rfl, rfl⟩ := by simpa using hroom
    exact ⟨h, rfl, rfl, by rw [sub_self]; exact .refl b⟩
  · dsimp only at hroom
    have hpos : 0 < min (s.limit - s.captured) contentBackupChunkBytes :=
      lt_min (not_le.1 hlimit) (by decide)
    generalize min (s.limit - s.captured) contentBackupChunkBytes = size at hroom hpos
    cases hreserve : b.reserveBytes size with
    | mk admitted b₁ =>
      rw [hreserve] at hroom
      have hmoves := ContentBackupBudget.reserveBytes_moves hreserve
      cases admitted with
      | false =>
        obtain ⟨-, rfl, rfl⟩ := by simpa using hroom
        exact ⟨h, rfl, rfl, by rw [sub_self]; exact hmoves⟩
      | true =>
        obtain ⟨-, rfl, rfl⟩ := by simpa using hroom
        rw [if_pos rfl, max_eq_left hpos.le] at hmoves
        -- the last chunk is full, or there is none
        have hfull : s.last.take s.used = s.last := by
          rw [take_eq_self_iff]
          by_cases hchunks : s.chunks = []
          · simp [last, hchunks]
          · exact not_lt.1 fun hlt => hlast ⟨hchunks, hlt⟩
        have hcontent : content { s with
            reserved := s.reserved + size
            chunks := s.chunks ++ [List.replicate size.toNat 0]
            used := 0 } = s.content := by
          rw [content, content, hfull, ← flatten_chunks]
          simp
        refine ⟨⟨Nat.zero_le _, ?_, ?_⟩, hcontent, rfl, ?_⟩
        · rw [hcontent]
          exact h.captured
        · exact add_nonneg h.reserved hpos.le
        · rw [show s.reserved + size - s.reserved = size by ring]
          exact hmoves

theorem Ok.copy (h : s.Ok) (p : Bytes) :
    (s.copy p).1.Ok ∧ (s.copy p).1.content ++ (s.copy p).2 = s.content ++ p := by
  obtain ⟨n, hn⟩ : ∃ n, n = min (s.last.length - s.used) p.length := ⟨_, rfl⟩
  have htaken : (p.take n).length = n := by
    rw [length_take]
    omega
  have hused : (s.last.take s.used).length = s.used := by
    rw [length_take]
    exact min_eq_left h.used
  have hfilled : (s.last.take s.used ++ p.take n).length = s.used + n := by
    rw [length_append, htaken, hused]
  have hcopy : s.copy p = ({ s with
      chunks := s.chunks.dropLast ++ [s.last.take s.used ++ p.take n ++ s.last.drop (s.used + n)]
      used := s.used + n
      captured := s.captured + n }, p.drop n) := by
    rw [hn]
    rfl
  obtain ⟨s', hs'⟩ : ∃ s', s' = (s.copy p).1 := ⟨_, rfl⟩
  have hlast : s'.last = s.last.take s.used ++ p.take n ++ s.last.drop (s.used + n) :=
    last_of_chunks (by rw [hs', hcopy])
  have hcontent : s'.content = s.content ++ p.take n := by
    rw [content, hlast, show s'.used = s.used + n by rw [hs', hcopy],
      show s'.chunks.dropLast = s.chunks.dropLast by rw [hs', hcopy, dropLast_concat],
      take_append_of_le_length hfilled.ge, take_of_length_le hfilled.le, content, append_assoc]
  rw [← hs']
  refine ⟨⟨?_, ?_, ?_⟩, ?_⟩
  · rw [hlast, length_append, hfilled, show s'.used = s.used + n by rw [hs', hcopy]]
    exact Nat.le_add_right _ _
  · rw [hcontent, length_append, htaken, Nat.cast_add, ← h.captured, hs', hcopy]
  · rw [hs', hcopy]
    exact h.reserved
  · rw [hcontent, hcopy, append_assoc, take_append_drop]

/-- A round of `appendBytes`: it moves bytes from what is left to the content, or it ends, because
nothing is left, the limit is reached or the sink is denied. -/
theorem Ok.appendRound (h : s.Ok) {p : Bytes} {rest : Option Bytes}
    (hround : s.appendRound b p = (s', b', rest)) :
    s'.Ok ∧ s'.limit = s.limit ∧ b.Moves b' (s'.reserved - s.reserved) 0 ∧
      ((∃ q, rest = some q ∧ s'.content ++ q = s.content ++ p ∧ s.captured < s.limit) ∨
        rest = none ∧ s'.content = s.content ∧
          (p = [] ∨ s'.limit ≤ s'.captured ∨ s'.denied = true)) := by
  unfold ChunkSink.appendRound at hround
  split_ifs at hround with hend hlimit
  · obtain ⟨rfl, rfl, rfl⟩ := by simpa using hround
    refine ⟨h, rfl, by rw [sub_self]; exact .refl b, .inr ⟨rfl, rfl, ?_⟩⟩
    exact hend.imp_right .inr
  · obtain ⟨rfl, rfl, rfl⟩ := by simpa using hround
    exact ⟨h, rfl, by rw [sub_self]; exact .refl b, .inr ⟨rfl, rfl, .inr (.inl hlimit)⟩⟩
  · cases hroom : s.ensureRoom b with
    | mk ok r =>
      obtain ⟨s₁, b₁⟩ := r
      rw [hroom] at hround
      obtain ⟨hok, hcontent, hlim, hmoves⟩ := h.ensureRoom hroom
      cases ok with
      | false =>
        obtain ⟨rfl, rfl, rfl⟩ := by simpa using hround
        exact ⟨⟨hok.used, hok.captured, hok.reserved⟩, hlim, hmoves,
          .inr ⟨rfl, hcontent, .inr (.inr rfl)⟩⟩
      | true =>
        obtain ⟨rfl, rfl, rfl⟩ := by simpa using hround
        obtain ⟨hcopied, hbytes⟩ := hok.copy p
        exact ⟨hcopied, hlim, hmoves,
          .inl ⟨_, rfl, hbytes.trans (by rw [hcontent]), not_le.1 hlimit⟩⟩

theorem Ok.appendRound_of_chunks (h : s.Ok) (hchunks : s.chunks = []) {p : Bytes}
    (hfits : p = [] ∨ b.maxBytes < b.usedBytes + min s.limit contentBackupChunkBytes)
    {rest : Option Bytes} (hround : s.appendRound b p = (s', b', rest)) :
    s'.chunks = [] ∧ s'.reserved = s.reserved := by
  unfold ChunkSink.appendRound at hround
  split_ifs at hround with hend hlimit
  · obtain ⟨rfl, -⟩ := by simpa using hround
    exact ⟨hchunks, rfl⟩
  · obtain ⟨rfl, -⟩ := by simpa using hround
    exact ⟨hchunks, rfl⟩
  · have hzero := h.captured_of_chunks hchunks
    have hfull := hfits.resolve_left fun hp => hend (.inl hp)
    have hroom : s.ensureRoom b = (false, s, { b with rejectedBytes := b.rejectedBytes + 1 }) := by
      rw [hzero] at hlimit
      unfold ChunkSink.ensureRoom
      rw [if_neg fun hlast => hlast.1 hchunks, hzero, sub_zero, if_neg hlimit]
      dsimp only
      rw [reserveBytes,
        if_neg (not_le.2 (lt_min (not_le.1 hlimit) (by decide))), if_pos hfull]
    rw [hroom] at hround
    obtain ⟨rfl, -⟩ := by simpa using hround
    exact ⟨hchunks, rfl⟩

theorem reserveWhole_moves {limit want : ℤ} {readErr : Option String} {reads : Bool}
    (h : reserveWhole { limit, readErr } b want = (s, b', reads)) :
    0 ≤ s.reserved ∧ b.Moves b' s.reserved 0 := by
  unfold reserveWhole at h
  split_ifs at h with hwant
  · obtain ⟨rfl, rfl, -⟩ := by simpa using h
    exact ⟨le_rfl, .refl b⟩
  · cases hreserve : b.reserveBytes want with
    | mk ok b₁ =>
      rw [hreserve] at h
      have hmoves := ContentBackupBudget.reserveBytes_moves hreserve
      cases ok with
      | false =>
        obtain ⟨rfl, rfl, -⟩ := by simpa using h
        exact ⟨le_rfl, hmoves⟩
      | true =>
        obtain ⟨rfl, rfl, -⟩ := by simpa using h
        rw [if_pos rfl, max_eq_left (not_le.1 hwant).le] at hmoves
        exact ⟨(not_le.1 hwant).le, hmoves⟩

theorem release_moves (h : 0 ≤ s.reserved) (hused : s.reserved ≤ b.usedBytes) :
    (s.release b).1.reserved = 0 ∧ b.Moves (s.release b).2 (-s.reserved) 0 := by
  unfold release
  split_ifs with hpos
  · exact ⟨rfl, ContentBackupBudget.releaseBytes_moves h hused⟩
  · rw [le_antisymm (not_lt.1 hpos) h]
    exact ⟨rfl, .refl b⟩

end ChunkSink

/-! ## A capture -/

/-- The step reserves nothing for a capture whose sinks have been released, and a panic loses no sink
that has reserved something. -/
def CaptureFits (c : ContentBackupCapture) (b : ContentBackupBudget) : CaptureAct → Prop
  | .round round =>
    c.releasing.Past →
      round.backupEnabled = false ∨ c.armed = true ∨ c.denied = true ∨ b.maxInflight ≤ b.inflight
  | .append =>
    c.releasing.Past → ∀ p ∈ c.writing,
      p = [] ∨ b.maxBytes < b.usedBytes + min c.response.limit contentBackupChunkBytes
  | .panic => c.finishing.reserved = 0
  | _ => True

instance (c : ContentBackupCapture) (b : ContentBackupBudget) :
    (a : CaptureAct) → Decidable (CaptureFits c b a)
  | .round _ => inferInstanceAs (Decidable (_ → _))
  | .append => inferInstanceAs (Decidable (_ → _))
  | .panic => inferInstanceAs (Decidable (_ = _))
  | .observe _ _ | .hijack | .finish | .gate | .replay _ | .fill _ _ | .adopt | .settle _
  | .release | .releaseNext => .isTrue trivial

/-- The sink of the request is not in the capture yet. -/
def FinishPhase.Unadopted : FinishPhase → Prop
  | .running | .gate | .reading _ | .filling _ _ | .adopt _ => True
  | .frozen | .leaving | .handedOff => False

structure CaptureOk (c : ContentBackupCapture) : Prop where
  request : 0 ≤ c.request.reserved
  response : c.response.Ok
  reading : 0 ≤ c.finishing.reserved
  unadopted : c.finishing.Unadopted → c.request.reserved = 0
  releasing : c.releasing ≠ .idle → c.finishing = .leaving ∨ c.finishing = .handedOff
  requestReleased : c.releasing = .response → c.request.reserved = 0
  released : c.releasing.Past →
    c.request.reserved = 0 ∧ c.response.reserved = 0 ∧ c.response.chunks = [] ∧ c.slotHeld = false
  unarmed : c.armed = false →
    c.written = [] ∧ c.response.chunks = [] ∧ c.writing = none ∧ c.slotHeld = false
  writing : c.writing ≠ none → c.armed = true ∧ c.denied = false ∧ c.hijacked = false ∧
    c.releasing ≠ .request ∧ c.releasing ≠ .response
  written : ¬ c.releasing.Past → ∃ rest, c.written = c.response.content ++ rest ∧
    (c.denied = false → c.hijacked = false → c.response.captured < c.response.limit →
      rest = c.writing.getD [])
  frozen : ∀ f ∈ c.frozen, f.responseChunks.flatten <+: c.written

namespace ContentBackupCapture

variable {c c' : ContentBackupCapture} {b b' : ContentBackupBudget}

def held (c : ContentBackupCapture) : ℤ :=
  c.request.reserved + c.response.reserved + c.finishing.reserved

def heldSlots (c : ContentBackupCapture) : ℤ :=
  (if c.slotHeld then 1 else 0) + (if c.releasing = .slot true then 1 else 0)

end ContentBackupCapture

/-- A step that keeps the invariant and moves the counters by what the capture holds. -/
structure CaptureKeeps (c c' : ContentBackupCapture) (b b' : ContentBackupBudget) : Prop where
  ok : CaptureOk c'
  moves : b.Moves b' (c'.held - c.held) (c'.heldSlots - c.heldSlots)

section Act

open ContentBackupCapture

variable {c c' : ContentBackupCapture} {b b' : ContentBackupBudget}

theorem CaptureOk.keeps (h : CaptureOk c') {bytes slots : ℤ} (hmoves : b.Moves b' bytes slots)
    (hheld : c'.held - c.held = bytes) (hslots : c'.heldSlots - c.heldSlots = slots) :
    CaptureKeeps c c' b b' where
  ok := h
  moves := by
    rw [hheld, hslots]
    exact hmoves

theorem CaptureOk.keeps_same (h : CaptureOk c') (hheld : c'.held = c.held)
    (hslots : c'.heldSlots = c.heldSlots) : CaptureKeeps c c' b b :=
  h.keeps (.refl b) (by rw [hheld, sub_self]) (by rw [hslots, sub_self])

section
variable (h : CaptureOk c)
include h

theorem CaptureOk.idle (hleaving : c.finishing ≠ .leaving)
    (hhanded : c.finishing ≠ .handedOff) : c.releasing = .idle := by
  by_contra hreleasing
  exact (h.releasing hreleasing).elim hleaving hhanded

theorem CaptureOk.idle_of_unadopted (hopen : c.finishing.Unadopted) :
    c.releasing = .idle :=
  h.idle (fun hf => by rw [hf] at hopen; exact hopen) fun hf => by rw [hf] at hopen; exact hopen

theorem CaptureOk.finishing_reserved (hreleasing : c.releasing ≠ .idle) :
    c.finishing.reserved = 0 := by
  obtain hf | hf := h.releasing hreleasing <;> rw [hf] <;> rfl

theorem CaptureOk.written_of_unarmed (harmed : c.armed = false) :
    c.written = c.response.content := by
  obtain ⟨hwritten, hchunks, -, -⟩ := h.unarmed harmed
  rw [hwritten, ChunkSink.content_of_chunks hchunks]

theorem CaptureOk.armLocked (hfits : c.releasing.Past →
      c.armed = true ∨ c.denied = true ∨ b.maxInflight ≤ b.inflight) :
    CaptureKeeps c (c.armLocked b).1 b (c.armLocked b).2 := by
  unfold ContentBackupCapture.armLocked
  split_ifs with hdone
  · exact h.keeps_same rfl rfl
  · obtain ⟨harmed, hdenied⟩ := not_or.1 hdone
    obtain ⟨-, hchunks, hwriting, hslot⟩ := h.unarmed (eq_false_iff.2 harmed)
    have hwritten := h.written_of_unarmed (eq_false_iff.2 harmed)
    cases hacquire : b.acquireCapture with
    | mk ok b₁ =>
      have hmoves := ContentBackupBudget.acquireCapture_moves hacquire
      cases ok with
      | false =>
        refine ⟨?_, by simpa [held, heldSlots] using hmoves⟩
        exact { h with
          writing := fun hne => absurd hwriting hne
          written := fun _ => ⟨[], hwritten.trans (append_nil _).symm, nofun⟩ }
      | true =>
        have hpast : ¬ c.releasing.Past := fun hpast => by
          have hfull := ((hfits hpast).resolve_left harmed).resolve_left hdenied
          rw [acquireCapture, if_pos hfull] at hacquire
          cases hacquire
        refine ⟨?_, ?_⟩
        · exact { h with
            response := h.response.arm hchunks _
            released := fun hp => absurd hp hpast
            unarmed := nofun
            writing := fun hne => absurd hwriting hne
            written := fun _ => ⟨[], by
              rw [hwritten, ChunkSink.content_of_chunks hchunks, ChunkSink.content_of_chunks rfl]
              rfl, fun _ _ _ => by
              rw [hwriting]
              rfl⟩ }
        · simpa [held, heldSlots, hslot] using hmoves

theorem CaptureOk.recordChannelRound {round : ChannelRound}
    (hfits : CaptureFits c b (.round round)) :
    CaptureKeeps c (c.recordChannelRound b round).1 b (c.recordChannelRound b round).2 := by
  have hrounds : CaptureOk { c with rounds := c.rounds ++ [round] } := { h with }
  unfold ContentBackupCapture.recordChannelRound
  split_ifs with henabled
  · have harm := hrounds.armLocked (b := b) fun hpast =>
      (hfits hpast).resolve_left fun hf => absurd (henabled.symm.trans hf) (by decide)
    exact ⟨harm.ok, harm.moves⟩
  · exact hrounds.keeps_same rfl rfl

theorem CaptureOk.observeResponseWrite (hunlocked : c.Unlocked) (p : Bytes)
    (n : ℤ) : CaptureKeeps c (c.observeResponseWrite p n) b b := by
  obtain ⟨hwriting, hrequest, hresponse⟩ := hunlocked
  unfold ContentBackupCapture.observeResponseWrite
  split
  · rename_i harmed
    dsimp only
    split_ifs with hstopped
    · refine CaptureOk.keeps_same { h with
        unarmed := fun hf => absurd (harmed.symm.trans hf) (by decide)
        written := fun hpast => ?_
        frozen := fun f hf => (h.frozen f hf).trans (prefix_append _ _) } rfl rfl
      obtain ⟨rest, hrest, -⟩ := h.written hpast
      refine ⟨rest ++ p.take n.toNat, by rw [← append_assoc, ← hrest], fun hdenied hhijacked => ?_⟩
      obtain hf | hf | hf := hstopped
      · exact absurd (harmed.symm.trans hf) (by decide)
      · exact absurd (hdenied.symm.trans hf) (by decide)
      · exact absurd (hhijacked.symm.trans hf) (by decide)
    · obtain ⟨-, hrunning⟩ := not_or.1 hstopped
      obtain ⟨hdenied, hhijacked⟩ := not_or.1 hrunning
      refine CaptureOk.keeps_same { h with
        unarmed := fun hf => absurd (harmed.symm.trans hf) (by decide)
        writing := fun _ => ⟨harmed, eq_false_iff.2 hdenied, eq_false_iff.2 hhijacked,
          hrequest, hresponse⟩
        written := fun hpast => ?_
        frozen := fun f hf => (h.frozen f hf).trans (prefix_append _ _) } rfl rfl
      obtain ⟨rest, hrest, hopen⟩ := h.written hpast
      refine ⟨rest ++ p.take n.toNat, by rw [← append_assoc, ← hrest], fun hd hh hlimit => ?_⟩
      rw [hopen hd hh hlimit, hwriting]
      rfl
  · rename_i harmed
    rw [if_pos (.inl (eq_false_iff.2 harmed))]
    exact h.keeps_same rfl rfl

theorem CaptureOk.appendRound {p : Bytes} (hwriting : c.writing = some p)
    (hfits : CaptureFits c b .append) :
    CaptureKeeps c (c.appendRound b p).1 b (c.appendRound b p).2 := by
  obtain ⟨harmed, hdenied, hhijacked, hrequest, hresponse⟩ :=
    h.writing (by rw [hwriting]; exact some_ne_none p)
  cases hround : c.response.appendRound b p with
  | mk sink r =>
    obtain ⟨b₁, rest⟩ := r
    obtain ⟨hsink, hlimit, hmoves, hcases⟩ := h.response.appendRound hround
    have hreleased : c.releasing.Past → c.request.reserved = 0 ∧ sink.reserved = 0 ∧
        sink.chunks = [] ∧ c.slotHeld = false := by
      intro hpast
      obtain ⟨hreq, hresp, hchunks, hslot⟩ := h.released hpast
      obtain ⟨hchunks', hreserved⟩ :=
        h.response.appendRound_of_chunks hchunks (hfits hpast p hwriting) hround
      exact ⟨hreq, hreserved.trans hresp, hchunks', hslot⟩
    have hheld : ∀ (writing : Option Bytes) (denied : Bool),
        held { c with response := sink, writing, denied } - c.held =
          sink.reserved - c.response.reserved := by
      intro writing denied
      unfold held
      ring
    unfold ContentBackupCapture.appendRound
    rw [hround]
    obtain ⟨q, rfl, hbytes, hroom⟩ | ⟨rfl, hcontent, hend⟩ := hcases
    · refine CaptureOk.keeps { h with
        response := hsink
        released := hreleased
        unarmed := fun hf => absurd (harmed.symm.trans hf) (by decide)
        writing := fun _ => ⟨harmed, hdenied, hhijacked, hrequest, hresponse⟩
        written := fun hpast => ?_ } hmoves (hheld _ _) (sub_self _)
      · obtain ⟨rest, hrest, hwhole⟩ := h.written hpast
        by_cases hfull : c.response.captured < c.response.limit
        · obtain rfl := hwhole hdenied hhijacked hfull
          rw [hwriting, getD_some, ← hbytes] at hrest
          exact ⟨q, hrest, fun _ _ _ => rfl⟩
        · exact absurd hroom hfull
    · refine CaptureOk.keeps { h with
        response := hsink
        released := hreleased
        unarmed := fun hf => absurd (harmed.symm.trans hf) (by decide)
        writing := fun hne => absurd rfl hne
        written := fun hpast => ?_ } hmoves (hheld _ _) (sub_self _)
      · obtain ⟨rest, hrest, hwhole⟩ := h.written hpast
        refine ⟨rest, hrest.trans (by rw [hcontent]), fun hd _ hroom => ?_⟩
        obtain rfl | hreached | hdeniedSink := hend
        · rw [hwhole hdenied hhijacked ?_, hwriting]
          · rfl
          · rwa [hlimit, hsink.captured, hcontent, ← h.response.captured] at hroom
        · exact absurd hroom (not_lt.2 hreached)
        · dsimp only at hd
          rw [hdenied, Bool.false_or] at hd
          exact absurd (hdeniedSink.symm.trans hd) (by decide)

theorem CaptureOk.goto (hopen : c.finishing.Unadopted) {finishing : FinishPhase}
    (hreserved : 0 ≤ finishing.reserved) (finished : Bool)
    (hmoves : b.Moves b' (finishing.reserved - c.finishing.reserved) 0) :
    CaptureKeeps c { c with finished, finishing } b b' := by
  refine CaptureOk.keeps { h with
    reading := hreserved
    unadopted := fun _ => h.unadopted hopen
    releasing := fun hne => absurd (h.idle_of_unadopted hopen) hne } hmoves ?_ (sub_self _)
  rw [held, held]
  ring

theorem CaptureOk.freezeGate (hgate : c.finishing = .gate) :
    CaptureKeeps c c.freezeGate b b := by
  have hgoto : ∀ (finished : Bool) (finishing : FinishPhase), finishing.reserved = 0 →
      CaptureKeeps c { c with finished, finishing } b b := by
    intro finished finishing hzero
    refine h.goto (by rw [hgate]; trivial) hzero.ge finished ?_
    rw [hgate, hzero]
    exact .refl b
  unfold ContentBackupCapture.freezeGate
  dsimp only
  split_ifs
  · exact hgoto _ _ rfl
  · exact hgoto _ _ rfl
  · split
    · exact hgoto _ _ rfl
    · split_ifs
      · exact hgoto _ _ rfl
      · exact hgoto _ _ rfl

theorem CaptureOk.readRequest {limit : ℤ} (hreading : c.finishing = .reading limit)
    (storage : Option (ℤ × Option String)) :
    CaptureKeeps c (c.readRequest b limit storage).1 b (c.readRequest b limit storage).2 := by
  have hgoto : ∀ (finishing : FinishPhase) (b' : ContentBackupBudget), 0 ≤ finishing.reserved →
      b.Moves b' finishing.reserved 0 → CaptureKeeps c { c with finishing } b b' := by
    intro finishing b' hreserved hmoves
    refine h.goto (by rw [hreading]; trivial) hreserved c.finished ?_
    rw [hreading, show (FinishPhase.reading limit).reserved = 0 from rfl, sub_zero]
    exact hmoves
  cases storage with
  | none => exact hgoto _ _ le_rfl (.refl b)
  | some storage =>
    obtain ⟨size, err⟩ := storage
    unfold ContentBackupCapture.readRequest
    dsimp only
    split_ifs
    · exact hgoto _ _ le_rfl (.refl b)
    · exact hgoto _ _ le_rfl (.refl b)
    · cases hreserve : ChunkSink.reserveWhole { limit } b (min size limit) with
      | mk sink r =>
        obtain ⟨b₁, reads⟩ := r
        obtain ⟨hnonneg, hmoves⟩ := ChunkSink.reserveWhole_moves hreserve
        cases reads with
        | false => exact hgoto (.adopt sink) b₁ hnonneg hmoves
        | true => exact hgoto (.filling sink (min size limit)) b₁ hnonneg hmoves

theorem CaptureOk.fill {sink : ChunkSink} {want : ℤ}
    (hfilling : c.finishing = .filling sink want) (data : Bytes) (err : Option String) :
    CaptureKeeps c { c with finishing := .adopt (sink.fill want data err) } b b := by
  have hsame : (FinishPhase.adopt (sink.fill want data err)).reserved = c.finishing.reserved := by
    rw [hfilling]
    rfl
  refine h.goto (by rw [hfilling]; trivial) (hsame ▸ h.reading) c.finished ?_
  rw [hsame, sub_self]
  exact .refl b

/-- The frozen response is what the sink holds, the beginning of what was written. -/
theorem CaptureOk.freezeAdopt {sink : ChunkSink}
    (hadopt : c.finishing = .adopt sink) (hwriting : c.writing = none) :
    CaptureKeeps c (c.freezeAdopt sink) b b := by
  have hopen : c.finishing.Unadopted := by rw [hadopt]; trivial
  have hidle := h.idle_of_unadopted hopen
  have hpast : ¬ c.releasing.Past := by rw [hidle]; exact id
  obtain ⟨rest, hwritten, hwhole⟩ := h.written hpast
  have hreserved : sink.reserved = c.finishing.reserved := by
    rw [hadopt]
    rfl
  have hadopted : ∀ (finishing : FinishPhase) (frozen : Option FrozenChunks),
      finishing.reserved = 0 → ¬ finishing.Unadopted →
      (∀ f ∈ frozen, f.responseChunks.flatten <+: c.written) →
      CaptureKeeps c { c with
        request := sink, denied := c.denied || sink.denied, finishing, frozen } b b := by
    intro finishing frozen hzero hnot hfrozen
    refine CaptureOk.keeps_same { h with
      request := hreserved ▸ h.reading
      reading := hzero.ge
      unadopted := fun hun => absurd hun hnot
      releasing := fun hne => absurd hidle hne
      requestReleased := fun hne => absurd (hidle.symm.trans hne) (by decide)
      released := fun hp => absurd hp hpast
      writing := fun hne => absurd hwriting hne
      written := fun _ => ⟨rest, hwritten, fun hd => hwhole (or_eq_false_iff.1 hd).1⟩
      frozen := hfrozen } ?_ rfl
    rw [held, held, hzero, h.unadopted hopen, ← hreserved]
    ring
  unfold ContentBackupCapture.freezeAdopt
  dsimp only
  split_ifs
  · exact hadopted .leaving c.frozen rfl id h.frozen
  · refine hadopted .frozen _ rfl id fun f hf => ?_
    cases hf
    rw [h.response.flatten_snapshotChunks, hwritten]
    exact prefix_append _ _

theorem CaptureOk.leave (hidle : c.releasing = .idle)
    (hzero : c.finishing.reserved = 0) {finishing : FinishPhase} (hnone : finishing.reserved = 0)
    (hnot : ¬ finishing.Unadopted) : CaptureKeeps c { c with finishing } b b := by
  refine CaptureOk.keeps_same { h with
    reading := hnone.ge
    unadopted := fun hun => absurd hun hnot
    releasing := fun hne => absurd hidle hne } ?_ rfl
  rw [held, held, hzero, hnone]

theorem CaptureOk.release (hended : c.finishing = .leaving ∨ c.finishing = .handedOff)
    (hidle : c.releasing = .idle) (hwriting : c.writing = none) :
    CaptureKeeps c { c with releasing := .request } b b := by
  refine CaptureOk.keeps_same { h with
    releasing := fun _ => hended
    requestReleased := nofun
    released := fun hp => absurd hp id
    writing := fun hne => absurd hwriting hne
    written := fun _ => h.written (by rw [hidle]; exact id) } rfl ?_
  rw [heldSlots, heldSlots, hidle]
  rfl

theorem CaptureOk.releaseNext (hbytes : c.held ≤ b.usedBytes)
    (hslots : c.heldSlots ≤ b.inflight) (hnext : c.releaseNext b = some (c', b')) :
    CaptureKeeps c c' b b' := by
  unfold ContentBackupCapture.releaseNext at hnext
  unfold held at hbytes
  split at hnext
  · rename_i hreleasing
    cases hnext
    have hreading := h.finishing_reserved (by rw [hreleasing]; decide)
    have hresponse := h.response.reserved
    obtain ⟨hzero, hmoves⟩ := ChunkSink.release_moves (b := b) h.request (by omega)
    refine CaptureOk.keeps { h with
      request := hzero.ge
      unadopted := fun _ => hzero
      releasing := fun _ => h.releasing (by rw [hreleasing]; decide)
      requestReleased := fun _ => hzero
      released := fun hp => absurd hp id
      writing := fun hne => absurd hreleasing (h.writing hne).2.2.2.1
      written := fun _ => h.written (by rw [hreleasing]; exact id) } hmoves ?_ ?_
    · rw [held, held, hzero]
      ring
    · rw [heldSlots, heldSlots, hreleasing]
      exact sub_self _
  · rename_i hreleasing
    cases hnext
    have hreading := h.finishing_reserved (by rw [hreleasing]; decide)
    have hrequest := h.requestReleased hreleasing
    obtain ⟨hzero, hmoves⟩ := ChunkSink.release_moves (b := b) h.response.reserved (by omega)
    refine CaptureOk.keeps { h with
      response := ⟨le_rfl, rfl, hzero.ge⟩
      releasing := fun _ => h.releasing (by rw [hreleasing]; decide)
      requestReleased := fun _ => hrequest
      released := fun _ => ⟨hrequest, hzero, rfl, rfl⟩
      unarmed := fun harmed => ⟨(h.unarmed harmed).1, rfl, (h.unarmed harmed).2.2.1, rfl⟩
      writing := fun hne => absurd hreleasing (h.writing hne).2.2.2.2
      written := fun hp => absurd trivial hp } hmoves ?_ ?_
    · rw [held, held, hzero]
      ring
    · rw [heldSlots, heldSlots, hreleasing]
      cases c.slotHeld <;> rfl
  · rename_i slot hreleasing
    cases hnext
    have hpast : c.releasing.Past := by rw [hreleasing]; trivial
    have hreleased := h.released hpast
    have hok : CaptureOk { c with releasing := .done } := { h with
      releasing := fun _ => h.releasing (by rw [hreleasing]; simp)
      requestReleased := nofun
      released := fun _ => hreleased
      writing := fun hne => ⟨(h.writing hne).1, (h.writing hne).2.1, (h.writing hne).2.2.1,
        nofun, nofun⟩
      written := fun hp => absurd trivial hp }
    unfold heldSlots at hslots
    rw [hreleasing, hreleased.2.2.2] at hslots
    cases slot with
    | false =>
      refine hok.keeps (.refl b) (sub_self _) ?_
      rw [heldSlots, heldSlots, hreleasing]
      exact sub_self _
    | true =>
      refine hok.keeps (ContentBackupBudget.releaseCapture_moves (by simpa using hslots))
        (sub_self _) ?_
      rw [heldSlots, heldSlots, hreleasing, hreleased.2.2.2]
      rfl
  · cases hnext
  · cases hnext

/-- A step of a capture that fits keeps the invariant, and the budget moves with what it holds. -/
theorem CaptureOk.act (hbytes : c.held ≤ b.usedBytes)
    (hslots : c.heldSlots ≤ b.inflight) {a : CaptureAct} (hfits : CaptureFits c b a)
    (hact : c.act b a = some (c', b')) : CaptureKeeps c c' b b' := by
  cases a with
  | round round =>
    obtain ⟨-, heq⟩ := ite_none_right_eq_some.1 hact
    obtain ⟨rfl, rfl⟩ := Prod.mk.inj (some.inj heq)
    exact h.recordChannelRound hfits
  | observe p n =>
    obtain ⟨hunlocked, heq⟩ := ite_none_right_eq_some.1 hact
    cases heq
    exact h.observeResponseWrite hunlocked p n
  | append =>
    obtain ⟨p, hwriting, heq⟩ := map_eq_some_iff.1 hact
    obtain ⟨rfl, rfl⟩ := Prod.mk.inj heq
    exact h.appendRound hwriting hfits
  | hijack =>
    obtain ⟨hunlocked, heq⟩ := ite_none_right_eq_some.1 hact
    cases heq
    refine CaptureOk.keeps_same { h with
      writing := fun hne => absurd hunlocked.1 hne
      written := fun hpast => ?_ } rfl rfl
    obtain ⟨rest, hrest, -⟩ := h.written hpast
    exact ⟨rest, hrest, nofun⟩
  | finish =>
    obtain ⟨hrunning, heq⟩ := ite_none_right_eq_some.1 hact
    cases heq
    refine h.goto (by rw [hrunning]; trivial) le_rfl c.finished ?_
    rw [hrunning]
    exact .refl b
  | gate =>
    obtain ⟨hgate, heq⟩ := ite_none_right_eq_some.1 hact
    cases heq
    exact h.freezeGate hgate.1
  | replay storage =>
    dsimp only [ContentBackupCapture.act] at hact
    split at hact
    · rename_i limit hreading
      obtain ⟨rfl, rfl⟩ := Prod.mk.inj (some.inj hact)
      exact h.readRequest hreading storage
    · cases hact
  | fill data err =>
    dsimp only [ContentBackupCapture.act] at hact
    split at hact
    · rename_i sink want hfilling
      cases hact
      exact h.fill hfilling data err
    · cases hact
  | adopt =>
    dsimp only [ContentBackupCapture.act] at hact
    split at hact
    · rename_i sink hadopt
      obtain ⟨hunlocked, heq⟩ := ite_none_right_eq_some.1 hact
      cases heq
      exact h.freezeAdopt hadopt hunlocked.1
    · cases hact
  | settle handedOff =>
    obtain ⟨hfrozen, heq⟩ := ite_none_right_eq_some.1 hact
    cases heq
    have hidle : c.releasing = .idle := h.idle (by rw [hfrozen]; decide) (by rw [hfrozen]; decide)
    refine h.leave hidle (by rw [hfrozen]; rfl) ?_ ?_ <;> split_ifs
    · rfl
    · rfl
    · exact id
    · exact id
  | panic =>
    dsimp only [ContentBackupCapture.act] at hact
    split at hact
    case h_6 => cases hact
    all_goals
      rename_i hphase
      cases hact
      exact h.leave (h.idle (by rw [hphase]; simp) (by rw [hphase]; simp)) hfits rfl id
  | release =>
    have hended : c.finishing = .leaving ∨ c.finishing = .handedOff → (if c.releasing = .idle then
          if c.writing = none then some ({ c with releasing := .request }, b) else none
        else some (c, b)) = some (c', b') → CaptureKeeps c c' b b' := by
      intro hended hrelease
      split_ifs at hrelease with hidle hwriting
      · cases hrelease
        exact h.release hended hidle hwriting
      · cases hrelease
        exact h.keeps_same rfl rfl
    dsimp only [ContentBackupCapture.act] at hact
    split at hact
    · rename_i hleaving
      exact hended (.inl hleaving) hact
    · rename_i hhanded
      exact hended (.inr hhanded) hact
    · cases hact
  | releaseNext => exact h.releaseNext hbytes hslots hact

theorem CaptureOk.bytes_eq : c.bytes = c.held := by
  unfold bytes
  split_ifs with hdone
  · obtain ⟨hrequest, hresponse, -⟩ := h.released (by rw [hdone]; trivial)
    rw [held, hrequest, hresponse, h.finishing_reserved (by rw [hdone]; decide)]
    rfl
  · rfl

theorem CaptureOk.slots_eq : c.slots = c.heldSlots := by
  unfold slots
  by_cases hdone : c.releasing = .done
  · obtain ⟨-, -, -, hslot⟩ := h.released (by rw [hdone]; trivial)
    rw [if_pos hdone, heldSlots, hslot, hdone]
    rfl
  · rw [if_neg hdone]
    rfl

theorem CaptureOk.held_nonneg : 0 ≤ c.held :=
  add_nonneg (add_nonneg h.request h.response.reserved) h.reading

end

theorem ContentBackupCapture.heldSlots_nonneg (c : ContentBackupCapture) : 0 ≤ c.heldSlots := by
  unfold heldSlots
  split_ifs <;> decide

/-- A release that is under way takes nothing that is not counted. -/
def NoClamp (b : ContentBackupBudget) (c : ContentBackupCapture) : Prop :=
  (c.releasing = .request → c.request.reserved ≤ b.usedBytes) ∧
  (c.releasing = .response → c.response.reserved ≤ b.usedBytes) ∧
  (c.releasing = .slot true → 1 ≤ b.inflight)

theorem CaptureOk.noClamp (h : CaptureOk c) (hbytes : c.held ≤ b.usedBytes)
    (hslots : c.heldSlots ≤ b.inflight) : NoClamp b c := by
  have hrequest := h.request
  have hresponse := h.response.reserved
  have hreading := h.reading
  unfold held at hbytes
  refine ⟨fun _ => by omega, fun _ => by omega, fun hslot => le_trans ?_ hslots⟩
  rw [heldSlots, if_pos hslot]
  split_ifs <;> decide

theorem captureOk_new (maxBodyBytes : ℤ) (rounds : List ChannelRound) :
    CaptureOk { maxBodyBytes, rounds } where
  request := le_rfl
  response := ChunkSink.ok_empty 0 none
  reading := le_rfl
  unadopted _ := rfl
  releasing hne := absurd rfl hne
  requestReleased hne := nomatch hne
  released hp := absurd hp id
  unarmed _ := ⟨rfl, rfl, rfl, rfl⟩
  writing hne := absurd rfl hne
  written _ := ⟨[], rfl, fun _ _ _ => rfl⟩
  frozen _ hf := nomatch hf

theorem beginContentBackupCapture_moves {maxBodyBytes : ℤ} {initial : ChannelRound}
    {capture : Option ContentBackupCapture}
    (h : beginContentBackupCapture b maxBodyBytes initial = (capture, b')) :
    b.Moves b' (capture.elim 0 held) (capture.elim 0 heldSlots) ∧ ∀ c ∈ capture, CaptureOk c := by
  unfold beginContentBackupCapture at h
  split_ifs at h with hchannel henabled
  · cases h
    exact ⟨.refl b, fun _ hc => (nomatch hc)⟩
  · have harm := (captureOk_new maxBodyBytes [initial]).armLocked (b := b) fun hp => absurd hp id
    cases hacquire : b.acquireCapture with
    | mk ok b₁ =>
      have hmoves := ContentBackupBudget.acquireCapture_moves hacquire
      have harmed : ({ maxBodyBytes, rounds := [initial] } : ContentBackupCapture).armLocked b = _ :=
        if_neg (not_or.2 ⟨Bool.false_ne_true, Bool.false_ne_true⟩)
      dsimp only at h
      rw [hacquire] at harmed
      rw [harmed] at h harm
      cases ok with
      | false =>
        cases h
        exact ⟨hmoves, fun _ hc => (nomatch hc)⟩
      | true =>
        cases h
        refine ⟨harm.moves, fun c hc => ?_⟩
        cases hc
        exact harm.ok
  · cases h
    refine ⟨.refl b, fun c hc => ?_⟩
    cases hc
    exact captureOk_new maxBodyBytes [initial]

end Act

/-! ## The captures of the process -/

/-- The step does not reach one of the defects. -/
def CaptureSystemFits (s : CaptureSystem) : CaptureLabel → Prop
  | .act id a => ∀ c ∈ s.captures.get? id, CaptureFits c s.budget a
  | .setLimits _ _ | .begin _ _ _ => True

instance (s : CaptureSystem) : (label : CaptureLabel) → Decidable (CaptureSystemFits s label)
  | .act id _ => inferInstanceAs (Decidable (∀ c ∈ s.captures.get? id, _))
  | .setLimits _ _ | .begin _ _ _ => .isTrue trivial

def KeepsLimit (s : CaptureSystem) : CaptureLabel → Prop
  | .setLimits maxBytes _ => s.budget.maxBytes ≤ maxBytes
  | .begin _ _ _ | .act _ _ => True

/-- The counters are the sums over the captures. -/
structure MemoryOk (s : CaptureSystem) : Prop where
  captures : ∀ id c, s.captures.get? id = some c → CaptureOk c
  usedBytes : s.budget.usedBytes = s.captures.sum fun _ c => c.held
  inflight : s.budget.inflight = s.captures.sum fun _ c => c.heldSlots

section System

open ContentBackupCapture

variable {s s' : CaptureSystem} {label : CaptureLabel}

theorem MemoryOk.held_le (h : MemoryOk s) {id : ℕ} {c : ContentBackupCapture}
    (hget : s.captures.get? id = some c) :
    c.held ≤ s.budget.usedBytes ∧ c.heldSlots ≤ s.budget.inflight := by
  rw [h.usedBytes, h.inflight]
  exact ⟨le_sum (g := fun _ c => c.held) hget fun k c hc => (h.captures k c hc).held_nonneg,
    le_sum (g := fun _ c => c.heldSlots) hget fun _ c _ => c.heldSlots_nonneg⟩

theorem MemoryOk.step (h : MemoryOk s) (hfits : CaptureSystemFits s label)
    (hstep : s.step label = some s') :
    MemoryOk s' ∧ (KeepsLimit s label → s.budget.usedBytes ≤ s.budget.maxBytes →
      s'.budget.usedBytes ≤ s'.budget.maxBytes) := by
  cases label with
  | setLimits maxBytes maxInflight =>
    obtain rfl := some.inj hstep
    refine ⟨⟨h.captures, h.usedBytes, h.inflight⟩, fun hkeeps hle => ?_⟩
    dsimp only [KeepsLimit, setLimits] at hkeeps ⊢
    split_ifs <;> omega
  | begin id maxBodyBytes initial =>
    dsimp only [CaptureSystem.step] at hstep
    cases hbegin : beginContentBackupCapture s.budget maxBodyBytes initial with
    | mk capture budget =>
      rw [hbegin] at hstep
      obtain ⟨hmoves, hok⟩ := beginContentBackupCapture_moves hbegin
      cases capture with
      | none =>
        obtain rfl := some.inj hstep
        refine ⟨⟨h.captures, ?_, ?_⟩, fun _ hle => hmoves.fits hle⟩
        · rw [hmoves.usedBytes, ← h.usedBytes]
          exact add_zero _
        · rw [hmoves.inflight, ← h.inflight]
          exact add_zero _
      | some c =>
        obtain ⟨captures, hinsert, rfl⟩ := map_eq_some_iff.1 hstep
        refine ⟨⟨forall_get?_insert h.captures (hok c rfl) hinsert, ?_, ?_⟩,
          fun _ hle => hmoves.fits hle⟩
        · rw [sum_of_insert? hinsert, hmoves.usedBytes, h.usedBytes]
          rfl
        · rw [sum_of_insert? hinsert, hmoves.inflight, h.inflight]
          rfl
  | act id a =>
    dsimp only [CaptureSystem.step] at hstep
    split at hstep
    · cases hstep
    · rename_i c hget
      obtain ⟨⟨c', budget⟩, hact, rfl⟩ := map_eq_some_iff.1 hstep
      obtain ⟨hbytes, hslots⟩ := h.held_le hget
      obtain ⟨hok, hmoves⟩ := (h.captures id c hget).act hbytes hslots (hfits c hget) hact
      refine ⟨⟨forall_get?_put h.captures hok, ?_, ?_⟩, fun _ hle => hmoves.fits hle⟩
      · rw [sum_put, weight_of_some hget, hmoves.usedBytes, h.usedBytes]
      · rw [sum_put, weight_of_some hget, hmoves.inflight, h.inflight]

theorem memoryOk_init (maxBytes maxInflight : ℤ) : MemoryOk (.init maxBytes maxInflight) :=
  ⟨fun _ _ h => (nomatch h), rfl, rfl⟩

theorem MemoryOk.bytes_eq (h : MemoryOk s) : s.bytes = s.budget.usedBytes := by
  rw [h.usedBytes]
  exact sum_congr fun id c hget => (h.captures id c hget).bytes_eq

theorem MemoryOk.slots_eq (h : MemoryOk s) : s.slots = s.budget.inflight := by
  rw [h.inflight]
  exact sum_congr fun id c hget => (h.captures id c hget).slots_eq

end System

/-- In every run whose steps fit the counters are the sums of what the captures that are not released have
reserved; the bytes stay within a limit that is never shrunk; no release is clamped; at the end both are
0; and a frozen response is a prefix of what was written. -/
theorem capture_memory_of_run {maxBytes maxInflight : ℤ} {s : CaptureSystem}
    {l : List CaptureLabel} (h : Run.run CaptureSystem.step (.init maxBytes maxInflight) l = some s)
    (hfits : Run.Along CaptureSystem.step CaptureSystemFits (.init maxBytes maxInflight) l) :
    s.budget.usedBytes = s.bytes ∧
    s.budget.inflight = s.slots ∧
    (Run.Along CaptureSystem.step KeepsLimit (.init maxBytes maxInflight) l →
      s.budget.usedBytes ≤ s.budget.maxBytes) ∧
    (∀ id c, s.captures.get? id = some c → NoClamp s.budget c) ∧
    ((∀ id c, s.captures.get? id = some c → c.releasing = .done) →
      s.budget.usedBytes = 0 ∧ s.budget.inflight = 0) ∧
    (∀ id c f, s.captures.get? id = some c → c.frozen = some f →
      f.responseChunks.flatten <+: c.written) := by
  have hok : MemoryOk s := Run.invariant_along (fun s a s' hi hf hs => (hi.step hf hs).1)
    (memoryOk_init maxBytes maxInflight) hfits h
  refine ⟨hok.bytes_eq.symm, hok.slots_eq.symm, fun hkeeps => ?_, fun id c hget => ?_,
    fun hdone => ?_, fun id c f hget hf => (hok.captures id c hget).frozen f hf⟩
  · have hinit : MemoryOk (.init maxBytes maxInflight) ∧
        (CaptureSystem.init maxBytes maxInflight).budget.usedBytes ≤
          (CaptureSystem.init maxBytes maxInflight).budget.maxBytes := by
      refine ⟨memoryOk_init maxBytes maxInflight, ?_⟩
      show 0 ≤ if maxBytes < 0 then 0 else maxBytes
      split_ifs <;> omega
    have hstep : ∀ s a s', MemoryOk s ∧ s.budget.usedBytes ≤ s.budget.maxBytes →
        CaptureSystemFits s a ∧ KeepsLimit s a → CaptureSystem.step s a = some s' →
        MemoryOk s' ∧ s'.budget.usedBytes ≤ s'.budget.maxBytes := fun s a s' hi hf hs =>
      ⟨(hi.1.step hf.1 hs).1, (hi.1.step hf.1 hs).2 hf.2 hi.2⟩
    exact (Run.invariant_along hstep hinit (Run.along_and hfits hkeeps) h).2
  · obtain ⟨hbytes, hslots⟩ := hok.held_le hget
    exact (hok.captures id c hget).noClamp hbytes hslots
  · have hbytes : s.bytes = s.captures.sum fun _ _ => 0 :=
      sum_congr fun id c hget => if_pos (hdone id c hget)
    have hslots : s.slots = s.captures.sum fun _ _ => 0 :=
      sum_congr fun id c hget => if_pos (hdone id c hget)
    rw [← hok.bytes_eq, ← hok.slots_eq, hbytes, hslots]
    simp [Table.sum]

def backedUp : ChannelRound := { channelID := 1, backupEnabled := true }

def captureWrite (id : ℕ) (p : Bytes) (rounds : ℕ) : List CaptureLabel :=
  .act id (.observe p p.length) :: List.replicate rounds (.act id .append)

def captureFinish (id : ℕ) (body : Bytes) : List CaptureLabel :=
  [.act id .finish, .act id .gate, .act id (.replay (some (body.length, none))),
    .act id (.fill body none), .act id .adopt, .act id (.settle true)]

def captureRelease (id : ℕ) : List CaptureLabel :=
  .act id .release :: List.replicate 3 (.act id .releaseNext)

/-- Two captures; the second one is written between the rounds of a write to the first one, and the
first one is released twice. -/
def overlappingCaptures : List CaptureLabel :=
  [.begin 0 4 backedUp, .begin 1 4 { channelID := 2, backupEnabled := false },
    .act 1 (.round backedUp)] ++
    captureWrite 0 [1, 2, 3, 4, 5] 1 ++ captureWrite 1 [6] 1 ++ [.act 0 .append] ++
    captureFinish 0 [7, 8] ++ captureRelease 0 ++ [.act 0 .release]

theorem capture_memory_of_overlappingCaptures :
    ∃ s, Run.run CaptureSystem.step (.init 100000 2) overlappingCaptures = some s ∧
      s.budget.usedBytes = s.bytes ∧ s.budget.inflight = s.slots ∧ s.bytes = 4 ∧ s.slots = 1 := by
  have hfits : Run.Along CaptureSystem.step CaptureSystemFits (.init 100000 2)
      overlappingCaptures := by
    decide +kernel
  refine exists_some_imp (p := fun s => s.bytes = 4 ∧ s.slots = 1) (by decide +kernel)
    fun s h hvalues => ?_
  obtain ⟨hused, hinflight, -⟩ := capture_memory_of_run h hfits
  exact ⟨hused, hinflight, hvalues⟩

/-- A goroutine that writes after the capture was finished and released. -/
def lateWrite : List CaptureLabel :=
  [.begin 0 4 backedUp, .act 0 .finish, .act 0 .gate, .act 0 (.replay none), .act 0 .adopt,
    .act 0 (.settle false)] ++ captureRelease 0 ++ captureWrite 0 [1] 2

/-- What the late write reserves is never given back. -/
theorem late_write_leaks :
    ¬ ∀ maxBytes maxInflight s l,
      Run.run CaptureSystem.step (.init maxBytes maxInflight) l = some s →
      (∀ id c, s.captures.get? id = some c → c.releasing = .done) → s.budget.usedBytes = 0 := by
  intro hclaim
  obtain ⟨s, h, hdone, hused⟩ : ∃ s, Run.run CaptureSystem.step (.init 100000 2) lateWrite = some s ∧
      (∀ id c, s.captures.get? id = some c → c.releasing = .done) ∧ s.budget.usedBytes ≠ 0 := by
    decide +kernel
  exact hused (hclaim 100000 2 s lateWrite h hdone)

end BeeApi.ContentBackup
