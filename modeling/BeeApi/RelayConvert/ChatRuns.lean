import BeeApi.RelayConvert.ChatToClaudeRequest

/-!
# Runs of chat messages that are joined

The first loop of the conversion makes one message of each run, with the tool calls of its last
message and without the quotation marks at the ends of a joined text.
-/

namespace BeeApi.RelayConvert

open Strings List String

/-! ## The first loop -/

def formatOne (message : Message) : Message where
  role := message.role
  content :=
    if message.content = .null ∨ message.content = .str "" then .str "..." else message.content
  toolCallId := if message.role = "tool" then message.toolCallId else ""
  toolCalls := if message.role = "assistant" then message.toolCalls else none

def joinedText (s t : String) : String := trimChar (s ++ " " ++ t) '"'

def joinInto (last message : Message) : Message :=
  { formatOne message with content := .str (joinedText last.stringContent message.stringContent) }

def formatRun : List Message → Message
  | [] => { role := "" }
  | m :: ms => ms.foldl joinInto (formatOne m)

/-- The code's test on the message that was made last and the next one. -/
def Joined (last message : Message) : Prop :=
  last.role = message.role ∧ last.role ≠ "tool" ∧ last.isStringContent ∧ message.isStringContent

theorem blank_mem_trimChar (a b : List Char) :
    ' ' ∈ (((a ++ ' ' :: b).dropWhile (· = '"')).reverse.dropWhile (· = '"')).reverse := by
  have hmem : ∀ l : List Char, ' ' ∈ l → ' ' ∈ l.dropWhile (· = '"') := by
    intro l
    induction l with
    | nil => exact fun h => h
    | cons c l ih =>
      intro h
      by_cases hc : c = '"'
      · rw [dropWhile_cons_of_pos (by simpa using hc)]
        rcases mem_cons.1 h with rfl | h
        · exact absurd hc (by decide)
        · exact ih h
      · rw [dropWhile_cons_of_neg (by simpa using hc)]
        exact h
  refine mem_reverse.2 (hmem _ (mem_reverse.2 (hmem _ ?_)))
  exact mem_append_right a mem_cons_self

theorem joinedText_ne_empty (s t : String) : joinedText s t ≠ "" := by
  intro h
  have hlist := congrArg String.toList h
  unfold joinedText trimChar at hlist
  rw [toList_ofList] at hlist
  have hmem := blank_mem_trimChar s.toList t.toList
  have hsplit : (s ++ " " ++ t).toList = s.toList ++ ' ' :: t.toList := by
    rw [String.toList_append, String.toList_append, List.append_assoc]
    rfl
  rw [hsplit] at hlist
  rw [hlist] at hmem
  exact (nomatch hmem)

theorem formatStep_of_joined {acc : List Message} {last message : Message}
    (h : Joined last message) :
    formatStep (acc, last) message = (acc.dropLast ++ [joinInto last message], joinInto last message) := by
  have hne := joinedText_ne_empty last.stringContent message.stringContent
  unfold Joined at h
  unfold formatStep
  dsimp only
  rw [if_pos h]
  dsimp only
  rw [if_neg]
  · rfl
  · rintro (hnull | ⟨-, hempty⟩)
    · exact (nomatch hnull)
    · exact hne hempty

theorem formatStep_of_not_joined {acc : List Message} {last message : Message}
    (h : ¬ Joined last message) :
    formatStep (acc, last) message = (acc ++ [formatOne message], formatOne message) := by
  have hempty : (message.isStringContent ∧ message.stringContent = "") ↔ message.content = .str "" := by
    unfold Message.isStringContent Message.stringContent
    cases message.content with
    | null => simp
    | str s => simp
    | parts l => simp
  unfold Joined at h
  unfold formatStep
  dsimp only
  rw [if_neg h]
  dsimp only [formatOne]
  have hiff : (message.content = .null ∨ message.isStringContent ∧ message.stringContent = "") ↔
      (message.content = .null ∨ message.content = .str "") := or_congr Iff.rfl hempty
  by_cases hc : message.content = .null ∨ message.content = .str ""
  · rw [if_pos hc]
    have hcode := hiff.2 hc
    unfold Message.isStringContent Message.stringContent at hcode ⊢
    rw [if_pos hcode]
  · rw [if_neg hc]
    have hcode := fun h => hc (hiff.1 h)
    unfold Message.isStringContent Message.stringContent at hcode ⊢
    rw [if_neg hcode]

/-- A message that the first loop has made, as far as the next message can tell. -/
structure Like (made m : Message) : Prop where
  role : made.role = m.role
  isString : made.isStringContent = true ↔ m.content = .null ∨ m.isStringContent = true

theorem like_formatOne (m : Message) : Like (formatOne m) m := by
  refine ⟨rfl, ?_⟩
  unfold formatOne Message.isStringContent
  cases m.content with
  | null => simp
  | str s => by_cases hs : s = "" <;> simp [hs]
  | parts l => simp

variable {m m' made : Message} {ms g : List Message} {s t : String}

theorem Like.joined_iff (h : Like made m) : Joined made m' ↔ joins m m' = true := by
  unfold Joined joins
  rw [h.role, h.isString, decide_eq_true_iff]

theorem like_joinInto (h : joins m m' = true) : Like (joinInto made m') m' := by
  unfold joins at h
  exact ⟨rfl, fun _ => .inr (of_decide_eq_true h).2.2.2, fun _ => rfl⟩

theorem foldl_formatStep_run {acc : List Message} (hmade : Like made m)
    (hchain : (m :: ms).IsChain fun a b => joins a b = true) :
    ms.foldl formatStep (acc ++ [made], made) =
        (acc ++ [ms.foldl joinInto made], ms.foldl joinInto made) ∧
      Like (ms.foldl joinInto made) ((m :: ms).getLast (cons_ne_nil m ms)) := by
  induction ms generalizing made m with
  | nil => exact ⟨rfl, hmade⟩
  | cons m' ms ih =>
    obtain ⟨hjoins, hchain⟩ := isChain_cons_cons.1 hchain
    have hstep := @formatStep_of_joined (acc ++ [made]) made m' (hmade.joined_iff.2 hjoins)
    rw [dropLast_concat] at hstep
    rw [foldl_cons, foldl_cons, hstep, getLast_cons (cons_ne_nil m' ms)]
    exact ih (like_joinInto hjoins) hchain

theorem foldl_formatStep {acc : List Message} {last : Message} {g : List Message} (hne : g ≠ [])
    (hchain : g.IsChain fun a b => joins a b = true) (hfirst : ¬ Joined last (g.head hne)) :
    g.foldl formatStep (acc, last) = (acc ++ [formatRun g], formatRun g) ∧
      Like (formatRun g) (g.getLast hne) := by
  cases g with
  | nil => exact absurd rfl hne
  | cons m ms =>
    have hfirst : ¬ Joined last m := hfirst
    rw [foldl_cons, formatStep_of_not_joined hfirst]
    exact foldl_formatStep_run (like_formatOne m) hchain

theorem foldl_formatStep_flatten {acc : List Message} {last : Message} {gs : List (List Message)}
    (hne : [] ∉ gs) (hchain : ∀ g ∈ gs, g.IsChain fun a b => joins a b = true)
    (hbreak : gs.IsChain fun a b => ∃ ha hb, joins (a.getLast ha) (b.head hb) = false)
    (hfirst : ∀ g ∈ gs.head?, ∀ m ∈ g.head?, ¬ Joined last m) :
    (gs.flatten.foldl formatStep (acc, last)).1 = acc ++ gs.map formatRun := by
  induction gs generalizing acc last with
  | nil => exact (append_nil acc).symm
  | cons g gs ih =>
    have hg : g ≠ [] := fun h => hne (h ▸ mem_cons_self)
    obtain ⟨hrun, hlike⟩ := @foldl_formatStep acc last g hg (hchain g mem_cons_self)
      (hfirst g rfl _ (head_mem_head? hg))
    rw [flatten_cons, foldl_append, hrun, ih (fun h => hne (mem_cons_of_mem g h))
      (fun g' hg' => hchain g' (mem_cons_of_mem g hg')) hbreak.tail]
    · rw [List.append_assoc, List.map_cons]
      rfl
    · intro g' hg' m hm hjoined
      cases gs with
      | nil => exact (nomatch hg')
      | cons g'' gs =>
        cases hg'
        obtain ⟨⟨ha, hb, hno⟩, -⟩ := isChain_cons_cons.1 hbreak
        rw [← head_of_mem_head? hm, hlike.joined_iff, hno] at hjoined
        exact (nomatch hjoined)

theorem formatMessages_eq (messages : List Message) :
    formatMessages messages = (runs messages).map formatRun := by
  have hloop := @foldl_formatStep_flatten [] { role := "tool" } (runs messages)
    (nil_notMem_splitBy joins messages) (fun _ => isChain_of_mem_splitBy)
    (isChain_getLast_head_splitBy joins messages) fun _ _ _ _ h => h.2.1 rfl
  unfold formatMessages
  unfold runs at hloop ⊢
  rwa [flatten_splitBy, nil_append] at hloop

/-! ## Quotation marks -/

def quotes (s : String) : ℕ := s.toList.count '"'

/-- The text begins with a quotation mark. -/
def Opens (s : String) : Prop := s.toList.head? = some '"'

/-- The text ends with a quotation mark. -/
def Closes (s : String) : Prop := s.toList.getLast? = some '"'

instance : DecidablePred Opens := fun s => inferInstanceAs (Decidable (s.toList.head? = some '"'))

instance : DecidablePred Closes :=
  fun s => inferInstanceAs (Decidable (s.toList.getLast? = some '"'))

theorem quotes_append (s t : String) : quotes (s ++ t) = quotes s + quotes t := by
  rw [quotes, toList_append, count_append]
  rfl

theorem dropWhile_eq_self {l : List Char} (h : l.head? ≠ some '"') : l.dropWhile (· = '"') = l := by
  cases l with
  | nil => rfl
  | cons c l =>
    have hc : c ≠ '"' := fun hc => h (congrArg some hc)
    exact dropWhile_cons_of_neg (by simpa using hc)

theorem head_ne_of_count_dropWhile {l : List Char}
    (h : (l.dropWhile (· = '"')).count '"' = l.count '"') : l.head? ≠ some '"' := by
  cases l with
  | nil => exact nofun
  | cons c l =>
    intro hc
    cases hc
    rw [dropWhile_cons_of_pos (by decide), count_cons_self] at h
    have hle := (dropWhile_sublist (l := l) (· = '"')).count_le '"'
    omega

theorem trimChar_eq_self (hopens : ¬ Opens s) (hcloses : ¬ Closes s) : trimChar s '"' = s := by
  apply toList_injective
  unfold trimChar
  rw [toList_ofList, dropWhile_eq_self hopens, dropWhile_eq_self (l := s.toList.reverse),
    reverse_reverse]
  rw [head?_reverse]
  exact hcloses

theorem quotes_trimChar_le (s : String) : quotes (trimChar s '"') ≤ quotes s := by
  unfold quotes trimChar
  rw [toList_ofList, count_reverse]
  refine le_trans ((dropWhile_sublist _).count_le '"') ?_
  rw [count_reverse]
  exact (dropWhile_sublist _).count_le '"'

theorem ends_of_quotes_trimChar (h : quotes (trimChar s '"') = quotes s) :
    ¬ Opens s ∧ ¬ Closes s := by
  unfold quotes trimChar at h
  rw [toList_ofList, count_reverse] at h
  have hleft := (dropWhile_sublist (l := s.toList) (· = '"')).count_le '"'
  have hright := (dropWhile_sublist (l := (s.toList.dropWhile (· = '"')).reverse)
    (· = '"')).count_le '"'
  rw [count_reverse] at hright
  have hopens : ¬ Opens s := head_ne_of_count_dropWhile (by omega)
  rw [dropWhile_eq_self hopens] at h hright
  have hcloses := head_ne_of_count_dropWhile (l := s.toList.reverse) (by
    rw [count_reverse]
    omega)
  rw [head?_reverse] at hcloses
  exact ⟨hopens, hcloses⟩

theorem opens_blank_iff (s t : String) : Opens (s ++ " " ++ t) ↔ Opens s := by
  unfold Opens
  rw [toList_append, toList_append]
  cases s.toList with
  | nil => exact ⟨nofun, nofun⟩
  | cons c l => exact Iff.rfl

theorem closes_blank_iff (s t : String) : Closes (s ++ " " ++ t) ↔ Closes t := by
  unfold Closes
  rw [toList_append, toList_append]
  rcases t.toList.eq_nil_or_concat with ht | ⟨l, c, ht⟩
  · rw [ht, append_nil]
    have hlast : (s.toList ++ " ".toList).getLast? = some ' ' := getLast?_concat
    rw [hlast]
    exact ⟨fun h => absurd (Option.some.inj h) (by decide), nofun⟩
  · rw [ht, List.concat_eq_append, ← List.append_assoc, List.getLast?_concat, List.getLast?_concat]

theorem quotes_blank (s t : String) : quotes (s ++ " " ++ t) = quotes s + quotes t := by
  rw [quotes_append, quotes_append]
  rfl

theorem joinedText_eq (hs : ¬ Opens s) (ht : ¬ Closes t) : joinedText s t = s ++ " " ++ t :=
  trimChar_eq_self (fun h => hs ((opens_blank_iff s t).1 h)) fun h => ht ((closes_blank_iff s t).1 h)

theorem quotes_joinedText_le (s t : String) : quotes (joinedText s t) ≤ quotes s + quotes t :=
  quotes_blank s t ▸ quotes_trimChar_le (s ++ " " ++ t)

theorem ends_of_quotes_joinedText (h : quotes (joinedText s t) = quotes s + quotes t) :
    ¬ Opens s ∧ ¬ Closes t := by
  rw [← quotes_blank] at h
  obtain ⟨hopens, hcloses⟩ := ends_of_quotes_trimChar h
  rw [opens_blank_iff] at hopens
  rw [closes_blank_iff] at hcloses
  exact ⟨hopens, hcloses⟩

theorem foldl_joinedText {l : List String} (hs : ¬ Opens s) (hl : ∀ t ∈ l, ¬ Closes t) :
    l.foldl joinedText s = " ".intercalate (s :: l) := by
  induction l generalizing s with
  | nil => exact intercalate_singleton.symm
  | cons t l ih =>
    rw [foldl_cons, joinedText_eq hs (hl t mem_cons_self),
      ih (fun h => hs ((opens_blank_iff s t).1 h)) fun t' ht' => hl t' (mem_cons_of_mem t ht'),
      String.intercalate_cons_append, String.intercalate_cons_cons]

theorem quotes_foldl_joinedText_le (s : String) (l : List String) :
    quotes (l.foldl joinedText s) ≤ quotes s + (l.map quotes).sum := by
  induction l generalizing s with
  | nil => exact Nat.le_refl _
  | cons t l ih =>
    have hone := quotes_joinedText_le s t
    have hrest := ih (joinedText s t)
    rw [foldl_cons, map_cons, sum_cons]
    omega

theorem kept_of_quotes_foldl {l : List String}
    (h : quotes (l.foldl joinedText s) = quotes s + (l.map quotes).sum) :
    (l ≠ [] → ¬ Opens s) ∧ ∀ t ∈ l, ¬ Closes t := by
  induction l generalizing s with
  | nil => exact ⟨fun h => absurd rfl h, nofun⟩
  | cons t l ih =>
    have hone := quotes_joinedText_le s t
    have hrest := quotes_foldl_joinedText_le (joinedText s t) l
    rw [foldl_cons, map_cons, sum_cons] at h
    obtain ⟨hs, ht⟩ := ends_of_quotes_joinedText (show quotes (joinedText s t) = _ by omega)
    refine ⟨fun _ => hs, fun t' ht' => ?_⟩
    rcases mem_cons.1 ht' with rfl | ht'
    · exact ht
    · exact (ih (s := joinedText s t) (by omega)).2 t' ht'

/-! ## The message of a run -/

/-- Only the last message of a run has tool calls, and no quotation mark stands at an end. -/
def KeptRun (g : List Message) : Prop :=
  (∀ m ∈ g.dropLast, m.parseToolCalls = []) ∧
    (2 ≤ g.length → ∀ m ∈ g.head?, ¬ Opens m.stringContent) ∧
    ∀ m ∈ g.tail, ¬ Closes m.stringContent

instance : DecidablePred KeptRun := fun g =>
  inferInstanceAs (Decidable ((∀ m ∈ g.dropLast, m.parseToolCalls = []) ∧
    (2 ≤ g.length → ∀ m ∈ g.head?, ¬ Opens m.stringContent) ∧
    ∀ m ∈ g.tail, ¬ Closes m.stringContent))

theorem mem_runs {messages : List Message} (h : g ∈ runs messages) :
    g ≠ [] ∧ (g.IsChain fun a b => joins a b = true) ∧ ∀ m ∈ g, m ∈ messages := by
  refine ⟨ne_nil_of_mem_splitBy h, isChain_of_mem_splitBy h, fun m hm => ?_⟩
  have hflatten := flatten_splitBy joins messages
  rw [← hflatten]
  exact mem_flatten.2 ⟨g, h, hm⟩

theorem of_joins {a b : Message} (h : joins a b = true) :
    a.role = b.role ∧ a.role ≠ "tool" ∧ (∀ l, a.content ≠ .parts l) ∧ ∀ l, b.content ≠ .parts l := by
  unfold joins Message.isStringContent at h
  obtain ⟨hrole, htool, ha, hb⟩ := of_decide_eq_true h
  refine ⟨hrole, htool, fun l hl => ?_, fun l hl => ?_⟩
  · rw [hl] at ha
    rcases ha with ha | ha
    · exact (nomatch ha)
    · exact (nomatch ha)
  · rw [hl] at hb
    exact (nomatch hb)

theorem role_eq_of_chain {R : Message → Message → Prop} (hR : ∀ a b, R a b → a.role = b.role)
    (h : (m :: ms).IsChain R) : ∀ m' ∈ ms, m'.role = m.role := by
  induction ms generalizing m with
  | nil => exact nofun
  | cons m₁ ms ih =>
    obtain ⟨hfirst, hrest⟩ := isChain_cons_cons.1 h
    intro m' hm'
    rcases mem_cons.1 hm' with rfl | hm'
    · exact (hR _ _ hfirst).symm
    · exact (ih hrest m' hm').trans (hR _ _ hfirst).symm

theorem no_parts_of_chain (h : (m :: m' :: ms).IsChain fun a b => joins a b = true) :
    ∀ x ∈ m :: m' :: ms, ∀ l, x.content ≠ .parts l := by
  induction ms generalizing m m' with
  | nil =>
    obtain ⟨-, -, ha, hb⟩ := of_joins (isChain_cons_cons.1 h).1
    intro x hx
    simp only [mem_cons, not_mem_nil, or_false] at hx
    rcases hx with rfl | rfl
    · exact ha
    · exact hb
  | cons m'' ms ih =>
    obtain ⟨hfirst, hrest⟩ := isChain_cons_cons.1 h
    intro x hx
    rcases mem_cons.1 hx with rfl | hx
    · exact (of_joins hfirst).2.2.1
    · exact ih hrest x hx

theorem foldl_joinInto {made m : Message} {ms : List Message} :
    (ms.foldl joinInto made).stringContent =
        (ms.map Message.stringContent).foldl joinedText made.stringContent ∧
      (made.toolCalls = (formatOne m).toolCalls → (ms.foldl joinInto made).toolCalls =
        (formatOne ((m :: ms).getLast (cons_ne_nil m ms))).toolCalls) ∧
      (made.role = m.role → (ms.foldl joinInto made).role =
        ((m :: ms).getLast (cons_ne_nil m ms)).role) ∧
      (made.isStringContent = true ∨ ms ≠ [] → (ms.foldl joinInto made).isStringContent = true) := by
  induction ms generalizing made m with
  | nil => exact ⟨rfl, fun h => h, fun h => h, fun h => h.resolve_right fun h => h rfl⟩
  | cons m' ms ih =>
    obtain ⟨hstring, hcalls, hrole, his⟩ := @ih (joinInto made m') m'
    rw [foldl_cons, map_cons, foldl_cons, getLast_cons (cons_ne_nil m' ms)]
    exact ⟨hstring, fun _ => hcalls rfl, fun _ => hrole rfl, fun _ => his (.inl rfl)⟩

theorem standsFor_formatOne (m : Message) (h : ∀ l, m.content ≠ .parts l) :
    StandsFor (formatOne m).stringContent m.stringContent ∧ (formatOne m).isStringContent = true := by
  unfold formatOne Message.stringContent Message.isStringContent StandsFor
  cases hc : m.content with
  | null => simp
  | str s => by_cases hs : s = "" <;> simp [hs]
  | parts l => exact absurd hc (h l)

theorem quotes_of_standsFor {p : String} (h : StandsFor p t) : quotes p = quotes t := by
  rcases h with rfl | ⟨rfl, rfl⟩ <;> rfl

theorem opens_of_standsFor {p : String} (h : StandsFor p t) : Opens p ↔ Opens t := by
  rcases h with rfl | ⟨rfl, rfl⟩
  · exact Iff.rfl
  · exact ⟨fun h => absurd h (by unfold Opens; decide), fun h => absurd h (by unfold Opens; decide)⟩

/-! ## What a run weighs -/

def quotesOf (l : List String) : ℕ := (l.map quotes).sum

def messageWeight (m : Message) : ℕ :=
  (if m.role = "tool" then 0 else quotesOf m.texts) + m.parseToolCalls.length

theorem quotesOf_append (l l' : List String) : quotesOf (l ++ l') = quotesOf l + quotesOf l' := by
  rw [quotesOf, map_append, sum_append]
  rfl

theorem quotesOf_filter (l : List String) : quotesOf (l.filter (· ≠ "")) = quotesOf l := by
  induction l with
  | nil => rfl
  | cons s l ih =>
    by_cases hs : s = ""
    · rw [filter_cons_of_neg (by simpa using hs), ih, hs]
      exact (Nat.zero_add _).symm
    · rw [filter_cons_of_pos (by simpa using hs), quotesOf, map_cons, sum_cons]
      exact congrArg (quotes s + ·) ih

theorem quotesOf_texts (h : ∀ l, m.content ≠ .parts l) :
    quotesOf m.texts = quotes m.stringContent := by
  unfold Message.texts Message.parseContent Message.stringContent
  cases hc : m.content with
  | null => rfl
  | str s => exact Nat.add_zero _
  | parts l => exact absurd hc (h l)

theorem parseToolCalls_formatOne (h : m.IsConversation) :
    (formatOne m).parseToolCalls = m.parseToolCalls := by
  unfold Message.parseToolCalls formatOne
  dsimp only
  split_ifs with hrole
  · rfl
  · have hnone : m.toolCalls = none := by
      by_contra hcalls
      exact hrole (h.2.1 hcalls)
    rw [hnone]

theorem messageWeight_formatOne (h : m.IsConversation) :
    messageWeight (formatOne m) = messageWeight m := by
  have htexts : quotesOf (formatOne m).texts = quotesOf m.texts := by
    unfold formatOne Message.texts Message.parseContent
    dsimp only
    split_ifs with hc
    · rcases hc with hc | hc
      · rw [hc]
        rfl
      · rw [hc]
        rfl
    · rfl
  unfold messageWeight
  rw [htexts, parseToolCalls_formatOne h]
  rfl

theorem texts_of_isStringContent {f : Message} (h : f.isStringContent = true) :
    f.texts = [f.stringContent] := by
  unfold Message.isStringContent at h
  unfold Message.texts Message.parseContent Message.stringContent
  cases hc : f.content with
  | null | parts => rw [hc] at h; exact (nomatch h)
  | str s => rfl

theorem texts_formatRun :
    (formatRun (m :: m' :: ms)).texts =
      [((m' :: ms).map Message.stringContent).foldl joinedText (formatOne m).stringContent] := by
  obtain ⟨hstring, -, -, his⟩ := @foldl_joinInto (formatOne m) m (m' :: ms)
  have htexts := texts_of_isStringContent (his (.inr (cons_ne_nil m' ms)))
  rw [hstring] at htexts
  exact htexts

theorem parseToolCalls_formatRun (h : ∀ x ∈ m :: ms, x.IsConversation) :
    (formatRun (m :: ms)).parseToolCalls =
      ((m :: ms).getLast (cons_ne_nil m ms)).parseToolCalls := by
  have hcalls := (@foldl_joinInto (formatOne m) m ms).2.1 rfl
  rw [← parseToolCalls_formatOne (h _ (getLast_mem _))]
  exact congrArg (Option.getD · []) hcalls

theorem role_formatRun (h : (m :: ms).IsChain fun a b => joins a b = true) :
    ∀ x ∈ m :: ms, x.role = (formatRun (m :: ms)).role := by
  have hrole := (@foldl_joinInto (formatOne m) m ms).2.2.1 rfl
  have hsame : ∀ x ∈ m :: ms, x.role = m.role := by
    intro x hx
    rcases mem_cons.1 hx with rfl | hx
    · rfl
    · exact role_eq_of_chain (fun _ _ h => (of_joins h).1) h x hx
  intro x hx
  rw [hsame x hx]
  exact (hsame _ (getLast_mem _)).symm.trans hrole.symm

/-- Joining a run never adds to its weight, and it keeps the weight only when nothing is lost. -/
theorem messageWeight_formatRun (hne : g ≠ []) (hchain : g.IsChain fun a b => joins a b = true)
    (hconv : ∀ m ∈ g, m.IsConversation) :
    messageWeight (formatRun g) ≤ (g.map messageWeight).sum ∧
      (messageWeight (formatRun g) = (g.map messageWeight).sum → KeptRun g) := by
  match g, hne with
  | [m], _ =>
    have hone := messageWeight_formatOne (hconv m mem_cons_self)
    have hsum : ([m].map messageWeight).sum = messageWeight m := Nat.add_zero _
    rw [hsum]
    exact ⟨hone.le, fun _ => ⟨nofun, fun h => absurd h (by simp), nofun⟩⟩
  | m :: m' :: ms, _ =>
    let last := (m :: m' :: ms).getLast (cons_ne_nil m (m' :: ms))
    have hparts := no_parts_of_chain hchain
    have hrole := role_formatRun hchain
    have htool : ∀ x ∈ m :: m' :: ms, x.role ≠ "tool" := by
      intro x hx
      rw [hrole x hx, ← hrole m mem_cons_self]
      exact (of_joins (isChain_cons_cons.1 hchain).1).2.1
    have hstands := (standsFor_formatOne m (hparts m mem_cons_self)).1
    -- the weight before is that of the texts and of the tool calls, message by message
    have hweight : ((m :: m' :: ms).map messageWeight).sum =
        quotes m.stringContent + (((m' :: ms).map Message.stringContent).map quotes).sum +
          ((m :: m' :: ms).map fun x => x.parseToolCalls.length).sum := by
      have hmap : (m :: m' :: ms).map messageWeight = (m :: m' :: ms).map fun x =>
          quotes x.stringContent + x.parseToolCalls.length := by
        refine map_congr_left fun x hx => ?_
        rw [messageWeight, if_neg (htool x hx), quotesOf_texts (hparts x hx)]
      rw [hmap, List.sum_map_add, List.map_map, List.map_cons, List.sum_cons]
      rfl
    have hcalls : ((m :: m' :: ms).map fun x => x.parseToolCalls.length).sum =
        ((m :: m' :: ms).dropLast.map fun x => x.parseToolCalls.length).sum +
          last.parseToolCalls.length := by
      conv_lhs => rw [← dropLast_append_getLast (cons_ne_nil m (m' :: ms))]
      rw [map_append, sum_append]
      rfl
    have hrun : messageWeight (formatRun (m :: m' :: ms)) =
        quotes (((m' :: ms).map Message.stringContent).foldl joinedText
          (formatOne m).stringContent) + last.parseToolCalls.length := by
      have hnot : (formatRun (m :: m' :: ms)).role ≠ "tool" :=
        hrole m mem_cons_self ▸ htool m mem_cons_self
      rw [messageWeight, if_neg hnot, texts_formatRun, parseToolCalls_formatRun hconv]
      rfl
    have hle := quotes_foldl_joinedText_le (formatOne m).stringContent
      ((m' :: ms).map Message.stringContent)
    rw [quotes_of_standsFor hstands] at hle
    rw [hweight, hcalls, hrun]
    refine ⟨by omega, fun heq => ?_⟩
    have hzero : ((m :: m' :: ms).dropLast.map fun x => x.parseToolCalls.length).sum = 0 := by omega
    obtain ⟨hopens, hcloses⟩ := kept_of_quotes_foldl
      (show quotes (((m' :: ms).map Message.stringContent).foldl joinedText
        (formatOne m).stringContent) = _ by rw [quotes_of_standsFor hstands]; omega)
    refine ⟨fun x hx => ?_, fun _ x hx => ?_, fun x hx => ?_⟩
    · exact List.length_eq_zero_iff.1 (List.sum_eq_zero_iff_forall_eq_nat.1 hzero _ (List.mem_map_of_mem hx))
    · cases hx
      rw [← opens_of_standsFor hstands]
      exact hopens (cons_ne_nil _ _)
    · exact hcloses _ (mem_map_of_mem hx)

theorem keepsTexts_formatRun (hne : g ≠ []) (hchain : g.IsChain fun a b => joins a b = true)
    (hkept : KeptRun g) : KeepsTexts g ((formatRun g).texts.filter (· ≠ "")) := by
  have hjoined : ∀ {g : List Message} {pieces : List String}, (∀ m ∈ g, ∀ l, m.content ≠ .parts l) →
      List.Forall₂ StandsFor pieces (g.map Message.stringContent) → " ".intercalate pieces ≠ "" →
      (formatRun g).texts = [" ".intercalate pieces] →
      KeepsTexts g ((formatRun g).texts.filter (· ≠ "")) := by
    intro g pieces hg hpieces hempty htexts
    rw [htexts, filter_cons_of_pos (by simpa using hempty)]
    exact .joined hg hpieces
  match g, hne with
  | [m], _ =>
    by_cases hparts : ∀ l, m.content ≠ .parts l
    · obtain ⟨hstands, hstring⟩ := standsFor_formatOne m hparts
      have htexts := texts_of_isStringContent hstring
      refine @hjoined [m] [(formatOne m).stringContent] ?_ (.cons hstands .nil) ?_ ?_
      · intro x hx
        rw [mem_singleton.1 hx]
        exact hparts
      · rw [String.intercalate_singleton]
        unfold formatOne Message.stringContent
        dsimp only
        split_ifs with hc
        · decide
        · obtain ⟨hnull, hempty⟩ := not_or.1 hc
          cases hc : m.content with
          | null => exact absurd hc hnull
          | str s => exact fun hs => hempty (hc.trans (congrArg MessageContent.str hs))
          | parts l => exact absurd hc (hparts l)
      · rw [String.intercalate_singleton]
        exact htexts
    · obtain ⟨l, hl⟩ := not_forall.1 hparts
      have hl := not_not.1 hl
      have hsame : (formatOne m).texts = m.texts := by
        unfold formatOne Message.texts Message.parseContent
        rw [hl]
        rfl
      show KeepsTexts [m] ((formatOne m).texts.filter (· ≠ ""))
      rw [hsame]
      exact .parts hl
  | m :: m' :: ms, _ =>
    have hparts := no_parts_of_chain hchain
    have hstands := (standsFor_formatOne m (hparts m mem_cons_self)).1
    have hopens : ¬ Opens (formatOne m).stringContent := by
      rw [opens_of_standsFor hstands]
      exact hkept.2.1 (by simp) m rfl
    have hcloses : ∀ t ∈ (m' :: ms).map Message.stringContent, ¬ Closes t := by
      intro t ht
      obtain ⟨x, hx, rfl⟩ := mem_map.1 ht
      exact hkept.2.2 x hx
    have htexts : (formatRun (m :: m' :: ms)).texts =
        [" ".intercalate ((formatOne m).stringContent :: (m' :: ms).map Message.stringContent)] := by
      rw [texts_formatRun, foldl_joinedText hopens hcloses]
    refine hjoined hparts ?_ ?_ htexts
    · rw [map_cons]
      exact .cons hstands (forall₂_same.2 fun _ _ => .inl rfl)
    · intro hempty
      have hlist := congrArg String.toList hempty
      rw [List.map_cons, String.intercalate_cons_cons, String.toList_append, String.toList_append,
        List.append_assoc] at hlist
      have hlength := congrArg List.length hlist
      rw [List.length_append, List.length_append] at hlength
      exact absurd hlength (by simp)

end BeeApi.RelayConvert
