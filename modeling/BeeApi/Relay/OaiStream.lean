import BeeApi.RelayConvert.ChatToClaudeStream

/-!
# The stream of an OpenAI channel

`OaiStreamHandler` works one chunk behind: a chunk is sent or converted when the next one arrives,
and the last one at the end, where `handleLastResponse` and `HandleFinalResponse` decide what becomes
of it.  No format is forced, and the client stays connected.
-/

namespace BeeApi.OaiStream

open RelayConvert Strings List

inductive RelayFormat
  | openAI
  | claude
  | gemini
deriving DecidableEq

inductive RelayMode
  | chatCompletions
  | unknown
deriving DecidableEq

/-- What the handler reads of `RelayInfo` and never changes. -/
structure RelayInfo where
  relayFormat : RelayFormat
  relayMode : RelayMode := .chatCompletions
  shouldIncludeUsage : Bool := false
  upstreamModelName : String := ""
  estimatePromptTokens : ℤ := 0

def RelayInfo.isAudioModel (info : RelayInfo) : Bool :=
  contains (toLower info.upstreamModelName) "audio"

/-- The functions the handler calls.  `toGemini` converts one chunk and keeps no state between the
chunks. -/
structure Services (Γ : Type) where
  unmarshal : String → Option Chunk
  toGemini : Chunk → Option Γ
  estimateTokenByModel : String → String → ℤ

inductive Sent (Γ : Type)
  | data (data : String)
  | finalUsage (id model : String) (usage : Usage)
  | done
  | claude (event : ClaudeEvent)
  | gemini (response : Γ)

/-- The variables of the handler, the part of `RelayInfo` that it changes, the calls of
`ConvertStreamResponse` with the count they were made at, and what the client was sent. -/
structure Handler (Γ : Type) where
  lastStreamData : String := ""
  secondLastStreamData : String := ""
  responseText : String := ""
  toolCount : ℕ := 0
  sendResponseCount : ℕ := 0
  claudeConvertInfo : ClaudeConvertInfo := {}
  conversions : List (Chunk × ℕ) := []
  sent : List (Sent Γ) := []

variable {Γ : Type} (S : Services Γ) (info : RelayInfo)

/-! ## A chunk on its way -/

namespace Handler

def send (h : Handler Γ) (messages : List (Sent Γ)) : Handler Γ :=
  { h with sent := h.sent ++ messages }

def convertToClaude (h : Handler Γ) (chunk : Chunk) : Handler Γ :=
  let result := streamResponseOpenAI2Claude h.sendResponseCount chunk h.claudeConvertInfo
  { h with
    claudeConvertInfo := result.2
    conversions := h.conversions ++ [(chunk, h.sendResponseCount)]
    sent := h.sent ++ result.1.map .claude }

def convertToGemini (h : Handler Γ) (chunk : Chunk) : Handler Γ :=
  { h with
    conversions := h.conversions ++ [(chunk, h.sendResponseCount)]
    sent := h.sent ++ (S.toGemini chunk).toList.map .gemini }

def sendStreamData (h : Handler Γ) (data : String) : Handler Γ :=
  if data = "" then h else h.send [.data data]

def handleClaudeFormat (h : Handler Γ) (data : String) : Handler Γ :=
  match S.unmarshal data with
  | none => h
  | some streamResponse =>
    let usage := streamResponse.usage.orElse fun _ => h.claudeConvertInfo.usage
    convertToClaude { h with claudeConvertInfo := { h.claudeConvertInfo with usage := usage } }
      streamResponse

def handleGeminiFormat (h : Handler Γ) (data : String) : Handler Γ :=
  match S.unmarshal data with
  | none => h
  | some streamResponse => h.convertToGemini S streamResponse

def handleStreamFormat (h : Handler Γ) (data : String) : Handler Γ :=
  let h := { h with sendResponseCount := h.sendResponseCount + 1 }
  match info.relayFormat with
  | .openAI => h.sendStreamData data
  | .claude => h.handleClaudeFormat S data
  | .gemini => h.handleGeminiFormat S data

def choiceText (choice : Choice) : String :=
  choice.delta.getContentString ++ choice.delta.getReasoningContent ++
    joined (choice.delta.toolCalls.map fun tool => tool.name ++ tool.arguments)

def processStreamResponse (h : Handler Γ) (streamResponse : Chunk) : Handler Γ :=
  { h with
    responseText := h.responseText ++ joined (streamResponse.choices.map choiceText)
    toolCount :=
      (streamResponse.choices.map fun choice => choice.delta.toolCalls.length).foldl max
        h.toolCount }

def processToken (h : Handler Γ) (streamItem : String) : Handler Γ :=
  if streamItem = "" ∨ streamItem = "[DONE]" ∨ info.relayMode ≠ .chatCompletions then h
  else
    match S.unmarshal streamItem with
    | none => h
    | some streamResponse => h.processStreamResponse streamResponse

/-- The function that `StreamScannerHandler` calls with each data line. -/
def handleData (h : Handler Γ) (data : String) : Handler Γ :=
  let lastStreamData := h.lastStreamData
  let h := if lastStreamData ≠ "" then h.handleStreamFormat S info lastStreamData else h
  if data = "" then h
  else
    processToken S info
      { h with
        secondLastStreamData :=
          if info.isAudioModel ∧ lastStreamData ≠ "" then lastStreamData
          else h.secondLastStreamData
        lastStreamData := data }
      data

end Handler

/-! ## The end of the stream -/

def validUsage (usage : Option Usage) : Bool :=
  match usage with
  | none => false
  | some usage => usage.promptTokens ≠ 0 ∨ usage.completionTokens ≠ 0

def hasText (chunk : Chunk) : Bool :=
  chunk.choices.any fun choice =>
    choice.delta.getContentString ≠ "" ∨ choice.delta.getReasoningContent ≠ ""

/-- What `handleLastResponse` finds: the usage that the upstream reported, and whether the last chunk
is to be sent. -/
structure LastResponse where
  responseId : String
  model : String
  usage : Option Usage
  shouldSendLastResp : Bool

namespace Handler

def audioUsage (h : Handler Γ) : Option Usage :=
  if info.isAudioModel ∧ h.secondLastStreamData ≠ "" then
    ((S.unmarshal h.secondLastStreamData).bind (·.usage)).filter fun usage =>
      validUsage (some usage)
  else none

def handleLastResponse (h : Handler Γ) : LastResponse :=
  match S.unmarshal h.lastStreamData with
  | none =>
    { responseId := "", model := info.upstreamModelName, usage := h.audioUsage S info
      shouldSendLastResp := true }
  | some lastStreamResponse =>
    { responseId := lastStreamResponse.id
      model := lastStreamResponse.model
      usage :=
        if validUsage lastStreamResponse.usage then lastStreamResponse.usage
        else h.audioUsage S info
      shouldSendLastResp :=
        if validUsage lastStreamResponse.usage ∧ ¬ info.shouldIncludeUsage then
          hasText lastStreamResponse
        else true }

/-- `ResponseText2Usage`, and seven tokens for each tool call. -/
def responseText2Usage (h : Handler Γ) : Usage :=
  let completionTokens := S.estimateTokenByModel info.upstreamModelName h.responseText
  { promptTokens := info.estimatePromptTokens
    completionTokens := completionTokens + h.toolCount * 7
    totalTokens := info.estimatePromptTokens + completionTokens }

def handleFinalResponse (h : Handler Γ) (last : LastResponse) (usage : Usage) : Handler Γ :=
  match info.relayFormat with
  | .openAI =>
    let h :=
      if info.shouldIncludeUsage ∧ last.usage = none then
        h.send [.finalUsage last.responseId last.model usage]
      else h
    h.send [.done]
  | .claude =>
    match S.unmarshal h.lastStreamData with
    | none => h
    | some streamResponse =>
      -- the count is not advanced here
      let h := convertToClaude
        { h with claudeConvertInfo := { h.claudeConvertInfo with usage := some usage } }
        streamResponse
      { h with claudeConvertInfo := { h.claudeConvertInfo with done := true } }
  | .gemini => h.handleGeminiFormat S h.lastStreamData

def finish (h : Handler Γ) : Handler Γ :=
  let last := h.handleLastResponse S info
  let usage := last.usage.getD (h.responseText2Usage S info)
  let h :=
    if info.relayFormat = .openAI ∧ last.shouldSendLastResp then h.sendStreamData h.lastStreamData
    else h
  h.handleFinalResponse S info last usage

end Handler

def oaiStreamHandler (stream : List String) : Handler Γ :=
  (stream.foldl (Handler.handleData S info) {}).finish S info

/-- A choice of a chunk has a fragment of a tool call or a finish reason. -/
def hasCallOrEnd (chunk : Chunk) : Bool :=
  chunk.choices.any fun choice => choice.delta.toolCalls ≠ [] ∨ choice.isDone

/-- The last chunk has nothing but a usage that the client did not ask for. -/
def MayBeLeftOut (chunk : Chunk) : Prop :=
  chunk.usage ≠ none ∧ info.shouldIncludeUsage = false ∧ hasText chunk = false ∧
    hasCallOrEnd chunk = false

/-- Every chunk is passed on once: the lines of the stream in their order and one `[DONE]` behind
them, with at most the usage that the client asked for between them; or the conversions of the
chunks. -/
def PassedOn (stream : List String) (chunks : List Chunk) (h : Handler Γ) : Prop :=
  match info.relayFormat with
  | .openAI =>
    ∃ passed usage, h.sent = passed.map .data ++ usage ++ [.done] ∧ (passed = stream ∨
        passed = stream.dropLast ∧ ∃ chunk ∈ chunks.getLast?, MayBeLeftOut info chunk) ∧
      (usage = [] ∨ info.shouldIncludeUsage ∧ ∃ id model u, usage = [.finalUsage id model u])
  | .claude =>
    h.conversions = chunks.zipIdx 1 ∧
      ∃ first events, h.sent = .claude first :: events ∧ first.type = "message_start"
  | .gemini =>
    h.conversions.map (·.1) = chunks ∧ h.sent = (chunks.filterMap S.toGemini).map .gemini

/-- The last chunk brings the usage together with a fragment of a tool call or the finish reason,
and `handleLastResponse` looks at its text only. -/
def EndsUnseen (chunk : Chunk) : Prop :=
  validUsage chunk.usage ∧ info.shouldIncludeUsage = false ∧ hasText chunk = false ∧
    hasCallOrEnd chunk = true

/-- The line `data` holds the chunk. -/
def Decodes (data : String) (chunk : Chunk) : Prop := data ≠ "" ∧ S.unmarshal data = some chunk

/-! ## One chunk behind -/

/-- The chunks before the last one are dealt with, and the last one is not. -/
structure Behind (passed : List String) (chunks : List Chunk) (last : String) (h : Handler Γ) :
    Prop where
  last : h.lastStreamData = last
  count : h.sendResponseCount = chunks.length
  openAI : info.relayFormat = .openAI → h.sent = passed.map .data
  claude : info.relayFormat = .claude → h.conversions = chunks.zipIdx 1
  gemini : info.relayFormat = .gemini →
    h.conversions = chunks.zipIdx 1 ∧ h.sent = (chunks.filterMap S.toGemini).map .gemini

namespace Handler

variable (h : Handler Γ) (data : String)

theorem processToken_eq :
    ∃ responseText toolCount, processToken S info h data =
      { h with responseText := responseText, toolCount := toolCount } := by
  unfold processToken
  split_ifs
  · exact ⟨_, _, rfl⟩
  · cases S.unmarshal data with
    | none => exact ⟨_, _, rfl⟩
    | some chunk => exact ⟨_, _, rfl⟩

end Handler

section Steps

variable {S info} {passed : List String} {chunks : List Chunk} {last : String} {chunk : Chunk}
  {h : Handler Γ}

section
variable (hb : Behind S info passed chunks last h)
include hb

theorem Behind.processToken (data : String) :
    Behind S info passed chunks last (Handler.processToken S info h data) := by
  obtain ⟨text, count, heq⟩ := Handler.processToken_eq S info h data
  rw [heq]
  exact ⟨hb.last, hb.count, hb.openAI, hb.claude, hb.gemini⟩

theorem Behind.next (second data : String) :
    Behind S info passed chunks data
      { h with secondLastStreamData := second, lastStreamData := data } :=
  ⟨rfl, hb.count, hb.openAI, hb.claude, hb.gemini⟩

/-- The chunk that waited is dealt with under the next count. -/
theorem Behind.handleStreamFormat (hd : Decodes S last chunk) :
    Behind S info (passed ++ [last]) (chunks ++ [chunk]) last
      (h.handleStreamFormat S info last) := by
  have hlen : (chunks ++ [chunk]).length = h.sendResponseCount + 1 := by
    rw [hb.count, length_append, length_singleton]
  have hzip : (chunks ++ [chunk]).zipIdx 1 =
      chunks.zipIdx 1 ++ [(chunk, h.sendResponseCount + 1)] := by
    rw [zipIdx_append, zipIdx_singleton, hb.count, Nat.add_comm]
  cases hf : info.relayFormat with
  | openAI =>
    simp only [Handler.handleStreamFormat, hf, Handler.sendStreamData, if_neg hd.1, Handler.send]
    refine ⟨hb.last, hlen.symm, fun _ => ?_, fun h' => (nomatch hf.symm.trans h'),
      fun h' => (nomatch hf.symm.trans h')⟩
    rw [hb.openAI hf, map_append, map_singleton]
  | claude =>
    simp only [Handler.handleStreamFormat, hf, Handler.handleClaudeFormat, hd.2,
      Handler.convertToClaude]
    refine ⟨hb.last, hlen.symm, fun h' => (nomatch hf.symm.trans h'), fun _ => ?_,
      fun h' => (nomatch hf.symm.trans h')⟩
    rw [hb.claude hf, hzip]
  | gemini =>
    simp only [Handler.handleStreamFormat, hf, Handler.handleGeminiFormat, hd.2,
      Handler.convertToGemini]
    refine ⟨hb.last, hlen.symm, fun h' => (nomatch hf.symm.trans h'),
      fun h' => (nomatch hf.symm.trans h'), fun _ => ⟨?_, ?_⟩⟩
    · rw [(hb.gemini hf).1, hzip]
    · rw [(hb.gemini hf).2, filterMap_append, map_append]
      cases hg : S.toGemini chunk <;> simp [hg]

theorem Behind.handleData (hd : Decodes S last chunk) {data : String} (hne : data ≠ "") :
    Behind S info (passed ++ [last]) (chunks ++ [chunk]) data (h.handleData S info data) := by
  have hlast : h.lastStreamData ≠ "" := by rw [hb.last]; exact hd.1
  have hb' := hb.handleStreamFormat hd
  rw [Handler.handleData, if_pos hlast, if_neg hne, hb.last]
  exact (hb'.next _ data).processToken data

end

theorem Behind.first {data : String} (hne : data ≠ "") :
    Behind S info [] [] data (Handler.handleData S info {} data) := by
  have hb : Behind S info [] [] "" {} := ⟨rfl, rfl, fun _ => rfl, fun _ => rfl, fun _ => ⟨rfl, rfl⟩⟩
  have hlast : ¬ (({} : Handler Γ).lastStreamData ≠ "") := fun h => h rfl
  rw [Handler.handleData, if_neg hlast, if_neg hne]
  exact (hb.next _ data).processToken data

theorem Behind.foldl {rest : List String} {restChunks : List Chunk}
    (hrest : List.Forall₂ (Decodes S) rest restChunks) :
    ∀ {passed chunks last chunk} {h : Handler Γ}, Behind S info passed chunks last h →
      Decodes S last chunk →
      ∃ passed' chunks' last' chunk', passed ++ last :: rest = passed' ++ [last'] ∧
        chunks ++ chunk :: restChunks = chunks' ++ [chunk'] ∧ Decodes S last' chunk' ∧
        Behind S info passed' chunks' last' (rest.foldl (Handler.handleData S info) h) := by
  induction hrest with
  | nil => exact fun hb hd => ⟨_, _, _, _, rfl, rfl, hd, hb⟩
  | cons hnext _ ih =>
    intro passed chunks last chunk h hb hd
    obtain ⟨passed', chunks', last', chunk', hp, hc, hd', hb'⟩ :=
      ih (hb.handleData hd hnext.1) hnext
    refine ⟨passed', chunks', last', chunk', ?_, ?_, hd', hb'⟩
    · rw [← hp, append_assoc, singleton_append]
    · rw [← hc, append_assoc, singleton_append]

theorem Behind.single {data : String} {chunk : Chunk} (hd : Decodes S data chunk) :
    Behind S info [] [] data ([data].foldl (Handler.handleData S info) {}) :=
  Behind.first hd.1

theorem Behind.pair {data next : String} {chunk chunk' : Chunk} (hd : Decodes S data chunk)
    (hn : Decodes S next chunk') :
    Behind S info [data] [chunk] next ([data, next].foldl (Handler.handleData S info) {}) :=
  (Behind.first hd.1).handleData hd hn.1

variable (info) in
theorem behind_of_stream {stream : List String} {chunks : List Chunk}
    (hstream : List.Forall₂ (Decodes S) stream chunks) (hne : chunks ≠ []) :
    ∃ passed before last chunk, stream = passed ++ [last] ∧ chunks = before ++ [chunk] ∧
      Decodes S last chunk ∧
      Behind S info passed before last (stream.foldl (Handler.handleData S info) {}) := by
  cases hstream with
  | nil => exact absurd rfl hne
  | cons hfirst hrest => exact Behind.foldl hrest (Behind.first hfirst.1) hfirst

end Steps

/-! ## The last chunk -/

section Last

variable {S info} {passed : List String} {before : List Chunk} {last : String} {chunk : Chunk}
  {h : Handler Γ}

/-- The condition of `handleLastResponse`. -/
def Kept (info : RelayInfo) (chunk : Chunk) : Prop :=
  ¬ (validUsage chunk.usage ∧ ¬ info.shouldIncludeUsage) ∨ hasText chunk

instance (info : RelayInfo) (chunk : Chunk) : Decidable (Kept info chunk) :=
  inferInstanceAs (Decidable (_ ∨ _))

theorem shouldSendLastResp_iff (hb : Behind S info passed before last h)
    (hd : Decodes S last chunk) :
    (h.handleLastResponse S info).shouldSendLastResp ↔ Kept info chunk := by
  rw [Handler.handleLastResponse, hb.last, hd.2, Kept]
  dsimp only
  split_ifs with hv
  · exact ⟨Or.inr, fun hk => hk.resolve_left (not_not_intro hv)⟩
  · exact ⟨fun _ => .inl hv, fun _ => rfl⟩

theorem sent_handleFinalResponse (h : Handler Γ) (last : LastResponse) (usage : Usage)
    (hf : info.relayFormat = .openAI) :
    ∃ final, (h.handleFinalResponse S info last usage).sent = h.sent ++ final ++ [.done] ∧
      (final = [] ∨ info.shouldIncludeUsage ∧ ∃ id model u, final = [Sent.finalUsage id model u]) := by
  simp only [Handler.handleFinalResponse, hf]
  split
  · rename_i hu
    exact ⟨_, rfl, .inr ⟨hu.1, _, _, _, rfl⟩⟩
  · exact ⟨[], by rw [append_nil]; rfl, .inl rfl⟩

section
variable (hb : Behind S info passed before last h) (hd : Decodes S last chunk)
include hb hd

theorem Behind.sent_finish (hf : info.relayFormat = .openAI) :
    ∃ usage, (h.finish S info).sent =
        (passed ++ if Kept info chunk then [last] else []).map .data ++ usage ++ [.done] ∧
      (usage = [] ∨ info.shouldIncludeUsage ∧ ∃ id model u, usage = [Sent.finalUsage id model u]) := by
  have hlast : (if info.relayFormat = .openAI ∧ (h.handleLastResponse S info).shouldSendLastResp then
      h.sendStreamData h.lastStreamData else h).sent =
        (passed ++ if Kept info chunk then [last] else []).map .data := by
    by_cases hk : Kept info chunk
    · rw [if_pos ⟨hf, (shouldSendLastResp_iff hb hd).2 hk⟩, if_pos hk, Handler.sendStreamData, hb.last,
        if_neg hd.1, Handler.send, hb.openAI hf, map_append, map_singleton]
    · rw [if_neg fun h' => hk ((shouldSendLastResp_iff hb hd).1 h'.2), if_neg hk, append_nil,
        hb.openAI hf]
  obtain ⟨final, hsent, hfinal⟩ := sent_handleFinalResponse _ (h.handleLastResponse S info) _ hf
  exact ⟨final, hsent.trans (by rw [hlast]), hfinal⟩

theorem Behind.conversions_finish (hf : info.relayFormat = .claude) :
    (h.finish S info).conversions = before.zipIdx 1 ++ [(chunk, before.length)] := by
  simp only [Handler.finish, Handler.handleFinalResponse, hf, reduceCtorEq, false_and, if_false,
    hb.last, hd.2, Handler.convertToClaude, hb.claude hf, hb.count]

theorem Behind.gemini_finish (hf : info.relayFormat = .gemini) :
    (h.finish S info).conversions.map (·.1) = before ++ [chunk] ∧
      (h.finish S info).sent = ((before ++ [chunk]).filterMap S.toGemini).map .gemini := by
  obtain ⟨hconv, hsent⟩ := hb.gemini hf
  simp only [Handler.finish, Handler.handleFinalResponse, hf, reduceCtorEq, false_and, if_false,
    hb.last, Handler.handleGeminiFormat, hd.2, Handler.convertToGemini, hconv, hsent]
  refine ⟨?_, ?_⟩
  · rw [map_append, zipIdx_map_fst, map_singleton]
  · rw [filterMap_append, map_append]
    cases hg : S.toGemini chunk <;> simp [hg]

end

theorem not_kept_iff :
    ¬ Kept info chunk ↔
      validUsage chunk.usage ∧ info.shouldIncludeUsage = false ∧ hasText chunk = false := by
  rw [Kept, not_or, not_not, and_assoc, Bool.not_eq_true, Bool.not_eq_true]

theorem ne_none_of_validUsage {usage : Option Usage} (h : validUsage usage) : usage ≠ none := by
  rintro rfl
  nomatch h

theorem Behind.passedOn_openAI (hb : Behind S info passed before last h)
    (hd : Decodes S last chunk) (hf : info.relayFormat = .openAI) :
    PassedOn S info (passed ++ [last]) (before ++ [chunk]) (h.finish S info) ↔
      ¬ EndsUnseen info chunk := by
  obtain ⟨usage, hsent, husage⟩ := hb.sent_finish hd hf
  simp only [PassedOn, hf, hsent, dropLast_concat, getLast?_concat, Option.mem_some]
  constructor
  · rintro ⟨passed', usage', heq, hpassed, husage'⟩ ⟨hvalid, hask, htext, hcall⟩
    have hk : ¬ Kept info chunk := not_kept_iff.2 ⟨hvalid, hask, htext⟩
    have hnone {u : List (Sent Γ)}
        (hu : u = [] ∨ info.shouldIncludeUsage ∧ ∃ id model u', u = [.finalUsage id model u']) :
        u = [] := hu.resolve_right fun h => by rw [hask] at h; exact (nomatch h.1)
    rw [if_neg hk, hnone husage, hnone husage', append_nil, append_nil, append_nil,
      append_cancel_right_eq] at heq
    have hsame : passed = passed' := map_injective_iff.2 (fun _ _ h => by injection h) heq
    rcases hpassed with rfl | ⟨-, _, rfl, hmay⟩
    · exact absurd (congrArg List.length hsame) (by simp)
    · rw [hmay.2.2.2] at hcall
      nomatch hcall
  · intro hseen
    refine ⟨_, usage, rfl, ?_, husage⟩
    by_cases hk : Kept info chunk
    · exact .inl (by rw [if_pos hk])
    · obtain ⟨hvalid, hask, htext⟩ := not_kept_iff.1 hk
      have hcall : hasCallOrEnd chunk = false :=
        Bool.eq_false_iff.2 fun h => hseen ⟨hvalid, hask, htext, h⟩
      exact .inr ⟨by rw [if_neg hk, append_nil], chunk, rfl, ne_none_of_validUsage hvalid, hask,
        htext, hcall⟩

theorem Behind.not_passedOn_claude (hb : Behind S info passed before last h)
    (hd : Decodes S last chunk) (hf : info.relayFormat = .claude) (stream : List String) :
    ¬ PassedOn S info stream (before ++ [chunk]) (h.finish S info) := by
  simp only [PassedOn, hf, hb.conversions_finish hd hf, zipIdx_append, zipIdx_singleton]
  rintro ⟨heq, -⟩
  have hcount := append_cancel_left heq
  simp at hcount

end Last

/-- A stream reaches an OpenAI client whole exactly when the last chunk does not bring a usage that nobody
asked for together with a fragment of a tool call or the finish reason and no text; it always reaches a
Gemini client, and never a Claude client. -/
theorem passedOn_iff {stream : List String} {chunks : List Chunk}
    (hstream : List.Forall₂ (Decodes S) stream chunks) (hne : chunks ≠ []) :
    PassedOn S info stream chunks (oaiStreamHandler S info stream) ↔ match info.relayFormat with
      | .openAI => ∀ chunk ∈ chunks.getLast?, ¬ EndsUnseen info chunk
      | .claude => False
      | .gemini => True := by
  obtain ⟨passed, before, last, chunk, hp, rfl, hd, hb⟩ := behind_of_stream info hstream hne
  rw [oaiStreamHandler]
  cases hf : info.relayFormat with
  | openAI =>
    have hpassed := hb.passedOn_openAI hd hf
    rw [← hp] at hpassed
    exact hpassed.trans (by simp only [getLast?_concat, Option.mem_some_iff, forall_eq'])
  | claude => exact iff_of_false (hb.not_passedOn_claude hd hf stream) not_false
  | gemini =>
    refine iff_of_true ?_ trivial
    rw [PassedOn, hf]
    exact hb.gemini_finish hd hf

/-! ## Two short streams -/

def greeting : Chunk :=
  { id := "chatcmpl-1", model := "gpt", choices := [{ delta := { content := some "hello" } }] }

def farewell : Chunk :=
  { id := "chatcmpl-1", model := "gpt", choices := [{ finishReason := some "stop" }],
    usage := some { promptTokens := 3, completionTokens := 1, totalTokens := 4 } }

def greetingData : String :=
  "\x7b\"id\":\"chatcmpl-1\",\"model\":\"gpt\",\"choices\":[" ++
    "\x7b\"delta\":\x7b\"content\":\"hello\"\x7d\x7d]\x7d"

def farewellData : String :=
  "\x7b\"id\":\"chatcmpl-1\",\"model\":\"gpt\",\"choices\":[" ++
    "\x7b\"delta\":\x7b\x7d,\"finish_reason\":\"stop\"\x7d]," ++
    "\"usage\":\x7b\"prompt_tokens\":3,\"completion_tokens\":1,\"total_tokens\":4\x7d\x7d"

def smallUnmarshal (data : String) : Option Chunk :=
  if data = greetingData then some greeting
  else if data = farewellData then some farewell
  else none

/-- The services as far as the two lines go; `toGemini` is the text of a chunk. -/
def smallServices : Services String where
  unmarshal := smallUnmarshal
  toGemini chunk := if hasText chunk then some (contentOf [chunk]) else none
  estimateTokenByModel _ text := text.length

theorem smallServices_unmarshal (data : String) :
    smallServices.unmarshal data = smallUnmarshal data := rfl

theorem decodes_greeting : Decodes smallServices greetingData greeting := by
  refine ⟨by decide +kernel, ?_⟩
  rw [smallServices_unmarshal, smallUnmarshal, if_pos rfl]

theorem decodes_farewell : Decodes smallServices farewellData farewell := by
  have hne : farewellData ≠ greetingData := by decide +kernel
  refine ⟨by decide +kernel, ?_⟩
  rw [smallServices_unmarshal, smallUnmarshal, if_neg hne, if_pos rfl]

/-- Two chunks, the second with nothing but the end and the usage, that the client asked for. -/
theorem passedOn_smallStream :
    PassedOn smallServices { relayFormat := .openAI, shouldIncludeUsage := true }
      [greetingData, farewellData] [greeting, farewell]
      (oaiStreamHandler smallServices { relayFormat := .openAI, shouldIncludeUsage := true }
        [greetingData, farewellData]) :=
  (passedOn_iff smallServices { relayFormat := .openAI, shouldIncludeUsage := true }
    (.cons decodes_greeting (.cons decodes_farewell .nil)) (by decide)).2
    (by
      rintro chunk - ⟨-, hask, -⟩
      nomatch hask)

/-- The only chunk of a Claude client is converted under the count 0; an OpenAI client that did not
ask for the usage never sees the finish reason that comes with it. -/
theorem chunk_not_passedOn :
    ((oaiStreamHandler smallServices { relayFormat := .claude } [greetingData]).conversions =
        [(greeting, 0)] ∧
      ¬ PassedOn smallServices { relayFormat := .claude } [greetingData] [greeting]
        (oaiStreamHandler smallServices { relayFormat := .claude } [greetingData])) ∧
    ¬ PassedOn smallServices { relayFormat := .openAI } [greetingData, farewellData]
      [greeting, farewell]
      (oaiStreamHandler smallServices { relayFormat := .openAI } [greetingData, farewellData]) := by
  have hsingle : Behind smallServices { relayFormat := .claude } [] [] greetingData _ :=
    Behind.single decodes_greeting
  have hpair : Behind smallServices { relayFormat := .openAI } [greetingData] [greeting]
      farewellData _ := Behind.pair decodes_greeting decodes_farewell
  rw [oaiStreamHandler, oaiStreamHandler]
  refine ⟨⟨hsingle.conversions_finish decodes_greeting rfl, ?_⟩, ?_⟩
  · exact hsingle.not_passedOn_claude decodes_greeting rfl [greetingData]
  · intro hpassed
    have hseen := (hpair.passedOn_openAI decodes_farewell rfl).1 hpassed
    exact hseen ⟨by decide +kernel, rfl, by decide +kernel, by decide +kernel⟩

end BeeApi.OaiStream
