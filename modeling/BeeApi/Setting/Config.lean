import BeeApi.Lib.GoJson

/-!
# Configuration modules

`config.go` stores every exported field of a registered struct as a text under its JSON tag and reads
the texts back into the struct that is there.  Maps are read into a new map; a pointer, a slice and a
struct are decoded in place.
-/

namespace Setting

open GoJson List Option Bool

/-! ## Config structs -/

/-- An exported field: its name, its whole `json` tag and its type. -/
structure ConfigField where
  name : String
  tag : String
  ty : Ty

/-- The key of a field, options of the tag included. -/
def ConfigField.key (f : ConfigField) : String :=
  if f.tag = "" ∨ f.tag = "-" then f.name else f.tag

/-- A config struct, its keys pairwise different. -/
structure ConfigType where
  fields : List ConfigField
  nodup : (fields.map ConfigField.key).Nodup

abbrev ConfigType.Index (c : ConfigType) : Type := Fin c.fields.length

def ConfigType.key (c : ConfigType) (i : c.Index) : String := (c.fields.get i).key

def ConfigType.ty (c : ConfigType) (i : c.Index) : Ty := (c.fields.get i).ty

abbrev Config (F : Type) (c : ConfigType) : Type := (i : c.Index) → (c.ty i).Val F

theorem ConfigType.key_injective (c : ConfigType) : Function.Injective c.key := by
  intro i j h
  have hi : (i : ℕ) < (c.fields.map ConfigField.key).length := by
    rw [length_map]
    exact i.isLt
  have hj : (j : ℕ) < (c.fields.map ConfigField.key).length := by
    rw [length_map]
    exact j.isLt
  have hkeys : (c.fields.map ConfigField.key)[(i : ℕ)] = (c.fields.map ConfigField.key)[(j : ℕ)] := by
    rw [getElem_map, getElem_map]
    exact h
  exact Fin.ext ((List.Nodup.getElem_inj_iff c.nodup).1 hkeys)

variable {F : Type} (codec : Codec F)

def formatBool (b : Bool) : String := if b then "true" else "false"

def fieldText : (t : Ty) → t.Val F → String
  | .string, (s : String) => s
  | .bool, (b : Bool) => formatBool b
  | .int _, x => BitVec.toInt x |>.repr
  | .uint _, x => BitVec.toNat x |>.repr
  | .float, (x : F) => codec.format x
  | .ptr t, (p : Option (t.Val F)) => if p.isNone then "null" else ((Ty.ptr t).encode codec p).marshal
  | .map t, m => ((Ty.map t).encode codec m).marshal
  | .slice t, s => ((Ty.slice t).encode codec s).marshal
  | .struct fs, vals => ((Ty.struct fs).encode codec vals).marshal

def configToMap {c : ConfigType} (config : Config F c) : Table String String :=
  (List.finRange c.fields.length).foldl
    (fun result i => result.put (c.key i) (fieldText codec (c.ty i) (config i))) ∅

/-! ## updateConfigFromMap -/

def parseBool (s : String) : Option Bool :=
  if s ∈ ["1", "t", "T", "TRUE", "true", "True"] then some true
  else if s ∈ ["0", "f", "F", "FALSE", "false", "False"] then some false
  else none

section Update

-- the value that a text of JSON writes
variable (parseJson : String → Option Json)

/-- One field: an error leaves a scalar and a map as they are, a pointer is initialised before its
text is read, and what the decoder did before an error in a pointer, slice or struct stays. -/
def updateField : (t : Ty) → t.Val F → String → t.Val F
  | .string, _, strValue => strValue
  | .bool, (old : Bool), strValue => (parseBool strValue).getD old
  | .int w, (old : BitVec w.bits), strValue =>
    match parseInt strValue with
    | some intValue => BitVec.ofInt w.bits intValue
    | none =>
      match codec.parse strValue with
      | some floatValue => BitVec.ofInt w.bits (codec.truncate floatValue)
      | none => old
  | .uint w, (old : BitVec w.bits), strValue =>
    match parseUint strValue with
    | some uintValue => BitVec.ofNat w.bits uintValue
    | none =>
      match codec.parse strValue with
      | some floatValue =>
        if codec.isNegative floatValue then old
        else BitVec.ofNat w.bits (codec.truncateUint floatValue)
      | none => old
  | .float, (old : F), strValue => (codec.parse strValue).getD old
  | .ptr t, (old : Option (t.Val F)), strValue =>
    if strValue = "null" then none
    else
      match parseJson strValue with
      | some j => some (t.decode codec j (old.getD (t.zero codec))).1
      | none => some (old.getD (t.zero codec))
  | .map t, (old : Option (Table String (t.Val F))), strValue =>
    match parseJson strValue with
    | some j =>
      if ((Ty.map t).decode codec j none).2 then ((Ty.map t).decode codec j none).1 else old
    | none => old
  | .slice t, old, strValue =>
    match parseJson strValue with
    | some j => ((Ty.slice t).decode codec j old).1
    | none => old
  | .struct fs, old, strValue =>
    match parseJson strValue with
    | some j => ((Ty.struct fs).decode codec j old).1
    | none => old

def updateConfigFromMap {c : ConfigType} (config : Config F c) (configMap : Table String String) :
    Config F c := fun i =>
  match configMap.get? (c.key i) with
  | none => config i
  | some strValue => updateField codec parseJson (c.ty i) (config i) strValue

/-- The value that a text parses to without an error: a number as a number or, failing that, one with a
point that is cut off, and JSON of a pointer, slice or struct decoded where the value stands. -/
def ParsesTo : (t : Ty) → (old v : t.Val F) → String → Prop
  | .string, _, v, strValue => v = strValue
  | .bool, _, v, strValue => parseBool strValue = some v
  | .int w, _, v, strValue =>
    ∃ i, (parseInt strValue).or ((codec.parse strValue).map codec.truncate) = some i ∧
      v = BitVec.ofInt w.bits i
  | .uint w, _, v, strValue =>
    ∃ n, (parseUint strValue).or (((codec.parse strValue).filter fun x => !codec.isNegative x).map
      codec.truncateUint) = some n ∧ v = BitVec.ofNat w.bits n
  | .float, _, v, strValue => codec.parse strValue = some v
  | .ptr t, (old : Option (t.Val F)), v, strValue =>
    strValue = "null" ∧ v = none ∨ strValue ≠ "null" ∧ ∃ j ∈ parseJson strValue, ∃ elem,
      t.decode codec j (old.getD (t.zero codec)) = (elem, true) ∧ v = some elem
  | .map t, _, v, strValue => ∃ j ∈ parseJson strValue, (Ty.map t).decode codec j none = (v, true)
  | .slice t, old, v, strValue => ∃ j ∈ parseJson strValue, (Ty.slice t).decode codec j old = (v, true)
  | .struct fs, old, v, strValue =>
    ∃ j ∈ parseJson strValue, (Ty.struct fs).decode codec j old = (v, true)

end Update

/-! ## A field -/

/-- What the text of a field is decoded into: a map that is new, anything else as it is there. -/
def target : (t : Ty) → t.Val F → t.Val F
  | .map _, _ => none
  | _, old => old

theorem parseBool_formatBool (b : Bool) : parseBool (formatBool b) = some b := by
  cases b <;> decide

def isJson : Ty → Bool
  | .ptr _ | .map _ | .slice _ | .struct _ => true
  | _ => false

variable {codec}

variable {t : Ty} {parseJson : String → Option Json} {s : String} {c : ConfigType}

theorem fieldText_eq_marshal (h : isJson t = true) (v : t.Val F) :
    fieldText codec t v = (t.encode codec v).marshal := by
  cases t with
  | ptr t =>
    change Option (t.Val F) at v
    cases v with
    | none => exact (show Json.marshal .null = "null" by decide +kernel).symm
    | some v => rfl
  | map t => rfl
  | slice t => rfl
  | struct fs => rfl
  | _ => exact absurd h false_ne_true

theorem updateField_ptr (h : s ≠ "null") (old : Option (t.Val F)) :
    updateField codec parseJson (.ptr t) old s = (parseJson s).elim (some (old.getD (t.zero codec)))
        fun j => some (t.decode codec j (old.getD (t.zero codec))).1 := by
  refine (if_neg h).trans ?_
  cases parseJson s with
  | none => rfl
  | some j => rfl

def ReadsBack (codec : Codec F) (parseJson : String → Option Json) (t : Ty) (v : t.Val F) : Prop :=
  isJson t = true → parseJson (fieldText codec t v) = some (t.encode codec v)

theorem updateField_fieldText {b : t.Val F} (hnull : parseJson "null" = some .null)
    (h : ReadsBack codec parseJson t b) (old : t.Val F) :
    updateField codec parseJson t old (fieldText codec t b) =
      (t.decode codec (t.encode codec b) (target t old)).1 := by
  cases t with
  | string => rfl
  | bool =>
    change Bool at b
    show (parseBool (formatBool b)).getD _ = _
    rw [parseBool_formatBool]
    rfl
  | int w =>
    rw [Ty.decode_int]
    change BitVec w.bits at b
    show (match parseInt b.toInt.repr with
      | some intValue => _
      | none => _) = _
    rw [parseInt_toInt]
    exact BitVec.ofInt_toInt
  | uint w =>
    rw [Ty.decode_uint]
    change BitVec w.bits at b
    show (match parseUint b.toNat.repr with
      | some uintValue => _
      | none => _) = _
    rw [parseUint_toNat]
    exact (BitVec.ofNat_toNat _ b).trans (BitVec.setWidth_eq b)
  | float =>
    rw [Ty.decode_float]
    change F at b
    show (codec.parse (codec.format b)).getD _ = _
    rw [codec.parse_format]
    rfl
  | ptr t =>
    have hread := h rfl
    by_cases htext : fieldText codec (.ptr t) b = "null"
    · rw [htext, hnull] at hread
      rw [htext, ← some.inj hread]
      rfl
    · have hne : (Ty.ptr t).encode codec b ≠ .null := by
        intro hencode
        rw [fieldText_eq_marshal rfl, hencode] at htext
        exact htext (by decide +kernel)
      rw [updateField_ptr htext old, hread]
      exact congrArg Prod.fst (Ty.decode_ptr hne old).symm
  | map t =>
    have hread := h rfl
    show (match parseJson (fieldText codec (.map t) b) with
      | some j => _
      | none => _) = _
    rw [hread]
    exact if_pos (Ty.decode_encode (.map t) none b).1
  | slice t =>
    have hread := h rfl
    show (match parseJson (fieldText codec (.slice t) b) with
      | some j => _
      | none => _) = _
    rw [hread]
    rfl
  | struct fs =>
    have hread := h rfl
    show (match parseJson (fieldText codec (.struct fs) b) with
      | some j => _
      | none => _) = _
    rw [hread]
    rfl

theorem fieldText_inj {v w : t.Val F} (hv : ReadsBack codec parseJson t v)
    (hw : ReadsBack codec parseJson t w) :
    fieldText codec t v = fieldText codec t w ↔ t.encode codec v = t.encode codec w := by
  cases hjson : isJson t with
  | true =>
    constructor
    · intro htext
      have hsame := hv hjson
      rw [htext, hw hjson] at hsame
      exact (some.inj hsame).symm
    · intro hencode
      rw [fieldText_eq_marshal hjson, fieldText_eq_marshal hjson, hencode]
  | false =>
    cases t with
    | string => exact ⟨fun h => congrArg Json.str h, fun h => Json.str.inj h⟩
    | bool =>
      change Bool at v w
      constructor
      · intro htext
        have hsame : parseBool (formatBool v) = parseBool (formatBool w) := congrArg parseBool htext
        rw [parseBool_formatBool, parseBool_formatBool] at hsame
        rw [some.inj hsame]
      · intro hencode
        exact congrArg formatBool (Json.bool.inj hencode)
    | int | uint =>
      exact ⟨fun h => congrArg (fun text : String => Json.num text text) h, fun h => (Json.num.inj h).1⟩
    | float =>
      change F at v w
      constructor
      · intro htext
        have hsame : codec.parse (codec.format v) = codec.parse (codec.format w) :=
          congrArg codec.parse htext
        rw [codec.parse_format, codec.parse_format] at hsame
        rw [some.inj hsame]
      · intro hencode
        exact (Json.num.inj hencode).2
    | _ => exact absurd hjson.symm false_ne_true

/-! ## Errors -/

/-- A pointer that an update initialises. -/
def isNilPointer : (t : Ty) → t.Val F → Bool
  | .ptr _, (p : Option _) => p.isNone
  | _, _ => false

/-- A text of another kind than the type, or a type with one value to a text: an error decodes nothing. -/
def refusedWhole : Ty → Json → Bool
  | .ptr _, _ => false
  | .map _, .obj _ => false
  | .slice _, .arr _ => false
  | .struct _, .obj _ => false
  | _, _ => true

/-- The same of a field: a pointer is there already, and a map is new. -/
def fieldRefusedWhole : Ty → Json → Bool
  | .ptr t, j => refusedWhole t j
  | .map _, _ => true
  | t, j => refusedWhole t j

theorem decode_of_refusedWhole {j : Json} (h : refusedWhole t j = true) {old : t.Val F}
    (hfail : (t.decode codec j old).2 = false) : (t.decode codec j old).1 = old := by
  cases t with
  | string | bool => cases j <;> first | rfl | exact absurd hfail.symm false_ne_true
  | int w =>
    cases j with
    | num text plain =>
      unfold Ty.decode at hfail ⊢
      dsimp only at hfail ⊢
      cases hparse : (parseInt text).filter fun i => (BitVec.ofInt w.bits i).toInt = i with
      | none => rfl
      | some i =>
        rw [hparse] at hfail
        exact absurd hfail.symm false_ne_true
    | _ => rfl
  | uint w =>
    cases j with
    | num text plain =>
      unfold Ty.decode at hfail ⊢
      dsimp only at hfail ⊢
      cases hparse : (parseUint text).filter fun n => (BitVec.ofNat w.bits n).toNat = n with
      | none => rfl
      | some n =>
        rw [hparse] at hfail
        exact absurd hfail.symm false_ne_true
    | _ => rfl
  | float =>
    cases j with
    | num text plain =>
      change (codec.parse text).isSome = false at hfail
      show (codec.parse text).getD _ = _
      rw [isSome_eq_false_iff, isNone_iff_eq_none] at hfail
      rw [hfail]
      rfl
    | _ => rfl
  | ptr t => exact absurd h false_ne_true
  | map t =>
    cases j with
    | null => exact absurd hfail.symm false_ne_true
    | obj entries => exact absurd h false_ne_true
    | _ => rfl
  | slice t =>
    cases j with
    | null => exact absurd hfail.symm false_ne_true
    | arr elems => exact absurd h false_ne_true
    | _ => rfl
  | struct fs =>
    cases j with
    | obj entries => exact absurd h false_ne_true
    | _ => rfl

theorem snd_eq_false {V : Type} {r : V × Bool} (h : ∀ v, r ≠ (v, true)) : r.2 = false := by
  obtain ⟨v, matched⟩ := r
  cases matched with
  | false => rfl
  | true => exact absurd rfl (h v)

theorem updateField_of_rejected {old : t.Val F} (hfail : ∀ v, ¬ ParsesTo codec parseJson t old v s)
    (hnil : isNilPointer t old = false) (h : ∀ j ∈ parseJson s, fieldRefusedWhole t j = true) :
    updateField codec parseJson t old s = old := by
  cases t with
  | string => exact absurd rfl (hfail s)
  | bool =>
    show (parseBool s).getD _ = _
    cases hparse : parseBool s with
    | none => rfl
    | some b => exact absurd hparse (hfail b)
  | int w =>
    unfold updateField
    dsimp only
    cases hparse : parseInt s with
    | some i => exact absurd ⟨i, by rw [hparse, some_or], rfl⟩ (hfail (BitVec.ofInt w.bits i))
    | none =>
      cases hfloat : codec.parse s with
      | none => rfl
      | some x =>
        refine absurd ⟨codec.truncate x, ?_, rfl⟩ (hfail (BitVec.ofInt w.bits (codec.truncate x)))
        rw [hparse, hfloat, none_or, map_some]
  | uint w =>
    unfold updateField
    dsimp only
    cases hparse : parseUint s with
    | some n => exact absurd ⟨n, by rw [hparse, some_or], rfl⟩ (hfail (BitVec.ofNat w.bits n))
    | none =>
      cases hfloat : codec.parse s with
      | none => rfl
      | some x =>
        by_cases hnegative : codec.isNegative x = true
        · exact if_pos hnegative
        · refine absurd ⟨codec.truncateUint x, ?_, rfl⟩
            (hfail (BitVec.ofNat w.bits (codec.truncateUint x)))
          rw [hparse, hfloat, none_or, Option.filter_some_pos (by simpa using hnegative), map_some]
  | float =>
    show (codec.parse s).getD _ = _
    cases hparse : codec.parse s with
    | none => rfl
    | some x => exact absurd hparse (hfail x)
  | ptr t =>
    change Option (t.Val F) at old
    cases old with
    | none => exact absurd hnil.symm false_ne_true
    | some v =>
      have hs : s ≠ "null" := fun hs => hfail none (.inl ⟨hs, rfl⟩)
      rw [updateField_ptr hs (some v)]
      cases hparse : parseJson s with
      | none => rfl
      | some j =>
        refine congrArg some (decode_of_refusedWhole (h j hparse) (snd_eq_false fun elem helem => ?_))
        exact hfail (some elem) (.inr ⟨hs, j, hparse, elem, helem, rfl⟩)
  | map t =>
    unfold updateField
    dsimp only
    cases hparse : parseJson s with
    | none => rfl
    | some j =>
      exact if_neg (ne_true_of_eq_false (snd_eq_false fun v hv => hfail v ⟨j, hparse, hv⟩))
  | slice | struct =>
    unfold updateField
    dsimp only
    cases hparse : parseJson s with
    | none => rfl
    | some j =>
      exact decode_of_refusedWhole (h j hparse) (snd_eq_false fun v hv => hfail v ⟨j, hparse, hv⟩)

theorem updateField_of_parsesTo {old v : t.Val F} (h : ParsesTo codec parseJson t old v s) :
    updateField codec parseJson t old s = v := by
  cases t with
  | string => exact h.symm
  | bool =>
    change parseBool s = some v at h
    show (parseBool s).getD _ = v
    rw [h]
    rfl
  | float =>
    change codec.parse s = some v at h
    show (codec.parse s).getD _ = v
    rw [h]
    rfl
  | int w =>
    obtain ⟨i, hread, rfl⟩ := h
    unfold updateField
    dsimp only
    cases hparse : parseInt s with
    | some n =>
      rw [hparse] at hread
      cases hread
      rfl
    | none =>
      rw [hparse, none_or] at hread
      obtain ⟨x, hx, rfl⟩ := map_eq_some_iff.1 hread
      rw [hx]
  | uint w =>
    obtain ⟨n, hread, rfl⟩ := h
    unfold updateField
    dsimp only
    cases hparse : parseUint s with
    | some n' =>
      rw [hparse] at hread
      cases hread
      rfl
    | none =>
      rw [hparse, none_or] at hread
      obtain ⟨x, hx, rfl⟩ := map_eq_some_iff.1 hread
      obtain ⟨hx, hnegative⟩ := Option.filter_eq_some_iff.1 hx
      rw [hx]
      exact if_neg (by simpa using hnegative)
  | ptr t =>
    obtain ⟨rfl, rfl⟩ | ⟨hs, j, hj, elem, hdecode, rfl⟩ := h
    · rfl
    · rw [updateField_ptr hs old, hj]
      exact congrArg some (congrArg Prod.fst hdecode)
  | map t =>
    obtain ⟨j, hj, hdecode⟩ := h
    unfold updateField
    dsimp only
    rw [hj]
    dsimp only
    rw [hdecode]
    exact if_pos rfl
  | slice | struct =>
    obtain ⟨j, hj, hdecode⟩ := h
    unfold updateField
    dsimp only
    rw [hj]
    exact congrArg Prod.fst hdecode

theorem isNilPointer_of_rejected {old : t.Val F} (hfail : ∀ v, ¬ ParsesTo codec parseJson t old v s)
    (hkept : updateField codec parseJson t old s = old) : isNilPointer t old = false := by
  cases t with
  | ptr t =>
    have hs : s ≠ "null" := fun hs => hfail none (.inl ⟨hs, rfl⟩)
    change Option (t.Val F) at old
    cases old with
    | some v => rfl
    | none =>
      rw [updateField_ptr hs none] at hkept
      cases hparse : parseJson s with
      | none | some =>
        rw [hparse] at hkept
        exact absurd hkept (some_ne_none _)
  | _ => rfl

/-! ## A load -/

theorem get?_configToMap (codec : Codec F) (config : Config F c) (i : c.Index) :
    (configToMap codec config).get? (c.key i) = some (fieldText codec (c.ty i) (config i)) := by
  refine Table.get?_foldl_put_of_mem c.key (fun i => fieldText codec (c.ty i) (config i)) _ _ ?_
    (mem_finRange i)
  exact (nodup_finRange _).map c.key_injective

theorem configToMap_inj {config config' : Config F c} :
    configToMap codec config = configToMap codec config' ↔
      ∀ i, fieldText codec (c.ty i) (config i) = fieldText codec (c.ty i) (config' i) := by
  constructor
  · intro h i
    have hget := get?_configToMap codec config i
    rw [h, get?_configToMap] at hget
    exact (some.inj hget).symm
  · intro h
    unfold configToMap
    simp only [h]

theorem updateConfigFromMap_of_some {config : Config F c} {configMap : Table String String}
    {i : c.Index} (h : configMap.get? (c.key i) = some s) :
    updateConfigFromMap codec parseJson config configMap i =
      updateField codec parseJson (c.ty i) (config i) s := by
  unfold updateConfigFromMap
  rw [h]

def chatCompletionsToResponsesPolicy : Fields :=
  .cons (some ("enabled", false)) .bool <|
  .cons (some ("all_channels", false)) .bool <|
  .cons (some ("channel_ids", true)) (.slice (.int .w64)) <|
  .cons (some ("channel_types", true)) (.slice (.int .w64)) <|
  .cons (some ("model_patterns", true)) (.slice .string) <|
  .cons (some ("auto_tools_reasoning_models", true)) (.slice .string) .nil

def globalSettings : ConfigType where
  fields := [⟨"PassThroughRequestEnabled", "pass_through_request_enabled", .bool⟩,
    ⟨"ThinkingModelBlacklist", "thinking_model_blacklist", .slice .string⟩,
    ⟨"ChatCompletionsToResponsesPolicy", "chat_completions_to_responses_policy",
      .struct chatCompletionsToResponsesPolicy⟩]
  nodup := by decide +kernel

/-- Settings with these models in the last list of the policy. -/
def settingsOf (models : Option (List String)) : Config ℤ globalSettings
  | ⟨0, _⟩ => false
  | ⟨1, _⟩ => some (["moonshotai/kimi-k2-thinking", "kimi-k2-thinking"], [])
  | ⟨2, _⟩ => (false, true, none, none, none, models.map fun models => (models, []), ())

def parseWritten (values : List Json) (s : String) : Option Json :=
  values.find? fun j => j.marshal = s

theorem parseWritten_self (j : Json) (rest : List Json) :
    parseWritten (j :: rest) j.marshal = some j := find?_cons_of_pos (by simp)

theorem parseWritten_of_ne {j : Json} (h : j.marshal ≠ s) (rest : List Json) :
    parseWritten (j :: rest) s = parseWritten rest s := find?_cons_of_neg (by simpa using h)

def blacklist : Json := .arr [.str "moonshotai/kimi-k2-thinking", .str "kimi-k2-thinking"]

def policyText (models : List String) : Json :=
  .obj ([("enabled", .bool false), ("all_channels", .bool true)] ++
    if models = [] then [] else [("auto_tools_reasoning_models", .arr (models.map .str))])

def readSettings : String → Option Json :=
  parseWritten [.null, blacklist, policyText [], policyText ["^gpt-5\\.5"]]

theorem readsBack_settings {config : Config ℤ globalSettings} {models : List String}
    (hmodels : models = [] ∨ models = ["^gpt-5\\.5"])
    (hkinds : (Ty.slice .string).encode wholeNumbers (config ⟨1, by decide⟩) = blacklist)
    (hpolicy : (Ty.struct chatCompletionsToResponsesPolicy).encode wholeNumbers
      (config ⟨2, by decide⟩) = policyText models) (i : globalSettings.Index) :
    ReadsBack wholeNumbers readSettings (globalSettings.ty i) (config i) := by
  intro hjson
  match i with
  | ⟨0, _⟩ => exact absurd hjson false_ne_true
  | ⟨1, _⟩ =>
    show readSettings (Json.marshal ((Ty.slice .string).encode wholeNumbers (config ⟨1, _⟩))) =
      some ((Ty.slice .string).encode wholeNumbers (config ⟨1, _⟩))
    rw [hkinds]
    exact (parseWritten_of_ne (by decide +kernel) _).trans (parseWritten_self _ _)
  | ⟨2, _⟩ =>
    show readSettings (Json.marshal ((Ty.struct chatCompletionsToResponsesPolicy).encode wholeNumbers
      (config ⟨2, _⟩))) = some ((Ty.struct chatCompletionsToResponsesPolicy).encode wholeNumbers
      (config ⟨2, _⟩))
    rw [hpolicy]
    rcases hmodels with rfl | rfl
    · exact (parseWritten_of_ne (by decide +kernel) _).trans
        ((parseWritten_of_ne (by decide +kernel) _).trans (parseWritten_self _ _))
    · exact (parseWritten_of_ne (by decide +kernel) _).trans
        ((parseWritten_of_ne (by decide +kernel) _).trans
          ((parseWritten_of_ne (by decide +kernel) _).trans (parseWritten_self _ _)))

/-- One entry that is no boolean, and another one that is read. -/
def halfWrong : Table String String :=
  ((∅ : Table String String).put "pass_through_request_enabled" "maybe").put
    "thinking_model_blacklist" "null"

end Setting
