import BeeApi.Lib.Json
import BeeApi.Lib.Strings

/-!
# The conditions of a parameter override

A document is given by its value, and `gjson.Get` on its text by the value that is found at a path.
-/

namespace BeeApi.Override

/-- What `gjson` finds at a path of a document, and the floating-point number of a number's text. -/
structure Gjson (F : Type) where
  get : Json → String → Option Json
  num : String → F

def resultString : Json → String
  | .null => ""
  | .bool b => if b then "true" else "false"
  | .num _ plain => plain
  | .str s => s
  | j => Json.marshal j

def typeName : Json → String
  | .null => "Null"
  | .bool b => if b then "True" else "False"
  | .num _ _ => "Number"
  | .str _ => "String"
  | _ => "JSON"

structure ConditionOperation where
  path : String
  mode : String
  value : Json := .null
  invert : Bool := false
  passMissingKey : Bool := false

/-- The submatches of the pattern `\.(-\d+)`. -/
def negativeIndices : List Char → List (List Char)
  | [] => []
  | c :: rest =>
    match c, rest with
    | '.', '-' :: d :: digits =>
      if d.isDigit then ('-' :: d :: digits.takeWhile Char.isDigit) :: negativeIndices rest
      else negativeIndices rest
    | _, _ => negativeIndices rest

/-- What stands before the first occurrence of a text. -/
def before (sub : List Char) : List Char → List Char
  | [] => []
  | c :: rest => if sub.isPrefixOf (c :: rest) then [] else c :: before sub rest

/-- `strings.Replace` of the first occurrence. -/
def replaceFirst (old new : List Char) : List Char → List Char
  | [] => []
  | c :: rest =>
    if old.isPrefixOf (c :: rest) then new ++ (c :: rest).drop old.length
    else c :: replaceFirst old new rest

section

variable {F : Type} (gjson : Gjson F)

/-- One turn of the loop of `processNegativeIndex`. -/
def resolveIndex (json : Json) (path : List Char) (result negIndex : List Char) : List Char :=
  let arrayPath := before negIndex path
  let arrayPath := if ['.'].isSuffixOf arrayPath then arrayPath.dropLast else arrayPath
  match gjson.get json (String.ofList arrayPath) with
  | some (.arr items) =>
    -- an index that does not fit an `int` is the smallest one and stays out of range
    let index : ℤ := -(Nat.ofDigitChars 10 negIndex.tail 0)
    let actualIndex := items.length + index
    if 0 ≤ actualIndex ∧ actualIndex < items.length then
      replaceFirst ('.' :: negIndex) ('.' :: (toString actualIndex).toList) result
    else result
  | _ => result

def processNegativeIndex (json : Json) (path : String) : String :=
  String.ofList ((negativeIndices path.toList).foldl (resolveIndex gjson json path.toList) path.toList)

variable [LinearOrder F]

def compareEqual (jsonValue targetValue : Json) : Except String Bool :=
  match jsonValue, targetValue with
  | .null, .null => .ok true
  | .null, _ => .ok false
  | _, .null => .ok false
  | .bool b, .bool b' => .ok (b == b')
  | .num text _, .num text' _ => .ok (gjson.num text = gjson.num text')
  | .str s, .str s' => .ok (s == s')
  | jsonValue, targetValue =>
    if typeName jsonValue ≠ typeName targetValue then
      .error s!"compare for different types, got {typeName jsonValue} and {typeName targetValue}"
    else .ok (resultString jsonValue == resultString targetValue)

def compareNumeric (jsonValue targetValue : Json) (operator : F → F → Bool) : Except String Bool :=
  match jsonValue, targetValue with
  | .num text _, .num text' _ => .ok (operator (gjson.num text) (gjson.num text'))
  | _, _ =>
    .error s!"numeric comparison requires both values to be numbers, got {typeName jsonValue} and {typeName targetValue}"

def compareGjsonValues (jsonValue targetValue : Json) (mode : String) : Except String Bool :=
  let text := resultString jsonValue
  let target := resultString targetValue
  match mode with
  | "full" => compareEqual gjson jsonValue targetValue
  | "prefix" => .ok (Strings.hasPrefix text target)
  | "suffix" => .ok (target.toList.isSuffixOf text.toList)
  | "contains" => .ok (Strings.contains text target)
  | "gt" => compareNumeric gjson jsonValue targetValue fun a b => b < a
  | "gte" => compareNumeric gjson jsonValue targetValue fun a b => b ≤ a
  | "lt" => compareNumeric gjson jsonValue targetValue fun a b => a < b
  | "lte" => compareNumeric gjson jsonValue targetValue fun a b => a ≤ b
  | mode => .error s!"unsupported comparison mode: {mode}"

/-- A condition is read in the document, and in the context where the document has nothing. -/
def checkSingleCondition (json : Json) (contextJSON : Option Json) (condition : ConditionOperation) :
    Except String Bool :=
  let path := processNegativeIndex gjson json condition.path
  let value := (gjson.get json path).or (contextJSON.bind fun context => gjson.get context condition.path)
  match value with
  | none => .ok condition.passMissingKey
  | some value =>
    match compareGjsonValues gjson value condition.value (Strings.toLower condition.mode) with
    | .error err => .error s!"comparison failed for path {condition.path}: {err}"
    | .ok result => .ok (result ^^ condition.invert)

def checkConditions (json : Json) (contextJSON : Option Json) (conditions : List ConditionOperation)
    (logic : String) : Except String Bool :=
  if conditions = [] then .ok true
  else do
    let results ← conditions.mapM (checkSingleCondition gjson json contextJSON)
    return if Strings.equalFold logic "AND" then results.all id else results.any id

end

end BeeApi.Override
