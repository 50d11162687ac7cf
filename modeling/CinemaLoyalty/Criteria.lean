import CinemaLoyalty.Lib.JsonText
import CinemaLoyalty.Numbers

/-! @svc Criteria | layer:model | source:src/achievements/validators/achievement-criteria.validator.ts, src/achievements/schemas/achievement-criteria.schemas.ts, src/achievements/mappers/achievement.mapper.ts (criteriaJson)

    The criteria an admin submits: from their text over the schema and the normaliser to the object
    handed to the database, to the `jsonb` column, and back to the text the admin is shown. Strings
    are UTF-16 here, since an escape can put a lone surrogate into a `valueField`. -/

namespace CinemaLoyalty
open JsonText Utf16

/-! ### Values -/

/-- A JavaScript value that came out of JSON. -/
abbrev JsValue := Value JsNumber

/-- `JSON.parse`. -/
def JSON.parse (text : Text) : Option JsValue := JsonText.parse JsNumber.ofRat text

/-- How a number is written: an integer of at most 53 bits by its digits, another finite number by
    `other`, and `null` where there is no JSON number. -/
def numberText (other : ℚ → Text) : JsNumber → Text
  | .fin q => if q.den = 1 ∧ |q.num| < 2 ^ 53 then intText q.num else other q
  | _ => ofString "null"

/-- `JSON.stringify`. -/
def JSON.stringify (other : ℚ → Text) (v : JsValue) : Text :=
  JsonText.stringify (numberText other) v

/-- A string in a `jsonb` column, which refuses U+0000 and lone surrogates. -/
def storedText (s : Text) : Option String := if 0 ∈ s then none else toString? s

mutual
/-- A value in a `jsonb` column. -/
def stored : JsValue → Option Json
  | .null => some .null
  | .bool b => some (.bool b)
  | .num (.fin q) => some (.num q)
  | .num _ => some .null
  | .str s => (storedText s).map .str
  | .arr vs => (storedItems vs).map .arr
  | .obj fs => (storedFields fs).map .obj

def storedItems : List JsValue → Option (List Json)
  | [] => some []
  | v :: vs => do
    let j ← stored v
    let js ← storedItems vs
    some (j :: js)

def storedFields : List (Text × JsValue) → Option (List (String × Json))
  | [] => some []
  | (name, v) :: fs => do
    let name ← storedText name
    let j ← stored v
    let js ← storedFields fs
    some ((name, j) :: js)
end

mutual
/-- A `jsonb` column as the client reads it. -/
def loaded : Json → JsValue
  | .null => .null
  | .bool b => .bool b
  | .num q => .num (.ofRat q)
  | .str s => .str (ofString s)
  | .arr js => .arr (loadedItems js)
  | .obj fs => .obj (loadedFields fs)

def loadedItems : List Json → List JsValue
  | [] => []
  | j :: js => loaded j :: loadedItems js

def loadedFields : List (String × Json) → List (Text × JsValue)
  | [] => []
  | (name, j) :: fs => (ofString name, loaded j) :: loadedFields fs
end

/-- `w` is `v` with its keys in another order: a `jsonb` column keeps the keys in an order of its
    own. -/
def Reordered (v w : Json) : Prop :=
  ∃ fields shown, v = .obj fields ∧ w = .obj shown ∧ shown.Perm fields

/-! ### Schema -/

/-- `RawAchievementCriteria`, and `AchievementCriteria` before its strings are characters. -/
structure RawAchievementCriteria where
  field : AchievementAction
  operator : AchievementCriteriaOperator
  target : ℤ
  valueField : Option Text := none
  deriving DecidableEq

/-- White space in a string of units; it has no surrogates. -/
def isSpace (c : UInt16) : Bool := jsWhitespace (Char.ofNat c.toNat)

/-- `String.prototype.trim`. -/
def trim (s : Text) : Text := ((s.dropWhile isSpace).reverse.dropWhile isSpace).reverse

/-- `z.enum`. -/
def parseEnum {α : Type} (ofText : String → Option α) : Option JsValue → Option α
  | some (.str s) => (toString? s).bind ofText
  | _ => none

/-- `z.number().int().positive().max(MAX_ACHIEVEMENT_TARGET)`. -/
def rawTarget : Option JsValue → Option ℤ
  | some (.num (.fin q)) => parseTarget (some (.num q))
  | _ => none

/-- `z.string().trim().min(1).max(64).optional()`; the outer option is the parse result. -/
def rawValueField : Option JsValue → Option (Option Text)
  | none => some none
  | some (.str s) =>
    if 1 ≤ (trim s).length ∧ (trim s).length ≤ 64 then some (some (trim s)) else none
  | _ => none

/-- `RawAchievementCriteriaSchema.safeParse`; `AchievementCriteriaSchema` has the same shape. -/
def RawAchievementCriteriaSchema (criteria : JsValue) : Option RawAchievementCriteria := do
  let .obj _ := criteria | none
  let field ← parseEnum AchievementAction.ofText (criteria.field (ofString "field"))
  let operator ← parseEnum AchievementCriteriaOperator.ofText (criteria.field (ofString "operator"))
  let target ← rawTarget (criteria.field (ofString "target"))
  let valueField ← rawValueField (criteria.field (ofString "valueField"))
  return { field, operator, target, valueField }

def AchievementCriteriaOperator.text : AchievementCriteriaOperator → String
  | gte => "gte"
  | sum => "sum"

/-- `normalizeCriteria`. -/
def normalizeCriteria (criteria : RawAchievementCriteria) : RawAchievementCriteria :=
  if criteria.operator ≠ .sum then { criteria with valueField := none }
  else
    { criteria with
      valueField := some (criteria.valueField.getD (ofString DEFAULT_SUM_VALUE_FIELD)) }

/-- The fields of the object handed to the database; an empty `valueField` is left out. -/
def RawAchievementCriteria.fields (criteria : RawAchievementCriteria) : List (Text × JsValue) :=
  [(ofString "field", .str (ofString criteria.field.text)),
    (ofString "operator", .str (ofString criteria.operator.text)),
    (ofString "target", .num (.fin criteria.target))] ++
  match criteria.valueField with
  | none | some [] => []
  | some valueField => [(ofString "valueField", .str valueField)]

/-- `validateAndParseCriteriaJson`; `issues` is what the schema library says of a value it refuses. -/
def validateAndParseCriteriaJson (issues : JsValue → String) (criteriaJson : Text) :
    Except TxError JsValue :=
  match JSON.parse criteriaJson with
  | none => .error (.rpc .INVALID_ARGUMENT "criteriaJson is not valid JSON")
  | some parsed =>
    match RawAchievementCriteriaSchema parsed with
    | none => .error (.rpc .INVALID_ARGUMENT ("Invalid criteria: " ++ issues parsed))
    | some data => .ok (.obj (normalizeCriteria data).fields)

/-- `criteriaJson` of `AchievementMapper.toGrpc`. -/
def toGrpcCriteriaJson (other : ℚ → Text) (criteria : Json) : Text :=
  JSON.stringify other (loaded criteria)

/-! ### Increments -/

/-- The criteria as the worker holds them, if `valueField` is a string of characters. -/
def RawAchievementCriteria.decoded (criteria : RawAchievementCriteria) : Option AchievementCriteria :=
  match criteria.valueField with
  | none => some { field := criteria.field, operator := criteria.operator, target := criteria.target }
  | some s => (toString? s).map fun valueField =>
      { field := criteria.field
        operator := criteria.operator
        target := criteria.target
        valueField := some valueField }

/-- `calculateAchievementProgressIncrement`; no metadata has a field named by a lone surrogate. -/
def RawAchievementCriteria.increment (criteria : RawAchievementCriteria) (event : ActionEvent) :
    AchievementProgressIncrement :=
  match criteria.decoded with
  | some criteria => calculateAchievementProgressIncrement criteria event
  | none =>
    if criteria.operator ≠ .sum then { incrementBy := .fin 1, shouldProcess := true }
    else { incrementBy := .fin 0, shouldProcess := false }

/-- The criteria as a JSON value. -/
def AchievementCriteria.toJson (criteria : AchievementCriteria) : Json :=
  .obj ([("field", .str criteria.field.text), ("operator", .str criteria.operator.text),
    ("target", .num criteria.target)] ++
    (criteria.valueField.map fun valueField => [("valueField", Json.str valueField)]).getD [])

end CinemaLoyalty
