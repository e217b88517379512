import EnboxDwn.Lib.JsonSchema

/-! The tags of a record and the schemas that a module declares for them. -/
namespace EnboxDwn
namespace ModuleTags
open Utf16 JsonValue

abbrev Properties := List (Utf16 × JsonValue)

structure TagValidationError where
  instancePath : Utf16
  message : Utf16
  deriving DecidableEq

abbrev Errors := List TagValidationError

def allowedTagTypes : List Utf16 :=
  [ascii "string", ascii "number", ascii "integer", ascii "boolean", ascii "array"]

def isRecord : JsonValue → Bool
  | .object _ => true
  | _ => false

def replaceAll (unit : CodeUnit) (replacement text : Utf16) : Utf16 :=
  text.flatMap fun u => if u = unit then replacement else [u]

def pathSegment (segment : Utf16) : Utf16 :=
  replaceAll 47 (ascii "~1") (replaceAll 126 (ascii "~0") segment)

def appendPath (path segment : Utf16) : Utf16 := path ++ 47 :: pathSegment segment

def decimal (n : Nat) : Utf16 := ascii (toString n)

def addError (instancePath message : Utf16) : Errors := [⟨instancePath, message⟩]

mutual

/-- Zeros of different signs are different, as `Object.is` has it. -/
def valuesEqual : JsonValue → JsonValue → Bool
  | .null, .null => true
  | .bool a, .bool b => a = b
  | .number x, .number y => x = y
  | .string s, .string t => s = t
  | .array left, .array right => left.length = right.length && elementsEqual left right
  | .object left, .object right => left.length = right.length && propertiesEqual left right
  | _, _ => false

def elementsEqual : List JsonValue → List JsonValue → Bool
  | [], _ => true
  | a :: left, b :: right => valuesEqual a b && elementsEqual left right
  | _ :: _, [] => false

def propertiesEqual : Properties → Properties → Bool
  | [], _ => true
  | (key, a) :: left, right =>
    (match property key right with
      | some b => valuesEqual a b
      | none => false) && propertiesEqual left right

end

/-! ## Definitions of tags -/

/-- One of the types that the test of a value knows. -/
def validateTypeName (type : Utf16) (value : JsonValue) (dataPath : Utf16) : Errors :=
  if type = ascii "string" then
    match value with
    | .string _ => []
    | _ => addError dataPath (ascii "must be string")
  else if type = ascii "number" then
    match value with
    | .number _ => []
    | _ => addError dataPath (ascii "must be number")
  else if type = ascii "integer" then
    match value with
    | .number x => if x.isInteger then [] else addError dataPath (ascii "must be integer")
    | _ => addError dataPath (ascii "must be integer")
  else if type = ascii "boolean" then
    match value with
    | .bool _ => []
    | _ => addError dataPath (ascii "must be boolean")
  else if type = ascii "array" then
    match value with
    | .array _ => []
    | _ => addError dataPath (ascii "must be array")
  else addError dataPath (ascii "must match a supported tag schema type")

def validateType (type : Option JsonValue) (value : JsonValue) (dataPath : Utf16) : Errors :=
  match type with
  | none => []
  | some (.string type) => validateTypeName type value dataPath
  | some _ => addError dataPath (ascii "must match a supported tag schema type")

def validateEnum (schema : Properties) (value : JsonValue) (dataPath : Utf16) : Errors :=
  match property (ascii "enum") schema with
  | some (.array members) =>
    if members.any fun allowed => valuesEqual allowed value then []
    else addError dataPath (ascii "must be equal to one of the allowed values")
  | _ => []

/-- A bound of a keyword that a quantity breaks. -/
def validateBound (bound : Option SignedNumber) (broken : ℚ → Bool) (dataPath message tail : Utf16) :
    Errors :=
  match bound with
  | some bound =>
    if broken bound.value then addError dataPath (message ++ bound.text ++ tail) else []
  | none => []

def numberOf (keyword : Utf16) (schema : Properties) : Option SignedNumber :=
  match property keyword schema with
  | some (.number x) => some x
  | _ => none

def integerOf (keyword : Utf16) (schema : Properties) : Option SignedNumber :=
  match property keyword schema with
  | some (.number x) => if x.isInteger then some x else none
  | _ => none

def validateNumberConstraints (schema : Properties) (value : JsonValue) (dataPath : Utf16) : Errors :=
  match value with
  | .number x =>
    validateBound (numberOf (ascii "minimum") schema) (fun bound => x.value < bound) dataPath
        (ascii "must be >= ") [] ++
      validateBound (numberOf (ascii "maximum") schema) (fun bound => bound < x.value) dataPath
        (ascii "must be <= ") [] ++
      validateBound (numberOf (ascii "exclusiveMinimum") schema) (fun bound => x.value ≤ bound)
        dataPath (ascii "must be > ") [] ++
      validateBound (numberOf (ascii "exclusiveMaximum") schema) (fun bound => bound ≤ x.value)
        dataPath (ascii "must be < ") []
  | _ => []

/-- The length is that of code units. -/
def validateStringConstraints (schema : Properties) (value : JsonValue) (dataPath : Utf16) : Errors :=
  match value with
  | .string s =>
    validateBound (integerOf (ascii "minLength") schema) (fun bound => s.length < bound) dataPath
        (ascii "must NOT have fewer than ") (ascii " characters") ++
      validateBound (integerOf (ascii "maxLength") schema) (fun bound => bound < s.length) dataPath
        (ascii "must NOT have more than ") (ascii " characters")
  | _ => []

def hasDuplicates : List JsonValue → Bool
  | [] => false
  | a :: rest => rest.any (valuesEqual a) || hasDuplicates rest

def validateUniqueItems (schema : Properties) (elements : List JsonValue) (dataPath : Utf16) : Errors :=
  match property (ascii "uniqueItems") schema with
  | some (.bool true) =>
    if hasDuplicates elements then addError dataPath (ascii "must NOT have duplicate items") else []
  | _ => []

def validateArrayConstraints (schema : Properties) (value : JsonValue) (dataPath : Utf16) : Errors :=
  match value with
  | .array elements =>
    validateBound (integerOf (ascii "minItems") schema) (fun bound => elements.length < bound) dataPath
        (ascii "must NOT have fewer than ") (ascii " items") ++
      validateBound (integerOf (ascii "maxItems") schema) (fun bound => bound < elements.length)
        dataPath (ascii "must NOT have more than ") (ascii " items") ++
      validateUniqueItems schema elements dataPath
  | _ => []

abbrev Validator := JsonValue → Utf16 → Errors

def validateContains (schema : Properties) (validate : Validator) (elements : List JsonValue)
    (dataPath : Utf16) : Errors :=
  let minimumCount := integerOf (ascii "minContains") schema
  let maximumCount := integerOf (ascii "maxContains") schema
  let validItemCount := (elements.filter fun item => validate item dataPath = []).length
  let minimumText := minimumCount.elim (ascii "1") SignedNumber.text
  if validItemCount < minimumCount.elim 1 SignedNumber.value ||
      maximumCount.elim false fun maximum => maximum.value < validItemCount then
    match maximumCount with
    | none =>
      addError dataPath (ascii "must contain at least " ++ minimumText ++ ascii " valid item(s)")
    | some maximum =>
      addError dataPath (ascii "must contain at least " ++ minimumText ++ ascii " and no more than " ++
        maximum.text ++ ascii " valid item(s)")
  else []

/-- The schema under a name with its validator, if it is a record. -/
def recordUnder (name : Utf16) (schema : Properties) (validators : List (Utf16 × Validator)) :
    Option Validator :=
  if (property name schema).elim false isRecord then property name validators else none

/-- The elements of an array under the schemas of a record. -/
def validateElements (schema : Properties) (validators : List (Utf16 × Validator))
    (value : JsonValue) (dataPath : Utf16) : Errors :=
  match value with
  | .array elements =>
    ((recordUnder (ascii "items") schema validators).elim [] fun validate =>
      elements.zipIdx.flatMap fun item => validate item.1 (appendPath dataPath (decimal item.2))) ++
    ((recordUnder (ascii "contains") schema validators).elim [] fun validate =>
      validateContains schema validate elements dataPath)
  | _ => []

/-- The keywords of a record. With its properties come their validators as schemas. -/
def validateKeywords (schema : Properties) (validators : List (Utf16 × Validator))
    (value : JsonValue) (dataPath : Utf16) : Errors :=
  let typeErrors := validateType (property (ascii "type") schema) value dataPath
  if typeErrors ≠ [] then typeErrors
  else
    validateEnum schema value dataPath ++ validateNumberConstraints schema value dataPath ++
      validateStringConstraints schema value dataPath ++
      validateArrayConstraints schema value dataPath ++
      validateElements schema validators value dataPath

mutual

def validateTagValue : JsonValue → Validator
  | .object schema => validateKeywords schema (validators schema)
  | _ => fun _ dataPath => addError dataPath (ascii "must match a supported tag schema")

def validators : Properties → List (Utf16 × Validator)
  | [] => []
  | (key, schema) :: rest => (key, validateTagValue schema) :: validators rest

end

/-! ## Tags of a record -/

/-- An object that begins empty; its prototype is that of all objects, or a record in between. -/
structure TagSchemas where
  own : List (Utf16 × Properties)
  prototype : Option Properties

/-- An assignment under the name of the prototype sets the prototype. -/
def TagSchemas.assign (schemas : TagSchemas) (tag : Utf16) (schema : Properties) : TagSchemas :=
  if tag = ascii "__proto__" then { schemas with prototype := some schema }
  else { schemas with own := schemas.own ++ [(tag, schema)] }

end ModuleTags
end EnboxDwn
