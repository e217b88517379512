import EnboxDwn.Lib.JsonText
import Mathlib.Algebra.Order.Field.Rat
import Mathlib.Data.Rat.Lemmas

/-! Values as a parser reads them, and what a schema says of a value. Two keywords have no meaning
here other than for values of their own kind, and a keyword whose value is not of the kind it asks
for says nothing. -/

def Number.value : Number → ℚ
  | zero => 0
  | nonzero negative significand point =>
    (if negative then -1 else 1) * ofDigits significand.digits *
      (10 : ℚ) ^ (point - significand.digits.length)

deriving instance DecidableEq for Number

/-- A number of a parser: zero may carry a sign. -/
inductive SignedNumber where
  | negativeZero
  | plain (x : Number)
  deriving DecidableEq

namespace SignedNumber

def value : SignedNumber → ℚ
  | negativeZero => 0
  | plain x => x.value

def isInteger (x : SignedNumber) : Bool := x.value.den = 1

def text : SignedNumber → Utf16
  | negativeZero => Utf16.ascii "0"
  | plain x => x.symbols.map Json.symbolUnit

end SignedNumber

inductive JsonValue where
  | null
  | bool (b : Bool)
  | number (x : SignedNumber)
  | string (s : Utf16)
  | array (elements : List JsonValue)
  | object (entries : List (Utf16 × JsonValue))

namespace JsonValue
open Utf16

theorem induction {P : JsonValue → Prop} (null : P .null) (bool : ∀ b, P (.bool b))
    (number : ∀ x, P (.number x)) (string : ∀ s, P (.string s))
    (array : ∀ elements, (∀ t ∈ elements, P t) → P (.array elements))
    (object : ∀ entries : List (Utf16 × JsonValue), (∀ e ∈ entries, P e.2) → P (.object entries))
    (t : JsonValue) : P t :=
  JsonValue.rec (motive_1 := P) (motive_2 := fun l => ∀ t ∈ l, P t)
    (motive_3 := fun l => ∀ e ∈ l, P e.2) (motive_4 := fun e => P e.2)
    null bool number string array object
    (by simp) (fun _ _ hhead htail => by simpa using ⟨hhead, htail⟩)
    (by simp) (fun _ _ hhead htail => by
      intro e he
      cases he with
      | head => exact hhead
      | tail _ he => exact htail e he)
    (fun _ _ h => h) t

def property {α : Type} (name : Utf16) (entries : List (Utf16 × α)) : Option α :=
  (entries.find? fun e => e.1 = name).map Prod.snd

theorem property_map {α β : Type} (f : α → β) (name : Utf16) (entries : List (Utf16 × α)) :
    property name (entries.map fun e => (e.1, f e.2)) = (property name entries).map f := by
  rw [property, property, List.find?_map, Option.map_map, Option.map_map]
  rfl

/-! ## Equality -/

mutual

/-- Numbers are equal by what they stand for, objects whatever the order of their properties. -/
def Same : JsonValue → JsonValue → Prop
  | .null, .null => True
  | .bool a, .bool b => a = b
  | .number x, .number y => x.value = y.value
  | .string s, .string t => s = t
  | .array left, .array right => left.length = right.length ∧ SameElements left right
  | .object left, .object right => left.length = right.length ∧ SameProperties left right
  | _, _ => False

def SameElements : List JsonValue → List JsonValue → Prop
  | a :: left, b :: right => Same a b ∧ SameElements left right
  | _, _ => True

def SameProperties : List (Utf16 × JsonValue) → List (Utf16 × JsonValue) → Prop
  | [], _ => True
  | (key, a) :: left, right =>
    (∃ b, property key right = some b ∧ Same a b) ∧ SameProperties left right

end

/-! ## Keywords -/

def HasType (name : Utf16) : JsonValue → Prop
  | .null => name = ascii "null"
  | .bool _ => name = ascii "boolean"
  | .number x => name = ascii "number" ∨ (name = ascii "integer" ∧ x.isInteger)
  | .string _ => name = ascii "string"
  | .array _ => name = ascii "array"
  | .object _ => name = ascii "object"

/-- One of the types that are named. -/
def HasTypes : JsonValue → JsonValue → Prop
  | .string name, value => HasType name value
  | .array names, value => ∃ name, .string name ∈ names ∧ HasType name value
  | _, _ => False

def characters : Utf16 → Nat
  | [] => 0
  | [_] => 1
  | u :: v :: rest => if isLead u && isTrail v then characters rest + 1 else characters (v :: rest) + 1

def isSchema : JsonValue → Bool
  | .bool _ | .object _ => true
  | _ => false

/-- A keyword whose value bounds a count. -/
def count (keyword : Utf16) (schema : List (Utf16 × JsonValue)) : Option ℚ :=
  match property keyword schema with
  | some (.number bound) => if bound.isInteger then some bound.value else none
  | _ => none

/-- A keyword whose value bounds a number. -/
def limit (keyword : Utf16) (schema : List (Utf16 × JsonValue)) : Option ℚ :=
  match property keyword schema with
  | some (.number bound) => some bound.value
  | _ => none

open Classical in
/-- The keywords of a schema. With its properties come the meanings that they have as schemas. -/
structure Meets (schema : List (Utf16 × JsonValue)) (meanings : List (Utf16 × (JsonValue → Prop)))
    (value : JsonValue) : Prop where
  type : ∀ type, property (ascii "type") schema = some type → HasTypes type value
  enum : ∀ members, property (ascii "enum") schema = some (.array members) →
    ∃ m ∈ members, Same m value
  minimum : ∀ x bound, value = .number x → limit (ascii "minimum") schema = some bound →
    bound ≤ x.value
  maximum : ∀ x bound, value = .number x → limit (ascii "maximum") schema = some bound →
    x.value ≤ bound
  exclusiveMinimum : ∀ x bound, value = .number x →
    limit (ascii "exclusiveMinimum") schema = some bound → bound < x.value
  exclusiveMaximum : ∀ x bound, value = .number x →
    limit (ascii "exclusiveMaximum") schema = some bound → x.value < bound
  minLength : ∀ s bound, value = .string s → count (ascii "minLength") schema = some bound →
    bound ≤ characters s
  maxLength : ∀ s bound, value = .string s → count (ascii "maxLength") schema = some bound →
    (characters s : ℚ) ≤ bound
  minItems : ∀ elements bound, value = .array elements →
    count (ascii "minItems") schema = some bound → bound ≤ elements.length
  maxItems : ∀ elements bound, value = .array elements →
    count (ascii "maxItems") schema = some bound → (elements.length : ℚ) ≤ bound
  uniqueItems : ∀ elements, value = .array elements →
    property (ascii "uniqueItems") schema = some (.bool true) →
    elements.Pairwise fun a b => ¬ Same a b
  items : ∀ elements part meaning, value = .array elements →
    property (ascii "items") schema = some part → isSchema part = true →
    property (ascii "items") meanings = some meaning → ∀ e ∈ elements, meaning e
  contains : ∀ elements part meaning, value = .array elements →
    property (ascii "contains") schema = some part → isSchema part = true →
    property (ascii "contains") meanings = some meaning →
    ((count (ascii "minContains") schema).getD 1 ≤ elements.countP (fun e => meaning e) ∧
      ∀ bound, count (ascii "maxContains") schema = some bound →
        (elements.countP (fun e => meaning e) : ℚ) ≤ bound)

mutual

/-- The meaning of a schema. -/
def Satisfies : JsonValue → JsonValue → Prop
  | .bool b => fun _ => b = true
  | .object schema => Meets schema (meanings schema)
  | _ => fun _ => True

def meanings : List (Utf16 × JsonValue) → List (Utf16 × (JsonValue → Prop))
  | [] => []
  | (key, schema) :: rest => (key, Satisfies schema) :: meanings rest

end

end JsonValue
