import EnboxDwn.ModuleTags

/-! What the test of the tags says, against the meaning of the schemas that the module declares. -/
namespace EnboxDwn
namespace ModuleTags
open Utf16 JsonValue

/-! ## Keywords that agree -/

/-- The test of a value knows the type. -/
def Supported (type : JsonValue) : Prop := ∃ name ∈ allowedTagTypes, type = .string name

/-- A value that breaks no keyword on account of a length in code units or the sign of a zero. -/
structure Plain (schema : Properties) (parts : List (Utf16 × (JsonValue → Prop)))
    (value : JsonValue) : Prop where
  enum : ∀ members, property (ascii "enum") schema = some (.array members) →
    (∃ m ∈ members, Same m value) → ∃ m ∈ members, valuesEqual m value = true
  minLength : ∀ s bound, value = .string s → count (ascii "minLength") schema = some bound →
    bound ≤ s.length → bound ≤ characters s
  maxLength : ∀ s bound, value = .string s → count (ascii "maxLength") schema = some bound →
    (characters s : ℚ) ≤ bound → (s.length : ℚ) ≤ bound
  uniqueItems : ∀ elements, value = .array elements →
    property (ascii "uniqueItems") schema = some (.bool true) →
    (elements.Pairwise fun a b => valuesEqual a b = false) → elements.Pairwise fun a b => ¬ Same a b
  items : ∀ elements part, value = .array elements → property (ascii "items") parts = some part →
    ∀ e ∈ elements, part e
  contains : ∀ elements part, value = .array elements →
    property (ascii "contains") parts = some part → ∀ e ∈ elements, part e

/-- A value that breaks no keyword whose schema is a truth value, which is not tested. -/
structure PlainSchemas (schema : Properties) (value : JsonValue) : Prop where
  noItems : ∀ elements, value = .array elements →
    property (ascii "items") schema = some (.bool false) → elements = []
  anyContained : ∀ elements b, value = .array elements →
    property (ascii "contains") schema = some (.bool b) →
    (count (ascii "minContains") schema).getD 1 ≤ (if b then elements.length else 0 : ℕ) ∧
      ∀ bound, count (ascii "maxContains") schema = some bound →
        ((if b then elements.length else 0 : ℕ) : ℚ) ≤ bound

/-- A value that has a type which the test does not know is disputed, and only one of the right
type is tested further. -/
structure Agreeing (schema : Properties) (parts : List (Utf16 × (JsonValue → Prop)))
    (value : JsonValue) : Prop where
  type : ∀ t, property (ascii "type") schema = some t → HasTypes t value → Supported t
  keywords : (∀ t, property (ascii "type") schema = some t → HasTypes t value) →
    Plain schema parts value
  schemas : (∀ t, property (ascii "type") schema = some t → HasTypes t value) →
    PlainSchemas schema value

mutual

/-- In no visit do the test and the meaning part. -/
def Undisputed : JsonValue → JsonValue → Prop
  | .object schema => Agreeing schema (disputes schema)
  | _ => fun _ => True

def disputes : Properties → List (Utf16 × (JsonValue → Prop))
  | [] => []
  | (key, schema) :: rest => (key, Undisputed schema) :: disputes rest

end

variable {schema : Properties} {parts : List (Utf16 × (JsonValue → Prop))} {value : JsonValue}

end ModuleTags
end EnboxDwn
