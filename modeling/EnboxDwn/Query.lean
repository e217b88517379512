import EnboxDwn.Indexes

/-! Filters over index key values and their reference matcher. -/
namespace EnboxDwn
open KeyValues

/-- A filter on one property. Range bounds are strings (dates) or numbers (tags). -/
inductive FilterValue where
  | equal (v : Value)
  | oneOf (vs : List Value)
  | range (gt gte lt lte : Option Value)
  | subtree (path : String)
  deriving DecidableEq, Repr

abbrev Filter := List (String × FilterValue)

namespace Value

/-- `a < b` of the runtime on values of one kind; values of different kinds do not compare. -/
def lt : Value → Value → Bool
  | .string a, .string b => a < b
  | .number a, .number b => a < b
  | _, _ => false

def le : Value → Value → Bool
  | .string a, .string b => a ≤ b
  | .number a, .number b => a ≤ b
  | _, _ => false

end Value

namespace FilterUtility

/-- The selected path itself or one of its proper `/`-delimited descendants. -/
def matchesSubtree (subtree : String) : Value → Bool
  | .string candidate => candidate == subtree || startsWith candidate (subtree ++ "/")
  | _ => false

def matchRange (gt gte lt lte : Option Value) (v : Value) : Bool :=
  !(lt.any fun b => b.le v) && !(lte.any fun b => b.lt v) &&
  !(gt.any fun b => v.le b) && !(gte.any fun b => v.lt b)

def matchIndexValue : FilterValue → Value → Bool
  | .equal w, v => v == w
  | .oneOf ws, v => ws.contains v
  | .range gt gte lt lte, v => matchRange gt gte lt lte v
  | .subtree path, v => matchesSubtree path v

def matchProperty (filterValue : FilterValue) : Option IndexValue → Bool
  | none => false
  | some (.single v) => matchIndexValue filterValue v
  | some (.array vs) => vs.any (matchIndexValue filterValue)

def matchFilter (kv : KeyValues) (filter : Filter) : Bool :=
  filter.all fun (property, filterValue) => matchProperty filterValue (get kv property)

def matchAnyFilter (kv : KeyValues) (orFilters : List Filter) : Bool :=
  orFilters.isEmpty || orFilters.any (matchFilter kv)

@[simp] theorem matchFilter_nil (kv : KeyValues) : matchFilter kv [] = true := rfl

@[simp] theorem matchFilter_cons (kv : KeyValues) (p : String) (v : FilterValue) (f : Filter) :
    matchFilter kv ((p, v) :: f) = (matchProperty v (get kv p) && matchFilter kv f) := rfl

@[simp] theorem matchAnyFilter_singleton (kv : KeyValues) (f : Filter) :
    matchAnyFilter kv [f] = matchFilter kv f := by
  simp [matchAnyFilter]

@[simp] theorem matchProperty_equal_text (s t : String) :
    matchProperty (.equal (.string s)) (some (text t)) = (t == s) := by
  by_cases h : t = s
  · simp [matchProperty, text, matchIndexValue, h]
  · simp [matchProperty, text, matchIndexValue, h]

theorem matchProperty_gte_text (s t : String) :
    matchProperty (.range none (some (.string s)) none none) (some (text t)) = true ↔ s ≤ t := by
  have hrange : matchProperty (.range none (some (.string s)) none none) (some (text t)) =
      !decide (t < s) := rfl
  rw [hrange, Bool.not_eq_true', decide_eq_false_iff_not, not_lt]

@[simp] theorem matchProperty_none (v : FilterValue) : matchProperty v none = false := rfl

end FilterUtility

namespace Filters

def equalText (property s : String) : String × FilterValue := (property, .equal (.string s))
def equalFlag (property : String) (b : Bool) : String × FilterValue := (property, .equal (.boolean b))

end Filters

end EnboxDwn
