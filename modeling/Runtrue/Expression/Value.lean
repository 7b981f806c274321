import Runtrue.Base.Double

/-!
# Expression values and their provenance

`value.rs`: a value is a scalar with the labels and the sources it depends on. A number is a finite double
of magnitude at most `maxExactExpressionNumber`; no operation of the crate tells the two zeros apart, so it
is modelled as the rational it stands for, and the range is part of the type.
-/

namespace Runtrue.Expression

/-- A half-open byte range in the source of an expression. -/
structure Span where
  start : Nat
  finish : Nat
deriving DecidableEq

def Span.through (first last : Span) : Span := ⟨first.start, last.finish⟩

inductive ValueType
  | null | boolean | number | string
deriving DecidableEq

def ValueType.text : ValueType → String
  | .null => "null"
  | .boolean => "boolean"
  | .number => "number"
  | .string => "string"

/-! ### Labels and sources -/

structure Taint where
  untrusted : Bool
  secret : Bool
deriving DecidableEq

namespace Taint

def trusted : Taint := ⟨false, false⟩

def merge (taint other : Taint) : Taint :=
  ⟨taint.untrusted || other.untrusted, taint.secret || other.secret⟩

end Taint

/-- The two labels that a taint records. -/
inductive Label
  | untrusted | secret
deriving DecidableEq

def Taint.carries (taint : Taint) : Label → Bool
  | .untrusted => taint.untrusted
  | .secret => taint.secret

@[simp] theorem Taint.carries_merge (taint other : Taint) (label : Label) :
    (taint.merge other).carries label = (taint.carries label || other.carries label) := by
  cases label <;> rfl

structure Provenance where
  taint : Taint
  sources : List String
deriving DecidableEq

namespace Provenance

def empty : Provenance := ⟨.trusted, []⟩

def addSource (provenance : Provenance) (source : String) : Provenance :=
  if source ∈ provenance.sources then provenance
  else { provenance with sources := provenance.sources ++ [source] }

def merge (provenance other : Provenance) : Provenance :=
  other.sources.foldl addSource { provenance with taint := provenance.taint.merge other.taint }

@[simp] theorem taint_addSource (provenance : Provenance) (source : String) :
    (provenance.addSource source).taint = provenance.taint := by
  unfold addSource
  split <;> rfl

theorem taint_foldl_addSource (sources : List String) (provenance : Provenance) :
    (sources.foldl addSource provenance).taint = provenance.taint := by
  induction sources generalizing provenance with
  | nil => rfl
  | cons _ _ ih => rw [List.foldl_cons, ih, taint_addSource]

@[simp] theorem taint_merge (provenance other : Provenance) :
    (provenance.merge other).taint = provenance.taint.merge other.taint :=
  taint_foldl_addSource _ _

end Provenance

/-! ### Values -/

def maxExactExpressionNumber : ℚ := 9007199254740991

structure ExactNumber where
  value : ℚ
  inRange : |value| ≤ maxExactExpressionNumber
deriving DecidableEq

inductive ValueKind
  | null
  | boolean (value : Bool)
  | number (value : ExactNumber)
  | string (value : String)
deriving DecidableEq

def ValueKind.valueType : ValueKind → ValueType
  | .null => .null
  | .boolean _ => .boolean
  | .number _ => .number
  | .string _ => .string

inductive ValueError
  | nonFiniteNumber | inexactNumberRange
deriving DecidableEq

def ValueError.text : ValueError → String
  | .nonFiniteNumber => "expression numbers must be finite"
  | .inexactNumberRange => "expression numbers must stay within the exact range +/-9007199254740991"

structure Value where
  kind : ValueKind
  provenance : Provenance
deriving DecidableEq

namespace Value

def null : Value := ⟨.null, .empty⟩

def boolean (value : Bool) : Value := ⟨.boolean value, .empty⟩

def string (value : String) : Value := ⟨.string value, .empty⟩

/-- `Value::number`, with the two checks of `from_kind`. -/
def number (value : F64) : Except ValueError Value :=
  if value.isFinite = false then .error .nonFiniteNumber
  else if h : |value.toRat| ≤ maxExactExpressionNumber then .ok ⟨.number ⟨value.toRat, h⟩, .empty⟩
  else .error .inexactNumberRange

/-- `Value::integer`: the conversion to a double is exact inside the range, and stays outside it from
outside. -/
def integer (value : Int) : Except ValueError Value :=
  if h : |(value : ℚ)| ≤ maxExactExpressionNumber then .ok ⟨.number ⟨value, h⟩, .empty⟩
  else .error .inexactNumberRange

def valueType (value : Value) : ValueType := value.kind.valueType

def asBool (value : Value) : Option Bool :=
  match value.kind with
  | .boolean value => some value
  | _ => none

def withSource (value : Value) (source : String) : Value :=
  { value with provenance := value.provenance.addSource source }

end Value

end Runtrue.Expression
