import Runtrue.Base.Collect
import Runtrue.Base.Text
import Runtrue.Expression.Lexer
import Runtrue.Workflow.Ir

/-!
# Matrices

`workflow-ir/src/matrix.rs`: a job with a matrix becomes one job for each combination of the values of its
axes, the values of an axis being sorted by their canonical texts (`canonical`) and taken once.
-/

namespace Runtrue.Ir

open Fallible Expression

inductive MatrixExpansionError
  | templateIdentityMismatch
  | templateMatrixNotEmpty
  | producerDependencyMissing
  | invalidLimit (limit : Nat)
  | limitExceeded (limit : Nat)
  | invalidAxis (axis : String)
  | emptyAxis (axis : String)
  | inputMustBeObject
  | axisMustBeArray (axis : String)
  | invalidScalar
deriving DecidableEq

def MatrixExpansionError.text : MatrixExpansionError → String
  | templateIdentityMismatch => "dynamic matrix template identity does not match its signed job identity"
  | templateMatrixNotEmpty => "dynamic matrix template must not contain pre-expanded matrix values"
  | producerDependencyMissing =>
    "dynamic matrix template must retain its producer as an explicit dependency"
  | invalidLimit limit => s!"dynamic matrix limit {limit} is outside 1..=1024"
  | limitExceeded limit => s!"dynamic matrix expands beyond the configured {limit} job limit"
  | invalidAxis axis => s!"invalid dynamic matrix axis `{axis}`"
  | emptyAxis axis => s!"dynamic matrix axis `{axis}` is empty"
  | inputMustBeObject => "dynamic matrix input must be a JSON object"
  | axisMustBeArray axis => s!"dynamic matrix axis `{axis}` must be a JSON array"
  | invalidScalar => "dynamic matrix values must be finite scalar values"

abbrev MatrixValues := BTreeMap String ScalarValue

/-! ### Axes -/

def validMatrixIdentifier (value : String) : Bool :=
  match value.toList with
  | [] => false
  | c :: rest => isIdentifierStart c && rest.all isIdentifierContinue

def validateMatrixScalar : ScalarValue → Except MatrixExpansionError Unit
  | .number value => rejectIf (¬value.isFinite ∨ value = F64.negZero) .invalidScalar
  | .string value => rejectIf ('\x00' ∈ value.toList) .invalidScalar
  | _ => .ok ()

/-- Keep the first of every run of elements with one key. -/
def dedupRuns {α κ : Type} [DecidableEq κ] (key : α → κ) : Option κ → List α → List α
  | _, [] => []
  | last, a :: l => if last = some (key a) then dedupRuns key last l else a :: dedupRuns key (some (key a)) l

/-- The distinct values of an axis in the order of their canonical texts. -/
def axisValues (canonical : ScalarValue → List UInt8) (axis : String) (values : List ScalarValue) :
    Except MatrixExpansionError (List ScalarValue) := do
  rejectIf (¬validMatrixIdentifier axis) (.invalidAxis axis)
  rejectIf (values = []) (.emptyAxis axis)
  forEach values validateMatrixScalar
  let sorted := values.insertionSort fun left right => (compare (canonical left) (canonical right)).isLE
  return dedupRuns canonical none sorted

/-! ### Combinations -/

/-- The loop over the axes: every combination so far with every value of the axis. -/
def addAxis (canonical : ScalarValue → List UInt8) (maximumJobs : Nat) (combinations : List MatrixValues)
    (entry : String × List ScalarValue) : Except MatrixExpansionError (List MatrixValues) := do
  let values ← axisValues canonical entry.1 entry.2
  let next := combinations.flatMap fun combination => values.map fun value => combination.insert entry.1 value
  rejectIf (next.length > maximumJobs) (.limitExceeded maximumJobs)
  return next

/-- A number with leading zeros. -/
def padded (width n : Nat) : String :=
  let digits := Nat.toDigits 10 n
  String.ofList (List.replicate (width - digits.length) '0' ++ digits)

def matrixJobId (baseId : String) (width index : Nat) : String := s!"{baseId}[{padded width index}]"

def expandMatrixValues (canonical : ScalarValue → List UInt8) (baseId : String)
    (axes : BTreeMap String (List ScalarValue)) (maximumJobs : Nat) :
    Except MatrixExpansionError (List (String × MatrixValues)) := do
  rejectIf (maximumJobs = 0 ∨ maximumJobs > 1024) (.invalidLimit maximumJobs)
  if axes.isEmpty then return [(baseId, ∅)]
  else do
    let combinations ← foldEach (addAxis canonical maximumJobs) [∅] axes.toList
    let width := max (Nat.toDigits 10 (combinations.length - 1)).length 1
    return combinations.zipIdx.map fun (values, index) => (matrixJobId baseId width index, values)

end Runtrue.Ir
