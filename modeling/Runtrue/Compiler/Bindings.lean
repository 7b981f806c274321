import Runtrue.Expression.Parser
import Runtrue.Model.Path
import Runtrue.Model.Quantity
import Runtrue.Workflow.Lock

/-!
# Names, values and bindings

`bindings.rs`, `error.rs` and the checks of `triggers.rs`: what an identifier, a reference, a path and a
condition of a workflow must look like, and the conversion of its scalars and bindings. `Externals` holds
what the compiler calls outside of this repository.
-/

namespace Runtrue

open Fallible

namespace Expression

def ParseError.text (error : ParseError) : String :=
  s!"{error.message} at bytes {error.span.start}..{error.span.finish}"

def EvalErrorKind.text : EvalErrorKind → String
  | unknownContext path => s!"unknown context path `{path}`"
  | expectedBoolean operator found => s!"operator `{operator}` requires boolean, found {found.text}"
  | incomparable operator left right =>
    s!"operator `{operator}` cannot compare {left.text} with {right.text}"
  | depthLimitExceeded => "evaluation depth limit exceeded"

def EvalError.text (error : EvalError) : String :=
  s!"{error.kind.text} at bytes {error.span.start}..{error.span.finish}"

end Expression

def ModelError.text : ModelError → String
  | unsafePath value => s!"path `{value}` is not a safe repository-relative path"

namespace Compiler

open Expression

inductive CompileError
  | semantic (path message : String)
  | parse (message : String)
  | json
  | capsule
  | lock (error : Lock.LockError)
deriving DecidableEq

abbrev Compiled (α : Type) := Except CompileError α

/-! ### Names -/

/-- `[A-Za-z_][A-Za-z0-9_-]*` -/
def isName : List Char → Bool
  | [] => false
  | c :: rest => isIdentifierStart c && rest.all isIdentifierContinue

/-- `[A-Za-z_][A-Za-z0-9_-]{0,63}` -/
def isIdentifier (value : String) : Bool := isName value.toList && value.length ≤ 64

def validateIdentifier (value path : String) : Compiled Unit :=
  rejectIf (¬isIdentifier value) (.semantic path s!"`{value}` is not a valid identifier")

def validateEnvironmentName (value path : String) : Compiled Unit :=
  rejectIf (¬isName value.toList) (.semantic path "invalid environment variable name")

/-- The contexts that a binding may read. -/
def contextRoots : List String := ["event", "matrix", "vars", "inputs", "needs", "steps", "git"]

/-- `(root)(.name)+` -/
def isContextPath (value : String) : Bool :=
  match Text.split '.' value with
  | root :: segment :: rest => root ∈ contextRoots && (segment :: rest).all fun s => isName s.toList
  | _ => false

def validateContextPath (value path : String) : Compiled Unit :=
  rejectIf (¬isContextPath value) (.semantic path s!"invalid context binding `{value}`")

def validateExternalReference (reference path : String) : Compiled Unit := do
  let empty := "reference source must be non-empty and contain no whitespace or control characters"
  rejectIf (reference = "" ∨ reference.toList.any isWhitespace ∨ reference.toList.any isControl)
    (.semantic path empty)
  match Text.rsplitOnce '@' reference with
  | none => return ()
  | some (source, selector) =>
    if Lock.isDigestSelector selector then do
      rejectIf (source = "") (.semantic path empty)
      let digest ← okOr (Text.stripStart "sha256:" selector)
        (.semantic path "reference digest must use the lowercase sha256 algorithm name")
      rejectIf (digest.utf8ByteSize ≠ 64 ∨ ¬digest.toList.all isLowerHex)
        (.semantic path "reference digest must contain 64 lowercase hexadecimal characters")
    else return ()

/-! ### Conditions -/

def conditionRoots : List String :=
  ["event", "matrix", "vars", "inputs", "needs", "steps", "git", "success", "failure", "cancelled"]

def parseCondition (numbers : NumberText) (value path : String) : Compiled Expression :=
  match Expression.parse numbers value with
  | .ok expression => .ok expression
  | .error error => .error (.semantic path s!"invalid typed expression: {error.text}")

/-- A condition that reads nothing is evaluated at once. -/
def requireBooleanConstant (expression : Expression) (path : String) : Compiled Unit :=
  if expression.contextReferences.isEmpty then
    match expression.evaluateBool fun _ => none with
    | .ok _ => .ok ()
    | .error error => .error (.semantic path s!"condition must evaluate to a boolean: {error.text}")
  else .ok ()

def normalizeExpression (numbers : NumberText) (value path : String) : Compiled String := do
  let expression ← parseCondition numbers value path
  forEach expression.contextReferences fun reference =>
    let root := (Text.split '.' reference).headD ""
    rejectIf (root ∉ conditionRoots) (.semantic path s!"unknown expression context root `{root}`")
  requireBooleanConstant expression path
  return expression.canonicalSource numbers

/-! ### Paths, durations and sizes -/

def normalizePath (value path : String) : Compiled String :=
  match normalizeRelativePath value with
  | .ok normalized => .ok normalized
  | .error error => .error (.semantic path error.text)

def normalizePattern (value path : String) : Compiled String := do
  rejectIf (value = "" ∨ Text.startsWith "/" value ∨ '\\' ∈ value.toList ∨
      ".." ∈ Text.split '/' value ∨ '\x00' ∈ value.toList)
    (.semantic path s!"unsafe repository-relative path pattern `{value}`")
  let kept := (Text.split '/' ((Text.stripStart "./" value).getD value)).filter
    fun segment => segment ≠ "" ∧ segment ≠ "."
  let normalized := "/".intercalate kept
  rejectIf (normalized = "") (.semantic path "path pattern cannot be empty")
  return normalized

def parseDuration (value path : String) : Compiled U64 :=
  okOr (parseDurationMillis value) (.semantic path (invalidDuration value))

def parseSize (value path : String) : Compiled U64 :=
  okOr (parseByteSize value) (.semantic path (invalidSize value))

def parseRetention (value path : String) : Compiled U64 :=
  match Text.stripEnd "d" value with
  | some days => do
    let days ← okOr ((Text.parseU64 days).filter (· > 0))
      (.semantic path "retention must be a positive duration")
    okOr (Fixed.tryFrom 64 (days.toNat * 86400000)) (.semantic path "retention duration overflows")
  | none => parseDuration value path

/-! ### Scalars and bindings -/

def convertScalar (value : Ast.Scalar) (path : String) : Compiled Ir.ScalarValue :=
  match value with
  | .string value => do
    rejectIf ('\x00' ∈ value.toList) (.semantic path "string values cannot contain NUL bytes")
    return .string value
  | .integer value => .ok (.integer value)
  | .number value => do
    rejectIf (¬value.isFinite) (.semantic path "numeric values must be finite")
    return .number (if value.isZero then F64.zero else value)
  | .boolean value => .ok (.boolean value)

def validateVariables (vars : BTreeMap String Ast.Scalar) (path : String) : Compiled Unit :=
  forEach vars.toList fun (name, value) => do
    validateEnvironmentName name s!"{path}.{name}"
    rejectIf (¬value.isFinite) (.semantic s!"{path}.{name}" "numeric values must be finite")

def convertVariables (vars : BTreeMap String Ast.Scalar) (path : String) :
    Compiled (BTreeMap String Ir.ScalarValue) :=
  vars.mapEntries fun name value => convertScalar value s!"{path}.{name}"

def convertBinding (value : Ast.ValueBinding) (path : String) : Compiled Ir.ValueBinding :=
  match value with
  | .scalar value | .literal value => do return .literal (← convertScalar value path)
  | .fromContext context => do
    validateContextPath context path
    return .context context

/-- A path into a context that repository code or an event can influence. -/
def isUntrustedContextPath (path : String) : Bool :=
  (Text.split '.' path).headD "" ∈ ["event", "inputs", "needs", "steps", "git"]

def isUntrustedRuntimeContext : Ir.ValueBinding → Bool
  | .context path => isUntrustedContextPath path
  | .literal _ => false

def convertEnvironmentBinding (value : Ast.ValueBinding) (path : String) : Compiled Ir.ValueBinding := do
  match value with
  | .fromContext context =>
    rejectIf (isUntrustedContextPath context) (.semantic path
      ("untrusted context values cannot be injected through the process environment; use a typed " ++
        "condition, reviewed workflow vars value, or static matrix value"))
  | _ => pure ()
  convertBinding value path

/-- The job or step and the output named by a path `root.<id>.outputs.<name>`. -/
def parseOutputPath (root message value path : String) : Compiled (String × String) :=
  match Text.split '.' value with
  | [first, id, outputs, name] => do
    rejectIf (first ≠ root ∨ outputs ≠ "outputs") (.semantic path message)
    validateIdentifier id path
    validateIdentifier name path
    return (id, name)
  | _ => .error (.semantic path message)

def parseWorkflowOutputPath : String → String → Compiled (String × String) :=
  parseOutputPath "needs" "workflow output must use `needs.<job-id>.outputs.<output-id>`"

def parseDynamicMatrixPath : String → String → Compiled (String × String) :=
  parseOutputPath "needs" "dynamic matrix source must use `needs.<job-id>.outputs.<output-id>`"

def parseStepOutputPath : String → String → Compiled (String × String) :=
  parseOutputPath "steps" "job value output must use `steps.<step-id>.outputs.<output-id>`"

end Compiler

end Runtrue
