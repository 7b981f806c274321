import Runtrue.Compiler.Validation

/-!
# Rewriting the references of a job

`reusable/rewrite.rs`: a job of a reusable workflow reads the inputs bound by its call, which are replaced by
their values, and the outputs of its neighbours under their source names, which are replaced by the names of
the expanded jobs. A condition is rewritten as text: its canonical form is scanned for words outside of
strings, and the result is parsed again.
-/

namespace Runtrue.Compiler

open Fallible Expression

structure ReusableOutputTarget where
  job : String
  output : String
deriving DecidableEq

def ReusableOutputTarget.contextPath (target : ReusableOutputTarget) : String :=
  s!"needs.{target.job}.outputs.{target.output}"

/-- What the source names of one definition stand for. A call has no single job. -/
structure ReusableContextMappings where
  jobs : BTreeMap String (Option String)
  outputs : BTreeMap String (BTreeMap String ReusableOutputTarget)

def rewriteContextReference (mappings : ReusableContextMappings) (path reference : String) :
    Compiled String :=
  match Text.stripStart "needs." reference with
  | none => .ok reference
  | some rest =>
    let segments := Text.split '.' rest
    match segments with
    | [job, "outputs", output] => do
      let target ← okOr ((mappings.outputs[job]?).bind (·[output]?))
        (.semantic path s!"unknown or unexposed dependency output `{reference}`")
      return target.contextPath
    | _ => do
      let target ← okOr mappings.jobs[segments.headD ""]?
        (.semantic path s!"unknown dependency context `{reference}`")
      let target ← okOr target
        (.semantic path s!"reusable call context `{reference}` must use a declared workflow output")
      let rest := ".".intercalate (segments.drop 1)
      return s!"needs.{target}.{rest}"

/-! ### Bindings -/

def boundInput (inputs : BTreeMap String Ast.Scalar) (path message name : String) : Compiled Ast.Scalar := do
  rejectIf (name = "" ∨ '.' ∈ name.toList) (.semantic path message)
  okOr inputs[name]? (.semantic path s!"unbound reusable workflow input `{name}`")

def rewriteBinding (inputs : Option (BTreeMap String Ast.Scalar)) (mappings : ReusableContextMappings)
    (path : String) (value : Ast.ValueBinding) : Compiled Ast.ValueBinding :=
  match value with
  | .scalar _ | .literal _ => .ok value
  | .fromContext context =>
    match Text.stripStart "inputs." context, inputs with
    | some _, none => .ok value
    | some name, some inputs => do
      return .scalar (← boundInput inputs path "reusable input path must name one input" name)
    | none, _ => do return .fromContext (← rewriteContextReference mappings path context)

def rewriteBindingMap (inputs : Option (BTreeMap String Ast.Scalar)) (mappings : ReusableContextMappings)
    (path : String) (values : BTreeMap String Ast.ValueBinding) : Compiled (BTreeMap String Ast.ValueBinding) :=
  values.mapEntries fun name value => rewriteBinding inputs mappings s!"{path}.{name}" value

/-! ### Conditions -/

/-- A character of `serde_json::to_string`. -/
def jsonChar (c : Char) : List Char :=
  if c = '"' then ['\\', '"']
  else if c = '\\' then ['\\', '\\']
  else if c.toNat = 0x08 then ['\\', 'b']
  else if c.toNat = 0x0c then ['\\', 'f']
  else if c = '\n' then ['\\', 'n']
  else if c = '\r' then ['\\', 'r']
  else if c = '\t' then ['\\', 't']
  else if c.toNat < 0x20 then '\\' :: 'u' :: hexQuad c.toNat
  else [c]

def scalarExpressionLiteral (numbers : NumberText) : Ast.Scalar → List Char
  | .string value => '"' :: value.toList.flatMap jsonChar ++ ['"']
  | .integer value => (toString value.toInt).toList
  | .number value => numbers.writeJson value
  | .boolean true => "true".toList
  | .boolean false => "false".toList

/-- The text that replaces a word of a condition. -/
def rewriteWord (numbers : NumberText) (inputs : Option (BTreeMap String Ast.Scalar))
    (mappings : ReusableContextMappings) (path : String) (word : List Char) : Compiled (List Char) :=
  match Text.stripStart "inputs." (String.ofList word), inputs with
  | some _, none => .ok word
  | some name, some inputs => do
    let value ← boundInput inputs path "reusable input expression must name one input" name
    return scalarExpressionLiteral numbers value
  | none, _ => do
    return (← rewriteContextReference mappings path (String.ofList word)).toList

/-- Where the scan of a condition is. -/
inductive Scan
  | outside
  | word (letters : List Char)
  | string (escaped : Bool)

def isWordStart (c : Char) : Bool := c.isAlpha || c = '_'

def isWordContinue (c : Char) : Bool := c.isAlphanum || c = '_' || c = '-' || c = '.'

/-- What a character outside of words and strings emits, and where it leads. -/
def scanOutside (c : Char) : List Char × Scan :=
  if c = '"' then ([c], .string false)
  else if isWordStart c then ([], .word [c])
  else ([c], .outside)

/-- Inside a string nothing is rewritten. -/
def scanInString (escaped : Bool) (c : Char) : Scan :=
  if escaped then .string false
  else if c = '\\' then .string true
  else if c = '"' then .outside
  else .string false

def rewriteText (rewrite : List Char → Compiled (List Char)) : Scan → List Char → Compiled (List Char)
  | .word letters, [] => rewrite letters
  | _, [] => .ok []
  | .string escaped, c :: rest => do
    let out ← rewriteText rewrite (scanInString escaped c) rest
    return c :: out
  | .outside, c :: rest => do
    let out ← rewriteText rewrite (scanOutside c).2 rest
    return (scanOutside c).1 ++ out
  | .word letters, c :: rest =>
    if isWordContinue c then rewriteText rewrite (.word (letters ++ [c])) rest
    else do
      let replaced ← rewrite letters
      let out ← rewriteText rewrite (scanOutside c).2 rest
      return replaced ++ ((scanOutside c).1 ++ out)

section
variable (rewrite : List Char → Compiled (List Char)) (c : Char) (rest : List Char)

theorem rewriteText_outside : rewriteText rewrite .outside (c :: rest) = do
    let out ← rewriteText rewrite (scanOutside c).2 rest
    return (scanOutside c).1 ++ out := rfl

theorem rewriteText_letter (letters : List Char) : rewriteText rewrite (.word letters) (c :: rest) =
    if isWordContinue c then rewriteText rewrite (.word (letters ++ [c])) rest
    else do
      let replaced ← rewrite letters
      let out ← rewriteText rewrite (scanOutside c).2 rest
      return replaced ++ ((scanOutside c).1 ++ out) := rfl

end

def rewriteCondition (numbers : NumberText) (inputs : Option (BTreeMap String Ast.Scalar))
    (mappings : ReusableContextMappings) (path source : String) : Compiled String := do
  let expression ← parseCondition numbers source path
  let rewritten ← rewriteText (rewriteWord numbers inputs mappings path) .outside
    (expression.canonicalSource numbers).toList
  match Expression.parse numbers (String.ofList rewritten) with
  | .ok expression => return expression.canonicalSource numbers
  | .error error => .error (.semantic path s!"rewritten expression is invalid: {error.text}")

def combineConditions (numbers : NumberText) (parent : String) (child : Option String) : Compiled String :=
  let combined := match child with
    | none => parent
    | some child => s!"({parent}) && ({child})"
  match Expression.parse numbers combined with
  | .ok expression => .ok (expression.canonicalSource numbers)
  | .error error => .error (.semantic "if" s!"invalid combined condition: {error.text}")

/-! ### Jobs -/

def rewriteService (inputs : Option (BTreeMap String Ast.Scalar)) (mappings : ReusableContextMappings)
    (path name : String) (service : Ast.Service) : Compiled Ast.Service := do
  let env ← rewriteBindingMap inputs mappings s!"{path}.services.{name}.env" service.env
  return { service with env := env }

/-- Only the arguments of a command are rewritten. -/
def rewriteRun (inputs : Option (BTreeMap String Ast.Scalar)) (mappings : ReusableContextMappings)
    (path : String) : Ast.Run → Compiled Ast.Run
  | .command run => do
    let args ← mapEach (fun (argument, index) =>
      rewriteBinding inputs mappings s!"{path}.run.args[{index}]" argument) run.args.zipIdx
    return .command { run with args := args }
  | run => .ok run

def rewriteStep (numbers : NumberText) (inputs : Option (BTreeMap String Ast.Scalar))
    (mappings : ReusableContextMappings) (path : String) (step : Ast.Step) : Compiled Ast.Step := do
  let condition ← mapSome (rewriteCondition numbers inputs mappings s!"{path}.if") step.condition
  let stepInputs ← rewriteBindingMap inputs mappings s!"{path}.with" step.inputs
  let env ← rewriteBindingMap inputs mappings s!"{path}.env" step.env
  let run ← mapSome (rewriteRun inputs mappings path) step.run
  return { step with condition := condition, inputs := stepInputs, env := env, run := run }

/-- Finalizers are not rewritten. -/
def rewriteExecutableJob (numbers : NumberText) (inputs : Option (BTreeMap String Ast.Scalar))
    (mappings : ReusableContextMappings) (path : String) (job : Ast.Job) : Compiled Ast.Job := do
  let condition ← mapSome (rewriteCondition numbers inputs mappings s!"{path}.if") job.condition
  let services ← job.services.mapEntries (rewriteService inputs mappings path)
  let steps ← mapEach (fun (step, index) =>
    rewriteStep numbers inputs mappings s!"{path}.steps[{index}]" step) job.steps.zipIdx
  return { job with condition := condition, services := services, steps := steps }

end Runtrue.Compiler
