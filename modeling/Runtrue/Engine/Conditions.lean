import Runtrue.Compiler.Bindings

/-!
# Conditions at run time

`engine/src/conditions.rs`: the whole runtime context is converted to expression values before the condition is
evaluated, so a value that is out of their range is an error even if the condition does not read it.
-/

namespace Runtrue.Engine

open Fallible Expression Ir BTreeMap List

abbrev RuntimeContext := BTreeMap String ScalarValue

inductive EngineError
  | invalidCondition (expression message : String)
deriving DecidableEq

def expressionValue : ScalarValue → Except String Value
  | .string value => .ok (.string value)
  | .integer value => (Value.integer value.toInt).mapError ValueError.text
  | .number value => (Value.number value).mapError ValueError.text
  | .boolean value => .ok (.boolean value)

/-- `str::trim`. -/
def trim (text : String) : String :=
  String.ofList ((text.toList.dropWhile isWhitespace).reverse.dropWhile isWhitespace).reverse

def unwrapExpression (expression : String) : String :=
  match (Text.stripStart "$\x7b\x7b" (trim expression)).bind (Text.stripEnd "\x7d\x7d") with
  | some inner => trim inner
  | none => trim expression

/-- `evaluate_bool` of the expression crate, with the text of its error. -/
def evaluateBool (numbers : NumberText) (source : String) (resolver : Resolver) : Except String Bool := do
  let expression ← (Expression.parse numbers source).mapError ParseError.text
  (expression.evaluateBool resolver).mapError EvalError.text

def evaluateCondition (numbers : NumberText) (condition : Option String) (context : RuntimeContext) :
    Except EngineError Bool :=
  match condition with
  | none => .ok true
  | some condition => Except.mapError (.invalidCondition condition) do
    let values ← context.mapEntries fun _ => expressionValue
    evaluateBool numbers (unwrapExpression condition) fun path => values[joinPath path]?

/-- The paths that occur in a condition. -/
def mentioned (numbers : NumberText) (condition : Option String) : List String :=
  match condition.map (Expression.parse numbers ∘ unwrapExpression) with
  | some (.ok expression) => expression.root.lookups.map joinPath
  | _ => []

/-- Every value of the context is one of the expression language. -/
def Convertible (context : RuntimeContext) : Prop :=
  ∀ (path : String) value, context[path]? = some value → ∃ v, expressionValue value = .ok v

variable {resolver other : Resolver} {numbers : NumberText} {context context' : RuntimeContext}

theorem evaluateNode_congr {node : SyntaxNode} (h : ∀ path ∈ node.lookups, resolver path = other path) (depth : Nat) :
    evaluateNode resolver node depth = evaluateNode other node depth := by
  induction node generalizing depth with
  | literal => rw [evaluateNode, evaluateNode]
  | lookup path => rw [evaluateNode, evaluateNode, h path (mem_singleton_self path)]
  | unary operator _ _ _ ih =>
    cases operator
    rw [evaluateNode, evaluateNode, ih h]
  | binary _ _ _ _ _ ihl ihr =>
    obtain ⟨hleft, hright⟩ := forall_mem_append.mp h
    rw [evaluateNode, evaluateNode, ihl hleft, ihr hright]

theorem evaluateBool_congr {condition : String}
    (h : ∀ path, joinPath path ∈ mentioned numbers (some condition) → resolver path = other path) :
    evaluateBool numbers (unwrapExpression condition) resolver =
      evaluateBool numbers (unwrapExpression condition) other := by
  unfold mentioned at h
  unfold evaluateBool
  rw [Option.map_some, Function.comp_apply] at h
  cases hparse : Expression.parse numbers (unwrapExpression condition) with
  | error => rfl
  | ok expression =>
    rw [hparse] at h
    have hroot : expression.evaluate resolver = expression.evaluate other :=
      evaluateNode_congr (fun path hpath => h path (mem_map_of_mem hpath)) 0
    simp only [Except.mapError, ok_bind, Expression.evaluateBool, hroot]

theorem convertible_iff :
    Convertible context ↔ ∃ values, context.mapEntries (fun _ => expressionValue) = .ok values := by
  constructor
  · intro h
    have hall : ∀ p ∈ context.toList, ∃ v, expressionValue p.2 = .ok v :=
      fun p hp => h p.1 p.2 (mem_toList.mp hp)
    have : Nonempty Value := ⟨.null⟩
    choose! value hvalue using hall
    have hentries := mapEach_eq_ok.mpr (forall₂_map_right_iff.mpr (forall₂_same.mpr fun p hp => show
      (do return (p.1, ← expressionValue p.2)) = Except.ok (p.1, value p) by rw [hvalue p hp]; rfl))
    exact ⟨_, bind_eq_ok.mpr ⟨_, hentries, rfl⟩⟩
  · rintro ⟨values, hvalues⟩ path value hvalue
    obtain ⟨v, hv, -⟩ := exists_get_mapEntries hvalues hvalue
    exact ⟨v, hv⟩

/-- **A condition depends on the paths it mentions only, in contexts that can be converted.** In any other context every
condition fails. -/
theorem condition_frame {condition : Option String}
    (hagree : ∀ path ∈ mentioned numbers condition, context[path]? = context'[path]?) :
    (Convertible context → Convertible context' →
      evaluateCondition numbers condition context = evaluateCondition numbers condition context') ∧
    (¬Convertible context → ∀ text, condition = some text →
      ∃ message, evaluateCondition numbers condition context = .error (.invalidCondition text message)) := by
  refine ⟨fun hcontext hcontext' => ?_, ?_⟩
  · cases condition with
    | none => rfl
    | some condition =>
      obtain ⟨values, hvalues⟩ := convertible_iff.mp hcontext
      obtain ⟨values', hvalues'⟩ := convertible_iff.mp hcontext'
      simp only [evaluateCondition, hvalues, hvalues', ok_bind]
      rw [evaluateBool_congr fun path hpath => Option.ext fun v => ?_]
      rw [get_mapEntries hvalues, get_mapEntries hvalues', hagree _ hpath]
  · rintro hcontext text rfl
    cases hvalues : context.mapEntries fun _ => expressionValue with
    | ok values => exact absurd (convertible_iff.mpr ⟨values, hvalues⟩) hcontext
    | error message =>
      refine ⟨message, ?_⟩
      simp only [evaluateCondition, hvalues, error_bind]
      rfl

def noNumbers : NumberText := ⟨fun _ => none, fun _ => [], fun _ => []⟩

/-- A flag and the output of an earlier step. -/
def sized (size : Int64) : RuntimeContext :=
  .ofList [("ready", ScalarValue.boolean true), ("steps.build.outputs.size", .integer size)]

theorem condition_frame_sized : evaluateCondition noNumbers (some "ready") (sized 1) =
    evaluateCondition noNumbers (some "ready") (sized 2) := by
  have hagree : ∀ path ∈ mentioned noNumbers (some "ready"), (sized 1)[path]? = (sized 2)[path]? := by decide +kernel
  have hsized (size : Int64)
      (h : ((sized size).mapEntries fun _ => expressionValue).toOption.any (fun _ => true) = true) :
      Convertible (sized size) := by
    obtain ⟨values, hvalues, -⟩ := exists_eq_ok_of_any h
    exact convertible_iff.mpr ⟨values, hvalues⟩
  exact (condition_frame hagree).1 (hsized 1 (by decide +kernel)) (hsized 2 (by decide +kernel))

/-- **An output that the condition does not mention makes it fail.** -/
theorem large_output_fails_condition :
    (∀ path ∈ mentioned noNumbers (some "ready"), (sized 1)[path]? = (sized 9007199254740992)[path]?) ∧
      evaluateCondition noNumbers (some "ready") (sized 1) = .ok true ∧
      evaluateCondition noNumbers (some "ready") (sized 9007199254740992) =
        .error (.invalidCondition "ready" ValueError.inexactNumberRange.text) := by
  refine ⟨?_, ?_, ?_⟩ <;> decide +kernel

end Runtrue.Engine
