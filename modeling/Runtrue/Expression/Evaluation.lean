import Runtrue.Base.Fallible
import Runtrue.Expression.Syntax

/-!
# Evaluation, and its noninterference

`evaluation.rs`. The operands of an operator are evaluated one level deeper than it, and evaluation stops
below `maxEvaluationDepth`; `&&` and `||` do not look at their right operand when the left one decides.

`Low label x y` compares two evaluations for an observer of the values without `label`: if `x` returns such
a value, `y` returns one that looks the same. Every construct keeps it, because the labels of a result contain
those of every operand the result depends on; an operand that was skipped was skipped because of a left
operand whose labels are in the result.
-/

namespace Runtrue.Expression

open Fallible Provenance

def maxEvaluationDepth : Nat := 256

inductive EvalErrorKind
  | unknownContext (path : String)
  | expectedBoolean (operator : String) (found : ValueType)
  | incomparable (operator : String) (left right : ValueType)
  | depthLimitExceeded
deriving DecidableEq

structure EvalError where
  kind : EvalErrorKind
  span : Span
deriving DecidableEq

/-- A source of values for dotted lookups. -/
abbrev Resolver := List String → Option Value

def requireBoolean (value : Value) (operator : String) (span : Span) :
    Except EvalError (Bool × Provenance) :=
  match value.kind with
  | .boolean boolean => .ok (boolean, value.provenance)
  | _ => .error ⟨.expectedBoolean operator value.valueType, span⟩

def valuesEqual : ValueKind → ValueKind → Bool
  | .null, .null => true
  | .boolean left, .boolean right => left = right
  | .number left, .number right => left.value = right.value
  | .string left, .string right => left = right
  | _, _ => false

/-- Numbers by value, strings by their code points. -/
def compareValues : ValueKind → ValueKind → Option Ordering
  | .number left, .number right => some (cmp left.value right.value)
  | .string left, .string right => some (compare left right)
  | _, _ => none

/-- The result of a relational operator on an ordering. -/
def BinaryOperator.holds : BinaryOperator → Ordering → Bool
  | .less, ordering => ordering.isLT
  | .lessEqual, ordering => ordering.isLE
  | .greater, ordering => ordering.isGT
  | .greaterEqual, ordering => ordering.isGE
  | _, _ => false

/-- The result of an equality or relational operator on the data of its operands. -/
def BinaryOperator.compute (operator : BinaryOperator) (operatorSpan : Span) (left right : ValueKind) :
    Except EvalError Bool :=
  match operator with
  | .equal => .ok (valuesEqual left right)
  | .notEqual => .ok !(valuesEqual left right)
  | _ => do
    let ordering ← okOr (compareValues left right)
      ⟨.incomparable operator.text left.valueType right.valueType, operatorSpan⟩
    return operator.holds ordering

/-- `&&` and `||`: the left operand alone if it is `stop`, and the right one otherwise. -/
def shortCircuit (stop : Bool) (operator : BinaryOperator) (operatorSpan : Span)
    (left right : Except EvalError Value) : Except EvalError Value := do
  let (leftBoolean, leftProvenance) ← requireBoolean (← left) operator.text operatorSpan
  if leftBoolean = stop then
    return ⟨.boolean stop, leftProvenance⟩
  let (rightBoolean, rightProvenance) ← requireBoolean (← right) operator.text operatorSpan
  return ⟨.boolean rightBoolean, leftProvenance.merge rightProvenance⟩

/-- An operator that compares the data of both operands. -/
def compareOperands (compute : ValueKind → ValueKind → Except EvalError Bool)
    (left right : Except EvalError Value) : Except EvalError Value := do
  let left ← left
  let right ← right
  let result ← compute left.kind right.kind
  return ⟨.boolean result, left.provenance.merge right.provenance⟩

/-- `evaluate_binary`, on the outcomes of the two operands. The right one is read only where the source
evaluates it. -/
def evaluateBinary (operator : BinaryOperator) (operatorSpan : Span) (left right : Except EvalError Value) :
    Except EvalError Value :=
  match operator with
  | .and => shortCircuit false operator operatorSpan left right
  | .or => shortCircuit true operator operatorSpan left right
  | _ => compareOperands (operator.compute operatorSpan) left right

def evaluateNode (resolver : Resolver) (node : SyntaxNode) (depth : Nat) : Except EvalError Value :=
  if depth > maxEvaluationDepth then .error ⟨.depthLimitExceeded, node.span⟩
  else
    match node with
    | .literal value _ => .ok value
    | .lookup path span => do
      let value ← okOr (resolver path) ⟨.unknownContext (joinPath path), span⟩
      return value.withSource (joinPath path)
    | .unary .not operatorSpan operand _ => do
      let value ← evaluateNode resolver operand (depth + 1)
      let (boolean, provenance) ← requireBoolean value "!" operatorSpan
      return ⟨.boolean (!boolean), provenance⟩
    | .binary operator operatorSpan left right _ =>
      evaluateBinary operator operatorSpan (evaluateNode resolver left (depth + 1))
        (evaluateNode resolver right (depth + 1))

/-! ### Two evaluations -/

variable {label : Label}

/-- Two values with the same data and labels, and with the same sources if `sources` is to be seen too. -/
structure Alike (sources : Prop) (v w : Value) : Prop where
  kind : w.kind = v.kind
  taint : w.provenance.taint = v.provenance.taint
  sources : sources → w.provenance.sources = v.provenance.sources

/-- If `x` returns a value without the label, then `y` returns one like it. -/
def Low (label : Label) (sources : Prop) (x y : Except EvalError Value) : Prop :=
  ∀ v, x = .ok v → v.provenance.taint.carries label = false → ∃ w, y = .ok w ∧ Alike sources v w

variable {sources : Prop} {p q : Provenance}

theorem Provenance.sources_addSource_congr (h : q.sources = p.sources) (source : String) :
    (q.addSource source).sources = (p.addSource source).sources := by
  unfold Provenance.addSource
  rw [h]
  split
  · exact h
  · rfl

theorem Provenance.sources_merge_congr {p q p' q' : Provenance} (h : q.sources = p.sources)
    (h' : q'.sources = p'.sources) : (q.merge q').sources = (p.merge p').sources := by
  have hfold : ∀ (added : List String) (a b : Provenance), b.sources = a.sources →
      (added.foldl addSource b).sources = (added.foldl addSource a).sources := by
    intro added
    induction added with
    | nil => exact fun _ _ hab => hab
    | cons source _ ih => exact fun a b hab => ih _ _ (sources_addSource_congr hab source)
  unfold merge
  rw [h']
  exact hfold _ _ _ h

theorem Alike.refl (v : Value) : Alike sources v v := ⟨rfl, rfl, fun _ => rfl⟩

variable {v w : Value}

theorem Alike.withSource (h : Alike sources v w) (source : String) :
    Alike sources (v.withSource source) (w.withSource source) where
  kind := h.kind
  taint := by simp [Value.withSource, h.taint]
  sources hsources := Provenance.sources_addSource_congr (h.sources hsources) source

theorem Alike.provenance (h : Alike sources v w) (kind : ValueKind) :
    Alike sources ⟨kind, v.provenance⟩ ⟨kind, w.provenance⟩ := ⟨rfl, h.taint, h.sources⟩

theorem Alike.merge {v w v' w' : Value} (h : Alike sources v w) (h' : Alike sources v' w') (kind : ValueKind) :
    Alike sources ⟨kind, v.provenance.merge v'.provenance⟩ ⟨kind, w.provenance.merge w'.provenance⟩ where
  kind := rfl
  taint := by simp [h.taint, h'.taint]
  sources hsources := sources_merge_congr (h.sources hsources) (h'.sources hsources)

variable {operator : String} {span : Span} {boolean : Bool} {provenance : Provenance}

theorem requireBoolean_eq_ok {value : Value} : requireBoolean value operator span = .ok (boolean, provenance) ↔
      value = ⟨.boolean boolean, provenance⟩ := by
  obtain ⟨kind, _⟩ := value
  cases kind <;> simp [requireBoolean]

theorem requireBoolean_alike (h : Alike sources v w) (hv : requireBoolean v operator span = .ok (boolean, provenance)) :
    requireBoolean w operator span = .ok (boolean, w.provenance) := by
  rw [requireBoolean_eq_ok] at hv ⊢
  subst hv
  obtain ⟨_, _⟩ := w
  obtain rfl := h.kind
  rfl

theorem carries_merge_eq_false (h : (p.merge q).taint.carries label = false) :
    p.taint.carries label = false ∧ q.taint.carries label = false := by
  rw [taint_merge, Taint.carries_merge, Bool.or_eq_false_iff] at h
  exact h

variable {left right left' right' : Except EvalError Value}

theorem Low.shortCircuit (hleft : Low label sources left left')
    (hright : Low label sources right right') (stop : Bool) (operator : BinaryOperator) (span : Span) :
    Low label sources (shortCircuit stop operator span left right) (shortCircuit stop operator span left' right') := by
  intro _ hresult hlow
  obtain ⟨_, hv, hafter⟩ := bind_eq_ok.mp hresult
  obtain ⟨⟨boolean, _⟩, hboolean, hrest⟩ := bind_eq_ok.mp hafter
  obtain rfl := requireBoolean_eq_ok.mp hboolean
  by_cases hstop : boolean = stop
  · simp only [hstop, ↓reduceIte, pure_eq_ok] at hrest
    subst hrest
    obtain ⟨w, hw, hvw⟩ := hleft _ hv hlow
    refine ⟨⟨.boolean stop, w.provenance⟩, ?_, hvw.provenance _⟩
    simp [Expression.shortCircuit, hw, requireBoolean_alike hvw hboolean, hstop, bind, Except.bind, pure,
      Except.pure]
  · simp only [hstop, ↓reduceIte] at hrest
    obtain ⟨_, hv', hafter'⟩ := bind_eq_ok.mp hrest
    obtain ⟨⟨boolean', _⟩, hboolean', hreturn⟩ := bind_eq_ok.mp hafter'
    obtain rfl := requireBoolean_eq_ok.mp hboolean'
    obtain rfl := pure_eq_ok.mp hreturn
    obtain ⟨hlow, hlow'⟩ := carries_merge_eq_false hlow
    obtain ⟨w, hw, hvw⟩ := hleft _ hv hlow
    obtain ⟨w', hw', hvw'⟩ := hright _ hv' hlow'
    refine ⟨⟨.boolean boolean', w.provenance.merge w'.provenance⟩, ?_, hvw.merge hvw' _⟩
    simp [Expression.shortCircuit, hw, hw', requireBoolean_alike hvw hboolean,
      requireBoolean_alike hvw' hboolean', hstop, bind, Except.bind, pure, Except.pure]

theorem Low.compareOperands (hleft : Low label sources left left') (hright : Low label sources right right')
    (compute : ValueKind → ValueKind → Except EvalError Bool) :
    Low label sources (compareOperands compute left right) (compareOperands compute left' right') := by
  intro _ hresult hlow
  obtain ⟨_, hv, hafter⟩ := bind_eq_ok.mp hresult
  obtain ⟨_, hv', hafter'⟩ := bind_eq_ok.mp hafter
  obtain ⟨boolean, hcompute, hreturn⟩ := bind_eq_ok.mp hafter'
  obtain rfl := pure_eq_ok.mp hreturn
  obtain ⟨hlow, hlow'⟩ := carries_merge_eq_false hlow
  obtain ⟨w, hw, hvw⟩ := hleft _ hv hlow
  obtain ⟨w', hw', hvw'⟩ := hright _ hv' hlow'
  refine ⟨⟨.boolean boolean, w.provenance.merge w'.provenance⟩, ?_, hvw.merge hvw' _⟩
  rw [← hvw.kind, ← hvw'.kind] at hcompute
  simp [Expression.compareOperands, hw, hw', hcompute, bind, Except.bind, pure, Except.pure]

theorem Low.evaluateBinary (hleft : Low label sources left left')
    (hright : Low label sources right right') (operator : BinaryOperator) (span : Span) :
    Low label sources (evaluateBinary operator span left right) (evaluateBinary operator span left' right') := by
  cases operator with
  | or | and => exact hleft.shortCircuit hright _ _ _
  | equal | notEqual | less | lessEqual | greater | greaterEqual => exact hleft.compareOperands hright _

/-- Two resolvers that define the same paths with the same labels, and agree on the data of every path
without the label. -/
structure Agree (label : Label) (resolver other : Resolver) : Prop where
  defined : ∀ path, (resolver path).isSome = (other path).isSome
  taint : ∀ path v w, resolver path = some v → other path = some w →
    w.provenance.taint = v.provenance.taint
  kind : ∀ path v w, resolver path = some v → other path = some w →
    v.provenance.taint.carries label = false → w.kind = v.kind

/-- The sources of every path without the label agree too. -/
def AgreeOnSources (label : Label) (resolver other : Resolver) : Prop :=
  ∀ path v w, resolver path = some v → other path = some w → v.provenance.taint.carries label = false →
    w.provenance.sources = v.provenance.sources

variable {resolver other : Resolver}

theorem Agree.lookup (hagree : Agree label resolver other) {path : List String}
    (hv : resolver path = some v) (hlow : v.provenance.taint.carries label = false) :
    ∃ w, other path = some w ∧ Alike (AgreeOnSources label resolver other) v w := by
  have hdefined := hagree.defined path
  rw [hv, Option.isSome_some] at hdefined
  obtain ⟨w, hw⟩ := Option.isSome_iff_exists.mp hdefined.symm
  exact ⟨w, hw, hagree.kind path v w hv hw hlow, hagree.taint path v w hv hw,
    fun hsources => hsources path v w hv hw hlow⟩

theorem Agree.evaluateNode (hagree : Agree label resolver other) (node : SyntaxNode) (depth : Nat) :
    Low label (AgreeOnSources label resolver other) (evaluateNode resolver node depth)
      (evaluateNode other node depth) := by
  induction node generalizing depth with
  | literal =>
    intro v hv _
    unfold Expression.evaluateNode at hv ⊢
    exact ⟨v, hv, Alike.refl v⟩
  | lookup path =>
    intro result hresult hlow
    unfold Expression.evaluateNode at hresult ⊢
    split at hresult
    · cases hresult
    · obtain ⟨v, hv, hreturn⟩ := bind_eq_ok.mp hresult
      obtain rfl := pure_eq_ok.mp hreturn
      rw [Value.withSource, taint_addSource] at hlow
      obtain ⟨w, hw, hvw⟩ := hagree.lookup (okOr_eq_ok.mp hv) hlow
      refine ⟨w.withSource (joinPath path), ?_, hvw.withSource _⟩
      rw [if_neg ‹_›]
      simp [hw, okOr, bind, Except.bind, pure, Except.pure]
  | unary operator _ _ _ ih =>
    cases operator
    intro result hresult hlow
    unfold Expression.evaluateNode at hresult ⊢
    split at hresult
    · cases hresult
    · obtain ⟨_, hv, hafter⟩ := bind_eq_ok.mp hresult
      obtain ⟨⟨boolean, _⟩, hboolean, hreturn⟩ := bind_eq_ok.mp hafter
      obtain rfl := requireBoolean_eq_ok.mp hboolean
      obtain rfl := pure_eq_ok.mp hreturn
      obtain ⟨w, hw, hvw⟩ := ih _ _ hv hlow
      refine ⟨⟨.boolean !boolean, w.provenance⟩, ?_, hvw.provenance _⟩
      rw [if_neg ‹_›]
      simp [hw, requireBoolean_alike hvw hboolean, bind, Except.bind, pure, Except.pure]
  | binary operator operatorSpan _ _ _ ihl ihr =>
    intro result hresult hlow
    unfold Expression.evaluateNode at hresult ⊢
    split at hresult
    · cases hresult
    · rw [if_neg ‹_›]
      exact (ihl _).evaluateBinary (ihr _) operator operatorSpan result hresult hlow

end Runtrue.Expression
