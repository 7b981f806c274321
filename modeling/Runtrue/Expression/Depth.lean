import Runtrue.Expression.RoundTrip

/-!
# The depth of an evaluation

The parser counts open parentheses and negations, the evaluator the levels of the tree. A chain of binary operators is
not nested, but its tree is as high as the chain is long.
-/

namespace Runtrue.Expression

open Fallible SyntaxNode

/-- The number of levels below the root. -/
def SyntaxNode.height : SyntaxNode → Nat
  | .literal _ _ | .lookup _ _ => 0
  | .unary _ _ operand _ => operand.height + 1
  | .binary _ _ left right _ => max left.height right.height + 1

/-- The evaluation does not fail at the depth limit. -/
def Shallow {α : Type} (x : Except EvalError α) : Prop := ∀ span, x ≠ .error ⟨.depthLimitExceeded, span⟩

variable {α β : Type} {node : SyntaxNode}

theorem Shallow.bind {x : Except EvalError α} {f : α → Except EvalError β} (hx : Shallow x) (hf : ∀ a, Shallow (f a)) :
    Shallow (x >>= f) := by
  cases x with
  | error e => exact fun span h => hx span (congrArg Except.error (Except.error.inj h))
  | ok a => exact hf a

theorem shallow_pure (a : α) : Shallow (pure a : Except EvalError α) := nofun

theorem shallow_okOr {a : Option α} {e : EvalError} (he : e.kind ≠ .depthLimitExceeded) : Shallow (okOr a e) := by
  cases a with
  | none => exact fun span h => he (congrArg EvalError.kind (Except.error.inj h))
  | some a => exact shallow_pure a

theorem shallow_requireBoolean (value : Value) (operator : String) (span : Span) :
    Shallow (requireBoolean value operator span) := by
  unfold requireBoolean
  split <;> exact nofun

theorem shallow_compute (operator : BinaryOperator) (span : Span) (left right : ValueKind) :
    Shallow (operator.compute span left right) := by
  unfold BinaryOperator.compute
  split
  · exact shallow_pure _
  · exact shallow_pure _
  · exact (shallow_okOr EvalErrorKind.noConfusion).bind fun _ => shallow_pure _

theorem Shallow.evaluateBinary {left right : Except EvalError Value} (hleft : Shallow left) (hright : Shallow right)
    (operator : BinaryOperator) (span : Span) : Shallow (evaluateBinary operator span left right) := by
  have hshort (stop : Bool) : Shallow (shortCircuit stop operator span left right) := by
    refine hleft.bind fun _ => (shallow_requireBoolean _ _ _).bind fun _ => ?_
    dsimp only
    split
    · exact shallow_pure _
    · exact hright.bind fun _ => (shallow_requireBoolean _ _ _).bind fun _ => shallow_pure _
  cases operator with
  | and | or => exact hshort _
  | _ => exact hleft.bind fun _ => hright.bind fun _ => (shallow_compute _ _ _ _).bind fun _ => shallow_pure _

theorem shallow_evaluateNode (resolver : Resolver) {depth : Nat} (h : depth + node.height ≤ maxEvaluationDepth) :
    Shallow (evaluateNode resolver node depth) := by
  have hdepth : ¬depth > maxEvaluationDepth := by omega
  induction node generalizing depth with
  | literal =>
    rw [evaluateNode, if_neg hdepth]
    exact shallow_pure _
  | lookup path span =>
    rw [evaluateNode, if_neg hdepth]
    exact (shallow_okOr EvalErrorKind.noConfusion).bind fun _ => shallow_pure _
  | unary operator _ operand _ ih =>
    cases operator
    rw [height] at h
    rw [evaluateNode, if_neg hdepth]
    have hoperand := ih (show depth + 1 + operand.height ≤ maxEvaluationDepth by omega) (by omega)
    exact hoperand.bind fun _ => (shallow_requireBoolean _ _ _).bind fun _ => shallow_pure _
  | binary operator _ left right _ ihl ihr =>
    rw [height] at h
    rw [evaluateNode, if_neg hdepth]
    exact (ihl (by omega) (by omega)).evaluateBinary (ihr (by omega) (by omega)) _ _

end Runtrue.Expression

namespace Runtrue

open Fallible Expression

/-- **A tree of at most 256 levels below its root is evaluated without reaching the depth limit.** -/
theorem evaluation_depth_suffices {expression : Expression} (hheight : expression.root.height ≤ maxEvaluationDepth)
    (resolver : Resolver) : Shallow (expression.evaluate resolver) :=
  shallow_evaluateNode resolver ((zero_add _).trans_le hheight)

/-- The comparisons `a<a<…<a` with the given number of operators. -/
def flatChain (operators : Nat) : List Char := 'a' :: (List.replicate operators ['<', 'a']).flatten

theorem evaluation_depth_suffices_chain : ∃ expression,
    Expression.parse codedNumbers (String.ofList (flatChain 3)) = .ok expression ∧
      expression.root.height ≤ maxEvaluationDepth ∧ Shallow (expression.evaluate fun _ => some .null) := by
  have hchain : ((Expression.parse codedNumbers (String.ofList (flatChain 3))).toOption.any fun expression =>
      decide (expression.root.height ≤ maxEvaluationDepth)) = true := by decide +kernel
  obtain ⟨expression, hparse, hheight⟩ := exists_eq_ok_of_any hchain
  have hheight := of_decide_eq_true hheight
  exact ⟨expression, hparse, hheight, evaluation_depth_suffices hheight _⟩

/-- **A chain of 257 comparisons is parsed and cannot be evaluated.** -/
theorem flat_chain_too_deep : ∃ expression,
    Expression.parse codedNumbers (String.ofList (flatChain 257)) = .ok expression ∧
      expression.evaluate (fun _ => some .null) = .error ⟨.depthLimitExceeded, ⟨0, 1⟩⟩ := by
  have hchain : ((tokenize codedNumbers (flatChain 257) >>= parseTokens).toOption.any fun node =>
      evaluateNode (fun _ => some .null) node 0 = .error ⟨.depthLimitExceeded, ⟨0, 1⟩⟩) = true := by
    decide +kernel
  obtain ⟨root, hroot, hdeep⟩ := exists_eq_ok_of_any hchain
  obtain ⟨tokens, htokens, hroot⟩ := bind_eq_ok.mp hroot
  have hbytes : ¬(String.ofList (flatChain 257)).utf8ByteSize > maxExpressionBytes := by decide +kernel
  refine ⟨⟨String.ofList (flatChain 257), root⟩, ?_, of_decide_eq_true hdeep⟩
  rw [Expression.parse, rejectIf, if_neg hbytes, String.toList_ofList, htokens]
  simp only [hroot, bind, Except.bind]
  rfl

end Runtrue
