import Runtrue.Expression.Lexer
import Runtrue.Expression.Evaluation

/-!
# The parser

`parser.rs`. A parser takes the tokens that are left and returns a tree and the tokens after it; the last
token is the end of input, and is never consumed. The four levels of binary operators are one loop
(`parseLevel`). The `nesting` counter of the source is the argument of `parseUnary`, counted down from
`maxParseDepth`: it is what makes the recursion through parentheses and negations end.

`lookupsOf` reads the dotted paths off a token list, without regard to the grammar. The lookups of a parsed
tree are those of the tokens consumed (`Reads`); this and other facts about it follow from how it is derived
(`Derives`).
-/

namespace Runtrue.Expression

open Fallible SyntaxNode List

def maxExpressionBytes : Nat := 64 * 1024
def maxParseDepth : Nat := 128

def describeToken : TokenKind → String
  | .null => "`null`"
  | .boolean _ => "boolean literal"
  | .number _ => "number literal"
  | .string _ => "string literal"
  | .identifier _ => "identifier"
  | .dot => "`.`"
  | .leftParenthesis => "`(`"
  | .rightParenthesis => "`)`"
  | .bang => "`!`"
  | .and => "`&&`"
  | .or => "`||`"
  | .equal => "`==`"
  | .notEqual => "`!=`"
  | .less => "`<`"
  | .lessEqual => "`<=`"
  | .greater => "`>`"
  | .greaterEqual => "`>=`"
  | .endOfInput => "end of input"

/-! ### Token lists -/

abbrev Parsed := Except ParseError (SyntaxNode × List Token)

def current (tokens : List Token) : Token := tokens.headD ⟨.endOfInput, ⟨0, 0⟩⟩

def take (tokens : List Token) : Token × List Token :=
  let token := current tokens
  (token, if token.kind = .endOfInput then tokens else tokens.tail)

def atEnd (tokens : List Token) : Bool := (current tokens).kind = .endOfInput

/-! ### Operators -/

def orOperator : TokenKind → Option BinaryOperator
  | .or => some .or
  | _ => none

def andOperator : TokenKind → Option BinaryOperator
  | .and => some .and
  | _ => none

def equalityOperator : TokenKind → Option BinaryOperator
  | .equal => some .equal
  | .notEqual => some .notEqual
  | _ => none

def comparisonOperator : TokenKind → Option BinaryOperator
  | .less => some .less
  | .lessEqual => some .lessEqual
  | .greater => some .greater
  | .greaterEqual => some .greaterEqual
  | _ => none

/-- The loop over the operators of one level, to the right of `left`; every round takes an operator. -/
def parseOperators (operand : List Token → Parsed) (operators : TokenKind → Option BinaryOperator) :
    Nat → SyntaxNode → List Token → Parsed
  | 0, left, tokens => .ok (left, tokens)
  | fuel + 1, left, tokens =>
    match operators (current tokens).kind with
    | none => .ok (left, tokens)
    | some operator => do
      let (token, rest) := take tokens
      let (right, rest) ← operand rest
      let node := .binary operator token.span left right (left.span.through right.span)
      parseOperators operand operators fuel node rest

def parseLevel (operators : TokenKind → Option BinaryOperator) (operand : List Token → Parsed)
    (tokens : List Token) : Parsed := do
  let (left, rest) ← operand tokens
  parseOperators operand operators rest.length left rest

def parseComparison (unary : List Token → Parsed) : List Token → Parsed := parseLevel comparisonOperator unary

def parseEquality (unary : List Token → Parsed) : List Token → Parsed :=
  parseLevel equalityOperator (parseComparison unary)

def parseAnd (unary : List Token → Parsed) : List Token → Parsed := parseLevel andOperator (parseEquality unary)

def parseOr (unary : List Token → Parsed) : List Token → Parsed := parseLevel orOperator (parseAnd unary)

/-! ### Primary expressions -/

/-- The name of a path segment after a dot; keywords are allowed there. -/
def segmentName : TokenKind → Option String
  | .identifier name => some name
  | .null => some "null"
  | .boolean true => some "true"
  | .boolean false => some "false"
  | _ => none

/-- The loop of `parse_lookup`: the segments after the first one, and the end of the last one. -/
def parseSegments : Nat → List Token → Except ParseError (List String × Nat × List Token)
  | finish, dot :: tokens =>
    if dot.kind = .dot then
      match tokens with
      | segment :: rest =>
        match segmentName segment.kind with
        | none => .error ⟨"expected identifier after `.`", segment.span⟩
        | some name => do
          let (path, finish, rest) ← parseSegments segment.span.finish rest
          return (name :: path, finish, rest)
      | [] => .error ⟨"expected identifier after `.`", (current []).span⟩
    else .ok ([], finish, dot :: tokens)
  | finish, [] => .ok ([], finish, [])

def parseLookup (first : String) (firstSpan : Span) (tokens : List Token) : Parsed := do
  let (path, finish, rest) ← parseSegments firstSpan.finish tokens
  rejectIf ((current rest).kind = .leftParenthesis)
    ⟨"function calls are not supported", (current rest).span⟩
  return (.lookup (first :: path) ⟨firstSpan.start, finish⟩, rest)

/-- `nested` enters one more level of nesting at the given token and parses an expression there. -/
def parsePrimary (nested : Span → List Token → Parsed) (tokens : List Token) : Parsed :=
  let (token, rest) := take tokens
  match token.kind with
  | .null => .ok (.literal .null token.span, rest)
  | .boolean value => .ok (.literal (.boolean value) token.span, rest)
  | .number value => .ok (.literal ⟨.number value, .empty⟩ token.span, rest)
  | .string value => .ok (.literal (.string value) token.span, rest)
  | .identifier first => parseLookup first token.span rest
  | .leftParenthesis => do
    let (expression, rest) ← nested token.span rest
    rejectIf ((current rest).kind ≠ .rightParenthesis) ⟨"expected `)`", (current rest).span⟩
    let (closing, rest) := take rest
    return (expression.withSpan (token.span.through closing.span), rest)
  | .endOfInput => .error ⟨"expected expression", token.span⟩
  | kind => .error ⟨s!"expected expression, found {describeToken kind}", token.span⟩

/-- The error of `enter_nesting`. -/
def nestingError (span : Span) : ParseError :=
  ⟨s!"expression nesting exceeds {maxParseDepth}-level limit", span⟩

/-- A unary expression, with `depth` more levels of nesting allowed. -/
def parseUnary : Nat → List Token → Parsed
  | 0, tokens =>
    if (current tokens).kind = .bang then .error (nestingError (current tokens).span)
    else parsePrimary (fun span _ => .error (nestingError span)) tokens
  | depth + 1, tokens =>
    if (current tokens).kind = .bang then do
      let (operator, rest) := take tokens
      let (operand, rest) ← parseUnary depth rest
      return (.unary .not operator.span operand (operator.span.through operand.span), rest)
    else parsePrimary (fun _ rest => parseOr (parseUnary depth) rest) tokens

def parseTokens (tokens : List Token) : Except ParseError SyntaxNode := do
  rejectIf (atEnd tokens) ⟨"expression is empty", (current tokens).span⟩
  let (expression, rest) ← parseOr (parseUnary maxParseDepth) tokens
  let token := current rest
  if atEnd rest then
    return expression
  else if token.kind = .leftParenthesis then
    .error ⟨"function calls are not supported", token.span⟩
  else
    .error ⟨s!"unexpected {describeToken token.kind} after expression", token.span⟩

/-! ### The lookups of a token list -/

/-- The path segments at the head of a token list, and what follows them. -/
def segmentsOf : List TokenKind → List String × List TokenKind
  | .dot :: segment :: rest =>
    match segmentName segment with
    | some name => (name :: (segmentsOf rest).1, (segmentsOf rest).2)
    | none => ([], .dot :: segment :: rest)
  | kinds => ([], kinds)

theorem length_segmentsOf_le (kinds : List TokenKind) : (segmentsOf kinds).2.length ≤ kinds.length := by
  fun_induction segmentsOf kinds with
  | case1 =>
    simp only [length_cons]
    omega
  | case2 => exact le_rfl
  | case3 => exact le_rfl

/-- The dotted paths of a token list, from left to right. -/
def lookupsOf : List TokenKind → List (List String)
  | [] => []
  | .identifier first :: rest => (first :: (segmentsOf rest).1) :: lookupsOf (segmentsOf rest).2
  | _ :: rest => lookupsOf rest
termination_by kinds => kinds.length
decreasing_by
  · have := length_segmentsOf_le rest
    simp only [List.length_cons]
    omega
  · simp

@[simp] theorem lookupsOf_nil : lookupsOf [] = [] := by rw [lookupsOf]

theorem lookupsOf_identifier (first : String) (rest : List TokenKind) : lookupsOf (.identifier first :: rest) =
      (first :: (segmentsOf rest).1) :: lookupsOf (segmentsOf rest).2 := by rw [lookupsOf]

theorem lookupsOf_skip {kind : TokenKind} (hkind : ∀ name, kind ≠ .identifier name) (rest : List TokenKind) :
    lookupsOf (kind :: rest) = lookupsOf rest := by
  rw [lookupsOf]
  exact fun first h => hkind first h

def kindsOf (tokens : List Token) : List TokenKind := tokens.map Token.kind

/-- The lookups of a tree are those of the tokens it was parsed from. -/
def Reads (parser : List Token → Parsed) : Prop :=
  ∀ tokens node rest, parser tokens = .ok (node, rest) →
    lookupsOf (kindsOf tokens) = node.lookups ++ lookupsOf (kindsOf rest)

variable {tokens : List Token}

theorem take_eq (h : (current tokens).kind ≠ .endOfInput) : tokens = current tokens :: (take tokens).2 := by
  cases tokens with
  | nil => exact absurd rfl h
  | cons token =>
    change token.kind ≠ .endOfInput at h
    simp [take, current, h]

theorem lookupsOf_take (hend : (current tokens).kind ≠ .endOfInput)
    (hname : ∀ name, (current tokens).kind ≠ .identifier name) :
    lookupsOf (kindsOf tokens) = lookupsOf (kindsOf (take tokens).2) := by
  conv_lhs => rw [take_eq hend]
  exact lookupsOf_skip hname _

variable {rest : List Token}

theorem parseSegments_eq_ok {finish finish' : Nat} {path : List String}
    (h : parseSegments finish tokens = .ok (path, finish', rest)) :
    segmentsOf (kindsOf tokens) = (path, kindsOf rest) := by
  fun_induction parseSegments finish tokens generalizing path finish' rest with
  | case1 => cases h
  | case2 _ _ hdot _ _ _ hname ih =>
    obtain ⟨⟨_, _, _⟩, hsegments, hreturn⟩ := bind_eq_ok.mp h
    cases hreturn
    simp only [kindsOf, map_cons, hdot] at ih ⊢
    rw [segmentsOf, hname]
    simp [ih hsegments]
  | case3 => cases h
  | case4 _ _ _ hdot =>
    cases h
    simp only [kindsOf, map_cons]
    rw [segmentsOf]
    intro _ _ hcons
    exact absurd (List.cons.inj hcons).1 hdot
  | case5 =>
    cases h
    rfl

/-- The value that a literal token stands for. -/
def literalOf : TokenKind → Option Value
  | .null => some .null
  | .boolean value => some (.boolean value)
  | .number number => some ⟨.number number, .empty⟩
  | .string value => some (.string value)
  | _ => none

/-- What the tokens before `rest` stand for. -/
inductive Derives : List Token → SyntaxNode → List Token → Prop
  | literal {kind : TokenKind} {value : Value} (hkind : literalOf kind = some value) (span : Span)
      (rest : List Token) : Derives (⟨kind, span⟩ :: rest) (.literal value span) rest
  | lookup {first : String} {span : Span} {tokens rest : List Token} {path : List String} {finish : Nat}
      (hsegments : parseSegments span.finish tokens = .ok (path, finish, rest)) :
      Derives (⟨.identifier first, span⟩ :: tokens) (.lookup (first :: path) ⟨span.start, finish⟩) rest
  | group {tokens rest : List Token} {node : SyntaxNode} (hnode : Derives tokens node rest)
      (hclose : (current rest).kind = .rightParenthesis) (span outer : Span) :
      Derives (⟨.leftParenthesis, span⟩ :: tokens) (node.withSpan outer) (take rest).2
  | unary {tokens rest : List Token} {operand : SyntaxNode} (hbang : (current tokens).kind = .bang)
      (hoperand : Derives (take tokens).2 operand rest) (span outer : Span) :
      Derives tokens (.unary .not span operand outer) rest
  | binary {tokens middle rest : List Token} {left right : SyntaxNode} (hleft : Derives tokens left middle)
      (hend : (current middle).kind ≠ .endOfInput) (hname : ∀ name, (current middle).kind ≠ .identifier name)
      (hright : Derives (take middle).2 right rest) (operator : BinaryOperator) (span outer : Span) :
      Derives tokens (.binary operator span left right outer) rest

/-- The parser returns only what its tokens stand for. -/
def Derived (parser : List Token → Parsed) : Prop :=
  ∀ tokens node rest, parser tokens = .ok (node, rest) → Derives tokens node rest

variable {operand : List Token → Parsed} {operators : TokenKind → Option BinaryOperator} {node : SyntaxNode}

section
variable (hoperand : Derived operand)
  (hoperators : ∀ kind, operators kind ≠ none → kind ≠ .endOfInput ∧ ∀ name, kind ≠ .identifier name)
include hoperand hoperators

theorem Derived.parseOperators {fuel : Nat} {left : SyntaxNode} {start : List Token} (hleft : Derives start left tokens)
    (h : parseOperators operand operators fuel left tokens = .ok (node, rest)) : Derives start node rest := by
  induction fuel generalizing left tokens with
  | zero =>
    cases h
    exact hleft
  | succ fuel ih =>
    unfold Expression.parseOperators at h
    split at h
    · cases h
      exact hleft
    · rename_i operator hoperator
      obtain ⟨⟨_, _⟩, hright, hloop⟩ := bind_eq_ok.mp h
      obtain ⟨hend, hname⟩ := hoperators _ (by rw [hoperator]; exact Option.some_ne_none _)
      exact ih (.binary hleft hend hname (hoperand _ _ _ hright) _ _ _) hloop

theorem Derived.parseLevel : Derived (parseLevel operators operand) := by
  intro _ _ _ h
  obtain ⟨⟨_, _⟩, hleft, hloop⟩ := bind_eq_ok.mp h
  exact hoperand.parseOperators hoperators (hoperand _ _ _ hleft) hloop

end

theorem Derived.parseOr {unary : List Token → Parsed} (hunary : Derived unary) : Derived (parseOr unary) := by
  have hcomparison : Derived (parseComparison unary) :=
    hunary.parseLevel fun kind => by cases kind <;> simp [comparisonOperator]
  have hequality : Derived (parseEquality unary) :=
    hcomparison.parseLevel fun kind => by cases kind <;> simp [equalityOperator]
  have hand : Derived (parseAnd unary) :=
    hequality.parseLevel fun kind => by cases kind <;> simp [andOperator]
  exact hand.parseLevel fun kind => by cases kind <;> simp [orOperator]

theorem derived_parsePrimary {nested : Span → List Token → Parsed}
    (hnested : ∀ span, Derived (nested span)) : Derived (parsePrimary nested) := by
  intro tokens _ _ h
  cases tokens with
  | nil => cases h
  | cons token tokens =>
    obtain ⟨kind, span⟩ := token
    cases kind with
    | null | boolean _ | number _ | string _ =>
      cases h
      exact .literal rfl _ _
    | identifier first =>
      change parseLookup first span tokens = _ at h
      simp only [parseLookup, bind_eq_ok, exists_unit, pure_eq_ok, Prod.exists] at h
      obtain ⟨_, _, after, hsegments, -, hreturn⟩ := h
      cases hreturn
      exact .lookup hsegments
    | leftParenthesis =>
      obtain ⟨⟨_, _⟩, hinner, hclose⟩ := bind_eq_ok.mp h
      simp only [bind_eq_ok, exists_unit, rejectIf_eq_ok, ne_eq, not_not] at hclose
      obtain ⟨hright, hreturn⟩ := hclose
      cases hreturn
      exact .group (hnested _ _ _ _ hinner) hright _ _
    | dot | rightParenthesis | bang | and | or | equal | notEqual | less | lessEqual | greater
    | greaterEqual | endOfInput => cases h

theorem derived_parseUnary (depth : Nat) : Derived (parseUnary depth) := by
  induction depth with
  | zero =>
    intro tokens node rest h
    unfold parseUnary at h
    split at h
    · cases h
    · exact derived_parsePrimary (fun _ _ _ _ hnested => by cases hnested) _ _ _ h
  | succ depth ih =>
    intro _ _ _ h
    unfold parseUnary at h
    split at h
    · rename_i hbang
      obtain ⟨⟨_, _⟩, hoperand, hreturn⟩ := bind_eq_ok.mp h
      cases hreturn
      exact .unary hbang (ih _ _ _ hoperand) _ _
    · exact derived_parsePrimary (fun _ => ih.parseOr) _ _ _ h

theorem Derived.reads (hparser : Derived operand) : Reads operand := by
  intro tokens _ _ h
  have hderives := hparser _ _ _ h
  clear h
  induction hderives with
  | @literal kind _ hkind =>
    have hname : ∀ name, kind ≠ .identifier name := by
      rintro name rfl
      cases hkind
    exact lookupsOf_skip hname _
  | @lookup first _ tokens _ _ _ hsegments =>
    change lookupsOf (.identifier first :: kindsOf tokens) = _
    rw [lookupsOf_identifier, parseSegments_eq_ok hsegments]
    rfl
  | group _ hclose _ _ ih =>
    have hskip := lookupsOf_take (by rw [hclose]; exact TokenKind.noConfusion)
      fun name => by rw [hclose]; exact TokenKind.noConfusion
    rw [lookups_withSpan, ← hskip, ← ih]
    exact lookupsOf_skip (fun _ => TokenKind.noConfusion) _
  | unary hbang _ _ _ ih =>
    rw [lookupsOf_take (by rw [hbang]; exact TokenKind.noConfusion)
      fun _ => by rw [hbang]; exact TokenKind.noConfusion, ih, lookups]
  | binary _ hend hname _ _ _ _ ihl ihr =>
    rw [ihl, lookupsOf_take hend hname, ihr, lookups, append_assoc]

theorem parseOr_of_parseTokens (h : parseTokens tokens = .ok node) :
    ∃ rest, parseOr (parseUnary maxParseDepth) tokens = .ok (node, rest) := by
  simp only [parseTokens, bind_eq_ok, exists_unit, Prod.exists] at h
  obtain ⟨-, _, rest, hparse, hend⟩ := h
  split at hend
  · cases hend
    exact ⟨rest, hparse⟩
  · split at hend <;> cases hend

theorem parseTokens_reads (h : parseTokens tokens = .ok node) : node.lookups <+: lookupsOf (kindsOf tokens) := by
  obtain ⟨_, hparse⟩ := parseOr_of_parseTokens h
  exact ⟨_, ((derived_parseUnary maxParseDepth).parseOr.reads _ _ _ hparse).symm⟩

end Runtrue.Expression

namespace Runtrue

open Fallible Expression

/-- A parsed, reusable workflow expression. -/
structure Expression where
  source : String
  root : SyntaxNode
deriving DecidableEq

namespace Expression

def parse (numbers : NumberText) (source : String) : Except ParseError Expression := do
  rejectIf (source.utf8ByteSize > maxExpressionBytes)
    ⟨s!"expression exceeds {maxExpressionBytes}-byte limit", ⟨maxExpressionBytes, source.utf8ByteSize⟩⟩
  let tokens ← tokenize numbers source.toList
  let root ← parseTokens tokens
  return ⟨source, root⟩

/-- The paths referenced, sorted and unique. -/
def contextReferences (expression : Expression) : List String :=
  (expression.root.collectReferences ∅).toList

def canonicalSource (numbers : NumberText) (expression : Expression) : String :=
  String.ofList (expression.root.writeCanonical numbers)

def evaluate (expression : Expression) (resolver : Resolver) : Except EvalError Value :=
  evaluateNode resolver expression.root 0

def evaluateBool (expression : Expression) (resolver : Resolver) : Except EvalError Bool := do
  let value ← expression.evaluate resolver
  okOr value.asBool ⟨.expectedBoolean "condition" value.valueType, expression.root.span⟩

end Expression

end Runtrue
