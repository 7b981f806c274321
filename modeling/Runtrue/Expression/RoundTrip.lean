import Runtrue.Base.Collect
import Runtrue.Expression.Printing

/-!
# Reading the canonical text back

The canonical text of a parsed tree is lexed into the tokens of the tree with a pair of parentheses for every
operator (`canonicalTokens`), and these are parsed into the same tree, exactly if the canonical text is within
the three limits of the parser (`FitsLimits`): it may be longer and more deeply nested than the text that was
parsed. A negation takes one level of nesting in `!!a` and two in `(!(!a))`, and a chain `a && a && …` is
nested once for every operator.
-/

namespace Runtrue.Expression

open Fallible List
open String (ofList)

variable {numbers : NumberText} {node : SyntaxNode}

/-! ### Trees and their canonical tokens -/

namespace SyntaxNode

def eraseSpans : SyntaxNode → SyntaxNode
  | .literal value _ => .literal value ⟨0, 0⟩
  | .lookup path _ => .lookup path ⟨0, 0⟩
  | .unary operator _ operand _ => .unary operator ⟨0, 0⟩ operand.eraseSpans ⟨0, 0⟩
  | .binary operator _ left right _ => .binary operator ⟨0, 0⟩ left.eraseSpans right.eraseSpans ⟨0, 0⟩

@[simp] theorem eraseSpans_withSpan (node : SyntaxNode) (span : Span) :
    (node.withSpan span).eraseSpans = node.eraseSpans := by
  cases node <;> rfl

theorem writeCanonical_eraseSpans (node : SyntaxNode) :
    node.eraseSpans.writeCanonical numbers = node.writeCanonical numbers := by
  unfold writeCanonical
  induction node with
  | literal => rfl
  | lookup => rfl
  | unary operator _ _ _ ih =>
    cases operator
    rw [eraseSpans, writeWith, writeWith, ih]
  | binary _ _ _ _ _ ihl ihr => rw [eraseSpans, writeWith, writeWith, ihl, ihr]

/-- The levels of nesting in the canonical text: a negation takes one for its parentheses and one for itself. -/
def canonicalNesting : SyntaxNode → Nat
  | .literal _ _ | .lookup _ _ => 0
  | .unary _ _ operand _ => operand.canonicalNesting + 2
  | .binary _ _ left right _ => max left.canonicalNesting right.canonicalNesting + 1

/-- The literals of a tree, from left to right. -/
def literals : SyntaxNode → List Value
  | .literal value _ => [value]
  | .lookup _ _ => []
  | .unary _ _ operand _ => operand.literals
  | .binary _ _ left right _ => left.literals ++ right.literals

@[simp] theorem literals_withSpan (node : SyntaxNode) (span : Span) :
    (node.withSpan span).literals = node.literals := by
  cases node <;> rfl

end SyntaxNode

def literalToken : ValueKind → TokenKind
  | .null => .null
  | .boolean value => .boolean value
  | .number number => .number number
  | .string value => .string value

/-- The tokens of the canonical text. -/
def SyntaxNode.canonicalTokens : SyntaxNode → List TokenKind
  | .literal value _ => [literalToken value.kind]
  | .lookup path _ => pathTokens path
  | .unary _ _ operand _ => .leftParenthesis :: (.bang :: operand.canonicalTokens) ++ [.rightParenthesis]
  | .binary operator _ left right _ =>
    .leftParenthesis :: (left.canonicalTokens ++ operator.token :: right.canonicalTokens) ++ [.rightParenthesis]

/-- The bytes of the canonical text: three more for a negation, and four more for the spaces and the
parentheses of an operator. -/
def SyntaxNode.canonicalBytes (numbers : NumberText) : SyntaxNode → Nat
  | .literal value _ => (String.ofList (writeCanonicalLiteral numbers value.kind)).utf8ByteSize
  | .lookup path _ => (joinPath path).utf8ByteSize
  | .unary _ _ operand _ => operand.canonicalBytes numbers + 3
  | .binary operator _ left right _ =>
    left.canonicalBytes numbers + operator.text.utf8ByteSize + right.canonicalBytes numbers + 4

theorem SyntaxNode.utf8ByteSize_writeCanonical (node : SyntaxNode) :
    (ofList (node.writeCanonical numbers)).utf8ByteSize = node.canonicalBytes numbers := by
  have happend : ∀ text text' : List Char, (ofList (text ++ text')).utf8ByteSize =
      (ofList text).utf8ByteSize + (ofList text').utf8ByteSize := by
    intro text _
    rw [String.ofList_append, String.utf8ByteSize_append]
  unfold writeCanonical
  induction node with
  | literal => rfl
  | lookup =>
    rw [writeWith, String.ofList_toList]
    rfl
  | unary operator _ _ _ ih =>
    cases operator
    have hopen : (ofList "(!".toList).utf8ByteSize = 2 := by decide
    have hclose : (ofList [')']).utf8ByteSize = 1 := by decide
    rw [writeWith, happend, happend, ih, hopen, hclose, canonicalBytes]
    omega
  | binary _ _ _ _ _ ihl ihr =>
    have hmark : ∀ {c : Char} (text : List Char), c.utf8Size = 1 →
        (ofList (c :: text)).utf8ByteSize = 1 + (ofList text).utf8ByteSize := by
      intro c _ hc
      rw [← hc]
      simp
    have hclose : (ofList [')']).utf8ByteSize = 1 := by decide
    rw [writeWith, cons_append, cons_append, cons_append, hmark _ (by decide), happend, happend,
      happend, hmark _ (by decide), hmark _ (by decide), ihl, ihr, String.ofList_toList, hclose, canonicalBytes]
    omega

/-- The canonical text of a tree is within the limits of the parser. -/
structure SyntaxNode.FitsLimits (numbers : NumberText) (node : SyntaxNode) : Prop where
  nesting : node.canonicalNesting ≤ maxParseDepth
  tokens : node.canonicalTokens.length ≤ maxTokens
  bytes : node.canonicalBytes numbers ≤ maxExpressionBytes

/-! ### Lexing the canonical text -/

variable {text rest : List Char} {kinds : List TokenKind} {kind : TokenKind} {operator : BinaryOperator}
  {l r : SyntaxNode} {operatorSpan span : Span}

/-- Doubles in range are printed as numerals and read back. -/
structure NumberText.RoundTrips (numbers : NumberText) : Prop where
  zero : ∃ x : F64, numbers.parse ['0'] = some x ∧ x.isFinite = true ∧ x.toRat = 0
  write : ∀ x : F64, x.isFinite = true → x.toRat ≠ 0 → |x.toRat| ≤ maxExactExpressionNumber →
    IsNumeral (numbers.write x.toRat) ∧
      ∃ y : F64, numbers.parse (numbers.write x.toRat) = some y ∧ y.isFinite = true ∧ y.toRat = x.toRat

theorem isToken_number (hnumbers : numbers.RoundTrips) {number : ExactNumber} (hdouble : number.IsDouble)
    (hrest : Delimited rest) :
    IsToken numbers (writeCanonicalLiteral numbers (.number number)) (.number number) rest := by
  obtain ⟨_, hrange⟩ := number
  obtain ⟨x, hfinite, hvalue⟩ := hdouble
  dsimp only at hvalue
  subst hvalue
  rw [writeCanonicalLiteral]
  split
  · rename_i hzero
    obtain ⟨y, hparse, hy, hyzero⟩ := hnumbers.zero
    have heq : y.toRat = x.toRat := hyzero.trans hzero.symm
    have htoken := isToken_numeral isNumeral_zero hrest hparse hy (by rw [heq]; exact hrange)
    simp only [heq] at htoken
    exact htoken
  · rename_i hzero
    obtain ⟨hnumeral, _, hparse, hy, heq⟩ := hnumbers.write x hfinite hzero hrange
    have htoken := isToken_numeral hnumeral hrest hparse hy (by rw [heq]; exact hrange)
    simp only [heq] at htoken
    exact htoken

/-- A literal as the parser makes it: it has no provenance, and a number is a double. -/
structure IsLiteral (value : Value) : Prop where
  provenance : value.provenance = .empty
  number : ∀ number, value.kind = .number number → number.IsDouble

theorem isToken_literal (hnumbers : numbers.RoundTrips) {value : Value} (hvalue : IsLiteral value)
    (hrest : Delimited rest) :
    IsToken numbers (writeCanonicalLiteral numbers value.kind) (literalToken value.kind) rest := by
  have hword : ∀ c ∈ rest.head?, isIdentifierContinue c = false := hrest.not_of (by decide) (by decide)
  cases hkind : value.kind with
  | null => exact isToken_word (isWord_keyword (.inl rfl)) hword
  | boolean value =>
    cases value with
    | false => exact isToken_word (isWord_keyword (.inr (.inr rfl))) hword
    | true => exact isToken_word (isWord_keyword (.inr (.inl rfl))) hword
  | number number => exact isToken_number hnumbers (hvalue.number number hkind) hrest
  | string value => exact isToken_string decodesTo_escapeChar value rest

structure SyntaxNode.IsParsed (node : SyntaxNode) : Prop where
  lookups : ∀ path ∈ node.lookups, IsPath path
  literals : ∀ value ∈ node.literals, IsLiteral value

namespace SyntaxNode

section
variable (h : (SyntaxNode.binary operator operatorSpan l r span).IsParsed)
include h

theorem IsParsed.left : l.IsParsed :=
  ⟨fun path hpath => h.lookups path (mem_append_left _ hpath),
    fun value hvalue => h.literals value (mem_append_left _ hvalue)⟩

theorem IsParsed.right : r.IsParsed :=
  ⟨fun path hpath => h.lookups path (mem_append_right _ hpath),
    fun value hvalue => h.literals value (mem_append_right _ hvalue)⟩

end

theorem IsParsed.operand {operator : UnaryOperator} (h : (SyntaxNode.unary operator operatorSpan l span).IsParsed) :
    l.IsParsed :=
  ⟨h.lookups, h.literals⟩

end SyntaxNode

theorem IsToken.start (h : IsToken numbers text kind rest)
    (hkind : kind ≠ .equal) : ∃ c cs, text = c :: cs ∧ c ≠ '=' := by
  obtain ⟨c, cs, rfl, -, hscan⟩ := h
  refine ⟨c, cs, rfl, ?_⟩
  rintro rfl
  obtain ⟨_, hscan⟩ := hscan 0
  change scanOperator ⟨0, '=' :: cs ++ rest⟩ '=' .equal _ = _ at hscan
  unfold scanOperator at hscan
  split at hscan
  · cases hscan
    exact hkind rfl
  · cases hscan

namespace SyntaxNode

theorem writeCanonical_start (hnumbers : numbers.RoundTrips) (hnode : node.IsParsed) :
    ∃ c cs, node.writeCanonical numbers = c :: cs ∧ c ≠ '=' := by
  cases node with
  | literal value =>
    have hvalue : IsLiteral value := hnode.literals value (mem_singleton_self value)
    refine (isToken_literal hnumbers hvalue delimited_nil).start ?_
    cases value.kind <;> exact TokenKind.noConfusion
  | lookup path =>
    have hpath : IsPath path := hnode.lookups path (mem_singleton_self path)
    cases path with
    | nil => exact absurd hpath id
    | cons _ rest =>
      obtain ⟨c, cs, hfirst, hc⟩ := hpath.1.start
      refine ⟨c, cs ++ segmentText rest, ?_, hc⟩
      rw [writeCanonical, writeWith, toList_joinPath, hfirst, cons_append]
  | unary operator =>
    cases operator
    exact ⟨'(', _, rfl, by decide⟩
  | binary => exact ⟨'(', _, rfl, by decide⟩

theorem spells (hnumbers : numbers.RoundTrips) (hnode : node.IsParsed) (hrest : Delimited rest) :
    Spells (IsToken numbers) (node.writeCanonical numbers) node.canonicalTokens rest := by
  induction node generalizing rest with
  | literal value =>
    exact .single (isToken_literal hnumbers (hnode.literals value (mem_singleton_self value)) hrest)
  | lookup path =>
    exact spells_path (hnode.lookups path (mem_singleton_self path)) (hrest.not_of (by decide) (by decide))
  | unary operator _ _ _ ih =>
    cases operator
    have hoperand := ih hnode.operand (delimited_close rest)
    exact (hoperand.not id (writeCanonical_start hnumbers hnode.operand)).parenthesized id
  | binary operator _ _ right _ ihl ihr =>
    have hright := ihr hnode.right (delimited_close rest)
    have hleft := ihl hnode.left
      (delimited_space (operator.text.toList ++ ' ' :: right.writeCanonical numbers ++ ')' :: rest))
    have hspells := (hleft.operator id hright).parenthesized id
    simp only [writeCanonical, writeWith, canonicalTokens, append_assoc, cons_append] at hspells ⊢
    exact hspells

end SyntaxNode

theorem Spells.tokenizeLoop_total (h : Spells (IsToken numbers) text kinds []) (fuel position : Nat)
    (tokens : List Token) (hfuel : text.length ≤ fuel) (htokens : tokens.length + kinds.length ≤ maxTokens) :
    ∃ result, tokenizeLoop numbers fuel tokens ⟨position, text⟩ = .ok result := by
  generalize hrest : [] = rest at h
  induction h generalizing fuel tokens position with
  | nil => cases fuel <;> exact ⟨_, rfl⟩
  | space _ ih =>
    cases fuel with
    | zero => simp at hfuel
    | succ fuel =>
      rw [tokenizeLoop_space]
      exact ih fuel _ tokens (by simpa using hfuel) htokens hrest
  | @token _ more _ kind _ htoken _ ih =>
    subst hrest
    obtain ⟨_, _, rfl, hc, hscan⟩ := htoken
    simp only [append_nil, cons_append, length_cons, length_append] at hscan hfuel htokens ⊢
    cases fuel with
    | zero => simp at hfuel
    | succ fuel =>
      obtain ⟨next, hnext⟩ := hscan position
      have hcount : tokens.length < maxTokens := by omega
      simp only [tokenizeLoop, hc, Bool.false_eq_true, ↓reduceIte, ge_iff_le, not_le.mpr hcount, rejectIf, bind,
        Except.bind, hnext]
      refine ih fuel next (tokens ++ [⟨kind, ⟨position, next⟩⟩]) (by omega) ?_ rfl
      rw [length_append, length_singleton]
      omega

theorem Spells.tokenize (h : Spells (IsToken numbers) text kinds []) (hkinds : kinds.length ≤ maxTokens) :
    ∃ tokens, tokenize numbers text = .ok tokens ∧ kindsOf tokens = kinds ++ [.endOfInput] := by
  obtain ⟨tokens, htokens⟩ := h.tokenizeLoop_total text.length 0 [] le_rfl (by simpa using hkinds)
  exact ⟨tokens, htokens, (h.mono IsToken.mayScan).kindsOf_tokenize htokens⟩

theorem length_tokenizeLoop {fuel : Nat} {tokens result : List Token} {cursor : Cursor}
    (htokens : tokens.length ≤ maxTokens) (h : tokenizeLoop numbers fuel tokens cursor = .ok result) :
    result.length ≤ maxTokens + 1 := by
  induction fuel generalizing tokens cursor with
  | zero =>
    cases h
    simpa using htokens
  | succ _ ih =>
    rw [tokenizeLoop] at h
    split at h
    · cases h
      simpa using htokens
    split at h
    · exact ih htokens h
    · simp only [bind_eq_ok, exists_unit, rejectIf_eq_ok, Prod.exists] at h
      obtain ⟨hcount, _, _, -, h⟩ := h
      refine ih ?_ h
      rw [length_append, length_singleton]
      omega

theorem Spells.length_le {tokens : List Token} (h : Spells (IsToken numbers) text kinds [])
    (htokens : Expression.tokenize numbers text = .ok tokens) : kinds.length ≤ maxTokens := by
  have hkinds := congrArg length ((h.mono IsToken.mayScan).kindsOf_tokenize htokens)
  have hlength := length_tokenizeLoop (Nat.zero_le _) htokens
  rw [kindsOf, length_map, length_append, length_singleton] at hkinds
  omega

/-! ### Parsing the canonical tokens -/

variable {tokens front rest middle : List Token} {token : Token} {operator : BinaryOperator} {path : List String}
  {depth : Nat} {value : Value}

theorem take_cons (rest : List Token) (h : token.kind ≠ .endOfInput) : take (token :: rest) = (token, rest) := by
  simp [take, current, h]

section Levels

variable {operand : List Token → Parsed} {operators : TokenKind → Option BinaryOperator}

theorem parseOperators_none (h : operators (current tokens).kind = none) (fuel : Nat)
    (left : SyntaxNode) : parseOperators operand operators fuel left tokens = .ok (left, tokens) := by
  cases fuel with
  | zero => rfl
  | succ => rw [parseOperators, h]

theorem parseLevel_none (hoperand : operand tokens = .ok (node, rest)) (h : operators (current rest).kind = none) :
    parseLevel operators operand tokens = .ok (node, rest) := by
  rw [parseLevel, hoperand]
  exact parseOperators_none h _ _

theorem parseLevel_some {left : SyntaxNode} (hleft : operand tokens = .ok (left, token :: middle))
    (htoken : token.kind = operator.token) (hoperator : operators operator.token = some operator) :
    parseLevel operators operand tokens = operand middle >>= fun parsed =>
      parseOperators operand operators middle.length
        (.binary operator token.span left parsed.1 (left.span.through parsed.1.span)) parsed.2 := by
  have htake : take (token :: middle) = (token, middle) := by
    refine take_cons middle ?_
    rw [htoken]
    cases operator <;> exact TokenKind.noConfusion
  have hcurrent : operators (current (token :: middle)).kind = some operator := by
    rw [← hoperator, ← htoken]
    rfl
  have hstep : parseOperators operand operators (middle.length + 1) left (token :: middle) =
      operand middle >>= fun parsed => parseOperators operand operators middle.length
        (.binary operator token.span left parsed.1 (left.span.through parsed.1.span)) parsed.2 := by
    rw [parseOperators, hcurrent]
    simp only [htake]
  rw [parseLevel, hleft]
  exact hstep

theorem operand_of_parseLevel {result : SyntaxNode × List Token}
    (h : parseLevel operators operand tokens = .ok result) :
    ∃ first, operand tokens = .ok first := by
  obtain ⟨first, hfirst, -⟩ := bind_eq_ok.mp h
  exact ⟨first, hfirst⟩

end Levels

section Binary

variable {unary : List Token → Parsed}

/-- A closing parenthesis or the end of input. -/
def Closes (rest : List Token) : Prop :=
  (current rest).kind = .rightParenthesis ∨ (current rest).kind = .endOfInput

theorem Closes.none (h : Closes rest) :
    comparisonOperator (current rest).kind = none ∧ equalityOperator (current rest).kind = none ∧
      andOperator (current rest).kind = none ∧ orOperator (current rest).kind = none := by
  rcases h with h | h <;> rw [h] <;> exact ⟨rfl, rfl, rfl, rfl⟩

def levelOf : BinaryOperator → TokenKind → Option BinaryOperator
  | .or => orOperator
  | .and => andOperator
  | .equal | .notEqual => equalityOperator
  | .less | .lessEqual | .greater | .greaterEqual => comparisonOperator

def operandOf : BinaryOperator → (List Token → Parsed) → List Token → Parsed
  | .or => parseAnd
  | .and => parseEquality
  | .equal | .notEqual => parseComparison
  | .less | .lessEqual | .greater | .greaterEqual => id

theorem levelOf_token (operator : BinaryOperator) : levelOf operator operator.token = some operator := by
  cases operator <;> rfl

theorem Closes.levelOf (h : Closes rest) (operator : BinaryOperator) :
    levelOf operator (current rest).kind = .none := by
  obtain ⟨_, _, _, _⟩ := h.none
  cases operator <;> assumption

/-- The levels below that of the operator take an operand as it is. -/
theorem operandOf_eq (operator : BinaryOperator)
    (hnode : unary tokens = .ok (node, rest)) (hrest : (current rest).kind = operator.token ∨ Closes rest) :
    operandOf operator unary tokens = .ok (node, rest) := by
  have hnone : (comparisonOperator operator.token = none → comparisonOperator (current rest).kind = none) ∧
      (equalityOperator operator.token = none → equalityOperator (current rest).kind = none) ∧
      (andOperator operator.token = none → andOperator (current rest).kind = none) := by
    rcases hrest with h | h
    · rw [h]
      exact ⟨id, id, id⟩
    · obtain ⟨hcomparison, hequality, hand, -⟩ := h.none
      exact ⟨fun _ => hcomparison, fun _ => hequality, fun _ => hand⟩
  obtain ⟨hcomparison, hequality, hand⟩ := hnone
  cases operator with
  | less | lessEqual | greater | greaterEqual => exact hnode
  | equal | notEqual => exact parseLevel_none hnode (hcomparison rfl)
  | and => exact parseLevel_none (parseLevel_none hnode (hcomparison rfl)) (hequality rfl)
  | or => exact parseLevel_none (parseLevel_none (parseLevel_none hnode (hcomparison rfl)) (hequality rfl)) (hand rfl)

/-- The levels above that of the operator take what it makes as it is. -/
theorem parseOr_eq (operator : BinaryOperator)
    (hlevel : parseLevel (levelOf operator) (operandOf operator unary) tokens = .ok (node, rest))
    (hrest : Closes rest) : parseOr unary tokens = .ok (node, rest) := by
  obtain ⟨-, hequality, hand, hor⟩ := hrest.none
  cases operator with
  | less | lessEqual | greater | greaterEqual =>
    exact parseLevel_none (parseLevel_none (parseLevel_none hlevel hequality) hand) hor
  | equal | notEqual => exact parseLevel_none (parseLevel_none hlevel hand) hor
  | and => exact parseLevel_none hlevel hor
  | or => exact hlevel

theorem parseOr_operand (hnode : unary tokens = .ok (node, rest))
    (hrest : Closes rest) : parseOr unary tokens = .ok (node, rest) :=
  parseOr_eq .less (parseLevel_none hnode (hrest.levelOf .less)) hrest

theorem parseOr_binary {left right : SyntaxNode} (hleft : unary tokens = .ok (left, token :: middle))
    (htoken : token.kind = operator.token) (hright : unary middle = .ok (right, rest)) (hrest : Closes rest) :
    parseOr unary tokens = .ok (.binary operator token.span left right (left.span.through right.span), rest) := by
  refine parseOr_eq operator ?_ hrest
  rw [parseLevel_some (operandOf_eq operator hleft (.inl htoken)) htoken (levelOf_token operator),
    operandOf_eq operator hright (.inr hrest)]
  exact parseOperators_none (hrest.levelOf operator) _ _

variable {result : SyntaxNode × List Token}

theorem level_of_parseOr (operator : BinaryOperator) (h : parseOr unary tokens = .ok result) :
    ∃ first, parseLevel (levelOf operator) (operandOf operator unary) tokens = .ok first := by
  cases operator with
  | or => exact ⟨_, h⟩
  | and => exact operand_of_parseLevel h
  | equal | notEqual =>
    obtain ⟨_, hand⟩ := operand_of_parseLevel h
    exact operand_of_parseLevel hand
  | less | lessEqual | greater | greaterEqual =>
    obtain ⟨_, hand⟩ := operand_of_parseLevel h
    obtain ⟨_, hequality⟩ := operand_of_parseLevel hand
    exact operand_of_parseLevel hequality

theorem unary_of_parseOr (h : parseOr unary tokens = .ok result) : ∃ first, unary tokens = .ok first := by
  obtain ⟨_, hlevel⟩ := level_of_parseOr .less h
  exact operand_of_parseLevel hlevel

theorem unary_of_operandOf (operator : BinaryOperator) (h : operandOf operator unary tokens = .ok result) :
    ∃ first, unary tokens = .ok first := by
  cases operator with
  | less | lessEqual | greater | greaterEqual => exact ⟨_, h⟩
  | equal | notEqual => exact operand_of_parseLevel h
  | and =>
    obtain ⟨_, hcomparison⟩ := operand_of_parseLevel h
    exact operand_of_parseLevel hcomparison
  | or =>
    obtain ⟨_, hequality⟩ := operand_of_parseLevel h
    obtain ⟨_, hcomparison⟩ := operand_of_parseLevel hequality
    exact operand_of_parseLevel hcomparison

end Binary

theorem parseUnary_leaf {result : Parsed} (hbang : (current tokens).kind ≠ .bang)
    (h : ∀ nested, parsePrimary nested tokens = result) (depth : Nat) : parseUnary depth tokens = result := by
  cases depth with
  | zero =>
    rw [parseUnary, if_neg hbang]
    exact h _
  | succ =>
    rw [parseUnary, if_neg hbang]
    exact h _

section
variable {inner : List Token}

theorem parseUnary_zero (h : token.kind = .bang ∨ token.kind = .leftParenthesis)
    {result : SyntaxNode × List Token} : parseUnary 0 (token :: inner) ≠ .ok result := by
  obtain ⟨kind, _⟩ := token
  intro hok
  rcases h with rfl | rfl <;> cases hok

theorem parseUnary_not (hbang : token.kind = .bang) : parseUnary (depth + 1) (token :: inner) =
    parseUnary depth inner >>= fun parsed =>
      .ok (.unary .not token.span parsed.1 (token.span.through parsed.1.span), parsed.2) := by
  obtain ⟨kind, _⟩ := token
  subst hbang
  rfl

theorem parseUnary_parenthesized (hopening : token.kind = .leftParenthesis) :
    parseUnary (depth + 1) (token :: inner) = parseOr (parseUnary depth) inner >>= fun parsed => do
      rejectIf ((current parsed.2).kind ≠ .rightParenthesis) ⟨"expected `)`", (current parsed.2).span⟩
      return (parsed.1.withSpan (token.span.through (take parsed.2).1.span), (take parsed.2).2) := by
  obtain ⟨kind, _⟩ := token
  subst hopening
  rfl

end

theorem parseSegments_canonical
    (hfront : kindsOf front = segmentTokens path) (hrest : (current rest).kind ≠ .dot) (finish : Nat) :
    ∃ finish', parseSegments finish (front ++ rest) = .ok (path, finish', rest) := by
  induction path generalizing front finish with
  | nil =>
    obtain rfl : front = [] := map_eq_nil_iff.mp hfront
    cases rest with
    | nil => exact ⟨finish, rfl⟩
    | cons =>
      refine ⟨finish, ?_⟩
      rw [nil_append, parseSegments.eq_def]
      exact if_neg hrest
  | cons segment _ ih =>
    obtain ⟨_, front, rfl, hdot, hfront⟩ := map_eq_cons_iff.mp hfront
    obtain ⟨name, _, rfl, hname, hfront⟩ := map_eq_cons_iff.mp hfront
    obtain ⟨finish', hsegments⟩ := ih hfront name.span.finish
    refine ⟨finish', ?_⟩
    have hsegment : segmentName name.kind = some segment := by
      rw [hname]
      exact segmentName_keywordOrIdentifier segment
    rw [cons_append, cons_append, parseSegments.eq_def]
    simp only [hdot, ↓reduceIte, hsegment, hsegments, bind, Except.bind]
    rfl

/-- What may stand after a part of a canonical text. -/
def EndsOperand (rest : List Token) : Prop :=
  (current rest).kind ≠ .dot ∧ (current rest).kind ≠ .leftParenthesis

theorem Closes.endsOperand (h : Closes rest) : EndsOperand rest := by
  unfold EndsOperand
  rcases h with h | h <;> rw [h] <;> exact ⟨TokenKind.noConfusion, TokenKind.noConfusion⟩

theorem endsOperand_operator (h : token.kind = operator.token) (rest : List Token) : EndsOperand (token :: rest) := by
  change token.kind ≠ .dot ∧ token.kind ≠ .leftParenthesis
  rw [h]
  cases operator <;> exact ⟨TokenKind.noConfusion, TokenKind.noConfusion⟩

theorem parseUnary_lookup (hpath : path ≠ [])
    (hfront : kindsOf front = pathTokens path) (hrest : EndsOperand rest) (depth : Nat) :
    ∃ span, parseUnary depth (front ++ rest) = .ok (.lookup path span, rest) := by
  cases path with
  | nil => exact absurd rfl hpath
  | cons =>
    obtain ⟨token, front, rfl, htoken, hfront⟩ := map_eq_cons_iff.mp hfront
    obtain ⟨finish, hsegments⟩ := parseSegments_canonical hfront hrest.1 token.span.finish
    refine ⟨⟨token.span.start, finish⟩, parseUnary_leaf ?_ (fun _ => ?_) depth⟩
    · change token.kind ≠ .bang
      rw [htoken]
      exact TokenKind.noConfusion
    · have htake : take (token :: front ++ rest) = (token, front ++ rest) :=
        take_cons _ (by rw [htoken]; exact TokenKind.noConfusion)
      rw [parsePrimary, htake]
      simp only [htoken, parseLookup, hsegments, rejectIf, hrest.2, bind, Except.bind, ↓reduceIte]
      rfl

theorem parseUnary_literal (hvalue : value.provenance = .empty)
    (htoken : token.kind = literalToken value.kind) (rest : List Token) (depth : Nat) :
    parseUnary depth (token :: rest) = .ok (.literal value token.span, rest) := by
  obtain ⟨kind, _⟩ := value
  dsimp only at hvalue htoken
  subst hvalue
  obtain ⟨_, _⟩ := token
  dsimp only at htoken
  subst htoken
  refine parseUnary_leaf ?_ (fun _ => ?_) depth
  · cases kind <;> exact TokenKind.noConfusion
  · cases kind <;> rfl

theorem kindsOf_parenthesized {kinds : List TokenKind}
    (h : kindsOf front = .leftParenthesis :: kinds ++ [.rightParenthesis]) :
    ∃ opening inner closing, front = opening :: (inner ++ [closing]) ∧ opening.kind = .leftParenthesis ∧
      kindsOf inner = kinds ∧ closing.kind = .rightParenthesis := by
  obtain ⟨opening, _, rfl, hopening, hfront⟩ := map_eq_cons_iff.mp h
  obtain ⟨inner, _, rfl, hinner, hlast⟩ := map_eq_append_iff.mp hfront
  obtain ⟨closing, nothing, rfl, hclosing, hnil⟩ := map_eq_cons_iff.mp hlast
  obtain rfl : nothing = [] := map_eq_nil_iff.mp hnil
  exact ⟨opening, inner, closing, rfl, hopening, hinner, hclosing⟩

theorem close_eq_ok {closing : Token} (h : closing.kind = .rightParenthesis) (node : SyntaxNode) (opening : Span) :
    (do
      rejectIf ((current (closing :: rest)).kind ≠ .rightParenthesis)
        ⟨"expected `)`", (current (closing :: rest)).span⟩
      return (node.withSpan (opening.through (take (closing :: rest)).1.span), (take (closing :: rest)).2)) =
    (.ok (node.withSpan (opening.through closing.span), rest) : Parsed) := by
  obtain ⟨kind, _⟩ := closing
  subst h
  rfl

/-- **The canonical tokens of a tree are parsed into the tree**, exactly if there are enough levels of nesting. -/
theorem parseUnary_canonical (hnode : node.IsParsed)
    (hfront : kindsOf front = node.canonicalTokens) (hrest : EndsOperand rest) :
    (node.canonicalNesting ≤ depth →
      ∃ node', parseUnary depth (front ++ rest) = .ok (node', rest) ∧ node'.eraseSpans = node.eraseSpans) ∧
    ∀ result, parseUnary depth (front ++ rest) = .ok result → node.canonicalNesting ≤ depth := by
  induction node generalizing front rest depth with
  | literal value =>
    obtain ⟨token, front, rfl, htoken, hnil⟩ := map_eq_cons_iff.mp hfront
    obtain rfl : front = [] := map_eq_nil_iff.mp hnil
    have hvalue := (hnode.literals value (mem_singleton_self value)).provenance
    exact ⟨fun _ => ⟨_, parseUnary_literal hvalue htoken rest depth, rfl⟩, fun _ _ => Nat.zero_le _⟩
  | lookup path =>
    have hpath : path ≠ [] := by
      rintro rfl
      exact hnode.lookups [] (mem_singleton_self _)
    obtain ⟨_, hlookup⟩ := parseUnary_lookup hpath hfront hrest depth
    exact ⟨fun _ => ⟨_, hlookup, rfl⟩, fun _ _ => Nat.zero_le _⟩
  | unary operator _ _ _ ih =>
    cases operator
    obtain ⟨opening, _, closing, rfl, hopening, hnegated, hclosing⟩ := kindsOf_parenthesized hfront
    obtain ⟨bang, inner, rfl, hbang, hinner⟩ := map_eq_cons_iff.mp hnegated
    have hcloses : Closes (closing :: rest) := .inl hclosing
    have happend : opening :: (bang :: inner ++ [closing]) ++ rest =
        opening :: bang :: (inner ++ closing :: rest) := by simp
    rw [happend, SyntaxNode.canonicalNesting]
    -- one level for the parenthesis and one for the negation
    match depth with
    | 0 => exact ⟨fun h => absurd h (by omega), fun _ h => absurd h (parseUnary_zero (.inr hopening))⟩
    | 1 =>
      refine ⟨fun h => absurd h (by omega), fun _ h => ?_⟩
      obtain ⟨_, hor, -⟩ := bind_eq_ok.mp ((parseUnary_parenthesized hopening).symm.trans h)
      obtain ⟨_, hunary⟩ := unary_of_parseOr hor
      exact absurd hunary (parseUnary_zero (.inl hbang))
    | depth + 2 =>
      obtain ⟨hparses, hlevels⟩ := @ih inner (closing :: rest) depth hnode.operand hinner hcloses.endsOperand
      refine ⟨fun hdepth => ?_, fun _ h => ?_⟩
      · obtain ⟨node', hoperand, hsame⟩ := hparses (by omega)
        have hnot : parseUnary (depth + 1) (bang :: (inner ++ closing :: rest)) = _ :=
          (parseUnary_not hbang).trans (by rw [hoperand])
        rw [parseUnary_parenthesized hopening, parseOr_operand hnot hcloses]
        exact ⟨_, close_eq_ok hclosing _ _, by simp [SyntaxNode.eraseSpans, hsame]⟩
      · obtain ⟨_, hor, -⟩ := bind_eq_ok.mp ((parseUnary_parenthesized hopening).symm.trans h)
        obtain ⟨_, hunary⟩ := unary_of_parseOr hor
        obtain ⟨_, hoperand, -⟩ := bind_eq_ok.mp ((parseUnary_not hbang).symm.trans hunary)
        have hle := hlevels _ hoperand
        omega
  | binary operator _ _ _ _ ihl ihr =>
    obtain ⟨opening, _, closing, rfl, hopening, hboth, hclosing⟩ := kindsOf_parenthesized hfront
    obtain ⟨first, second, rfl, hfirst, hsecond⟩ := map_eq_append_iff.mp hboth
    obtain ⟨token, second, rfl, htoken, hsecond⟩ := map_eq_cons_iff.mp hsecond
    have hcloses : Closes (closing :: rest) := .inl hclosing
    have happend : opening :: (first ++ token :: second ++ [closing]) ++ rest =
        opening :: (first ++ token :: (second ++ closing :: rest)) := by simp
    rw [happend, SyntaxNode.canonicalNesting]
    cases depth with
    | zero => exact ⟨fun h => absurd h (by omega), fun _ h => absurd h (parseUnary_zero (.inr hopening))⟩
    | succ depth =>
      obtain ⟨hleft, hlevels⟩ := @ihl first (token :: (second ++ closing :: rest)) depth hnode.left hfirst
        (endsOperand_operator htoken _)
      obtain ⟨hright, hlevels'⟩ := @ihr second (closing :: rest) depth hnode.right hsecond hcloses.endsOperand
      refine ⟨fun hdepth => ?_, fun _ h => ?_⟩
      · obtain ⟨_, hleft, hsameLeft⟩ := hleft (by omega)
        obtain ⟨_, hright, hsameRight⟩ := hright (by omega)
        rw [parseUnary_parenthesized hopening, parseOr_binary hleft htoken hright hcloses]
        exact ⟨_, close_eq_ok hclosing _ _, by simp [SyntaxNode.eraseSpans, hsameLeft, hsameRight]⟩
      · obtain ⟨_, hor, -⟩ := bind_eq_ok.mp ((parseUnary_parenthesized hopening).symm.trans h)
        obtain ⟨_, hlevel⟩ := level_of_parseOr operator hor
        obtain ⟨_, hoperand⟩ := operand_of_parseLevel hlevel
        obtain ⟨_, hunary⟩ := unary_of_operandOf operator hoperand
        have hle := hlevels _ hunary
        -- the left operand is read, so the right one starts after the operator
        obtain ⟨_, hparse, -⟩ := hleft hle
        rw [parseLevel_some (operandOf_eq operator hparse (.inl htoken)) htoken (levelOf_token operator)] at hlevel
        obtain ⟨_, hoperand', -⟩ := bind_eq_ok.mp hlevel
        obtain ⟨_, hunary'⟩ := unary_of_operandOf operator hoperand'
        have hle' := hlevels' _ hunary'
        omega

theorem SyntaxNode.canonicalTokens_start (hnode : node.IsParsed) :
    ∃ kind kinds, node.canonicalTokens = kind :: kinds ∧ kind ≠ .endOfInput := by
  cases node with
  | literal value => exact ⟨_, [], rfl, by cases value.kind <;> exact TokenKind.noConfusion⟩
  | lookup path =>
    cases path with
    | nil => exact absurd (hnode.lookups [] (mem_singleton_self _)) id
    | cons => exact ⟨_, _, rfl, TokenKind.noConfusion⟩
  | unary => exact ⟨_, _, rfl, TokenKind.noConfusion⟩
  | binary => exact ⟨_, _, rfl, TokenKind.noConfusion⟩

theorem parseTokens_canonical (hnode : node.IsParsed) (hnesting : node.canonicalNesting ≤ maxParseDepth)
    (htokens : kindsOf tokens = node.canonicalTokens ++ [.endOfInput]) :
    ∃ node', parseTokens tokens = .ok node' ∧ node'.eraseSpans = node.eraseSpans := by
  obtain ⟨front, _, rfl, hfront, hlast⟩ := map_eq_append_iff.mp htokens
  obtain ⟨finish, nothing, rfl, hfinish, hnil⟩ := map_eq_cons_iff.mp hlast
  obtain rfl : nothing = [] := map_eq_nil_iff.mp hnil
  have hcloses : Closes [finish] := .inr hfinish
  obtain ⟨node', hparse, hsame⟩ := (parseUnary_canonical hnode hfront hcloses.endsOperand).1 hnesting
  refine ⟨node', ?_, hsame⟩
  have hstart : atEnd (front ++ [finish]) = false := by
    obtain ⟨_, _, hkinds, hkind⟩ := SyntaxNode.canonicalTokens_start hnode
    obtain ⟨_, _, rfl, rfl, -⟩ := map_eq_cons_iff.mp (hfront.trans hkinds)
    exact decide_eq_false hkind
  have hend : atEnd [finish] = true := decide_eq_true hfinish
  rw [parseTokens, hstart, parseOr_operand hparse hcloses]
  simp [rejectIf, hend, bind, Except.bind, pure, Except.pure]

/-! ### The trees that the parser makes -/

section Literals

variable {V : Value → Prop}

/-- The literal tokens stand for values with the property `V`. -/
def Admits (V : Value → Prop) (tokens : List Token) : Prop :=
  ∀ token ∈ tokens, ∀ value, literalOf token.kind = some value → V value

theorem Admits.take (h : Admits V tokens) : Admits V (take tokens).2 := by
  rw [Expression.take]
  dsimp only
  split
  · exact h
  · exact fun token htoken => h token (mem_of_mem_tail htoken)

theorem Admits.parseSegments {finish finish' : Nat}
    (htokens : Admits V tokens) (h : parseSegments finish tokens = .ok (path, finish', rest)) : Admits V rest := by
  fun_induction Expression.parseSegments finish tokens generalizing path finish' rest with
  | case1 => cases h
  | case2 _ _ _ _ _ _ _ ih =>
    obtain ⟨⟨_, _, _⟩, hsegments, hreturn⟩ := bind_eq_ok.mp h
    cases hreturn
    exact ih (fun token htoken => htokens token (by simp [htoken])) hsegments
  | case3 => cases h
  | case4 =>
    cases h
    exact htokens
  | case5 =>
    cases h
    exact htokens

theorem Derived.admits {parser : List Token → Parsed} (hparser : Derived parser) (htokens : Admits V tokens)
    (h : parser tokens = .ok (node, rest)) : (∀ value ∈ node.literals, V value) ∧ Admits V rest := by
  have hderives := hparser _ _ _ h
  clear h
  induction hderives with
  | literal hkind =>
    obtain ⟨htoken, hrest⟩ := forall_mem_cons.mp htokens
    exact ⟨forall_mem_singleton.mpr (htoken _ hkind), hrest⟩
  | lookup hsegments =>
    exact ⟨fun _ hvalue => absurd hvalue not_mem_nil,
      Admits.parseSegments (forall_mem_cons.mp htokens).2 hsegments⟩
  | group _ _ _ _ ih =>
    obtain ⟨_, hafter⟩ := ih (forall_mem_cons.mp htokens).2
    exact ⟨by rwa [SyntaxNode.literals_withSpan], hafter.take⟩
  | unary _ _ _ _ ih => exact ih htokens.take
  | binary _ _ _ _ _ _ _ ihl ihr =>
    obtain ⟨hleft, hmiddle⟩ := ihl htokens
    obtain ⟨hright, hafter⟩ := ihr hmiddle.take
    exact ⟨forall_mem_append.mpr ⟨hleft, hright⟩, hafter⟩

theorem isLiteral_of_literalOf {kind : TokenKind} (hkind : ValidKind kind)
    (h : literalOf kind = some value) : IsLiteral value := by
  cases kind with
  | null | boolean _ | string _ =>
    cases h
    exact ⟨rfl, fun _ => ValueKind.noConfusion⟩
  | number number =>
    cases h
    refine ⟨rfl, ?_⟩
    rintro _ ⟨⟩
    exact hkind.number number rfl
  | identifier _ | dot | leftParenthesis | rightParenthesis | bang | and | or | equal | notEqual | less
  | lessEqual | greater | greaterEqual | endOfInput => cases h

end Literals

end Runtrue.Expression

namespace Runtrue

open Fallible Expression

variable {numbers : NumberText}

theorem Expression.isParsed {source : String} {expression : Expression}
    (h : Expression.parse numbers source = .ok expression) : expression.root.IsParsed := by
  refine ⟨Expression.isPath_of_mem_lookups h, ?_⟩
  simp only [Expression.parse, bind_eq_ok, exists_unit, pure_eq_ok] at h
  obtain ⟨-, tokens, htokens, _, hroot, rfl⟩ := h
  have hvalid := tokenizeLoop_valid (fun _ hkind => absurd hkind List.not_mem_nil) htokens
  have hadmits : Admits IsLiteral tokens := fun _ htoken _ hvalue =>
    isLiteral_of_literalOf (hvalid _ (List.mem_map_of_mem htoken)) hvalue
  obtain ⟨_, hor⟩ := parseOr_of_parseTokens hroot
  exact ((derived_parseUnary maxParseDepth).parseOr.admits hadmits hor).1

/-! ### A number text that round-trips -/

/-- A numeral of its own for every number. -/
def codeNumber (value : ℚ) : List Char := (toString (Encodable.encode value + 1)).toList

theorem codeNumber_injective : Function.Injective codeNumber := by
  intro value value' h
  have hcode : Encodable.encode value + 1 = Encodable.encode value' + 1 :=
    Nat.repr_injective (String.toList_inj.mp h)
  exact Encodable.encode_injective (Nat.succ_injective hcode)

instance : Nonempty {x : F64 // x.isFinite = true} := ⟨⟨.zero, by decide⟩⟩

/-- The numerals of `codeNumber`, and the numeral zero. -/
noncomputable def codedNumbers : NumberText where
  parse text :=
    if text = ['0'] then some .zero
    else some (Function.invFun (fun x : {x : F64 // x.isFinite = true} => codeNumber x.1.toRat) text).1
  write := codeNumber
  writeJson _ := ['0']

theorem codedNumbers_roundTrips : codedNumbers.RoundTrips := by
  refine ⟨⟨.zero, rfl, by decide, F64.toRat_of_isZero (by decide)⟩, fun x hfinite _ _ => ⟨?_, ?_⟩⟩
  · exact isNumeral_toString (Encodable.encode x.toRat + 1 : Nat)
  · have hcode : codeNumber x.toRat ≠ ['0'] := by
      intro h
      have hzero : Encodable.encode x.toRat + 1 = 0 := Nat.repr_injective (String.toList_inj.mp h)
      exact Nat.succ_ne_zero _ hzero
    have hsome : ∃ y : {x : F64 // x.isFinite = true}, codeNumber y.1.toRat = codeNumber x.toRat :=
      ⟨⟨x, hfinite⟩, rfl⟩
    let y := Function.invFun (fun x : {x : F64 // x.isFinite = true} => codeNumber x.1.toRat) (codeNumber x.toRat)
    exact ⟨y.1, if_neg hcode, y.2, codeNumber_injective (Function.invFun_eq hsome)⟩

/-! ### The canonical text read back -/

/-- **The canonical text of a parsed expression is parsed into the same tree**, which then has the same canonical
text, exactly if it is within the limits of the parser. -/
theorem canonicalSource_parses_back (hnumbers : numbers.RoundTrips) {source : String} {expression : Expression}
    (hparse : Expression.parse numbers source = .ok expression) :
    (∃ expression', Expression.parse numbers (expression.canonicalSource numbers) = .ok expression' ∧
      expression'.root.eraseSpans = expression.root.eraseSpans ∧
      expression'.canonicalSource numbers = expression.canonicalSource numbers) ↔
      expression.root.FitsLimits numbers := by
  have hnode := Expression.isParsed hparse
  have hspells := SyntaxNode.spells hnumbers hnode delimited_nil
  have htext : (expression.canonicalSource numbers).toList = expression.root.writeCanonical numbers :=
    String.toList_ofList
  have hsize : (expression.canonicalSource numbers).utf8ByteSize = expression.root.canonicalBytes numbers :=
    SyntaxNode.utf8ByteSize_writeCanonical _
  constructor
  · rintro ⟨_, hback, -⟩
    simp only [Expression.parse, bind_eq_ok, exists_unit, rejectIf_eq_ok, htext, hsize, not_lt] at hback
    obtain ⟨hbytes, tokens, htokens, _, hroot, -⟩ := hback
    obtain ⟨_, hor⟩ := parseOr_of_parseTokens hroot
    obtain ⟨_, hunary⟩ := unary_of_parseOr hor
    have hkinds := (hspells.mono IsToken.mayScan).kindsOf_tokenize htokens
    obtain ⟨front, _, rfl, hfront, hlast⟩ := List.map_eq_append_iff.mp hkinds
    obtain ⟨finish, rest, rfl, hfinish, -⟩ := List.map_eq_cons_iff.mp hlast
    have hcloses : Closes (finish :: rest) := .inr hfinish
    exact ⟨(parseUnary_canonical hnode hfront hcloses.endsOperand).2 _ hunary, hspells.length_le htokens, hbytes⟩
  · intro hfits
    obtain ⟨_, htokens, hkinds⟩ := hspells.tokenize hfits.tokens
    obtain ⟨root, hroot, hsame⟩ := parseTokens_canonical hnode hfits.nesting hkinds
    refine ⟨⟨expression.canonicalSource numbers, root⟩, ?_, hsame, ?_⟩
    · have hbytes : ¬(expression.canonicalSource numbers).utf8ByteSize > maxExpressionBytes :=
        not_lt.mpr (hsize.trans_le hfits.bytes)
      rw [Expression.parse, rejectIf, if_neg hbytes, htext, htokens]
      simp only [hroot, bind, Except.bind]
      rfl
    · rw [Expression.canonicalSource, Expression.canonicalSource, ← SyntaxNode.writeCanonical_eraseSpans, hsame,
        SyntaxNode.writeCanonical_eraseSpans]

/-- A negation, a keyword in a path, and a string with an escape of each kind. -/
def flagSource : String := "!inputs.fast||event.true=='say \"hi\"\\u0007'"

theorem canonicalSource_parses_back_flag :
    ∃ expression expression', Expression.parse codedNumbers flagSource = .ok expression ∧
      expression.root.FitsLimits codedNumbers ∧
      Expression.parse codedNumbers (expression.canonicalSource codedNumbers) = .ok expression' ∧
      expression'.root.eraseSpans = expression.root.eraseSpans ∧
      expression'.canonicalSource codedNumbers = expression.canonicalSource codedNumbers := by
  have hflag : ((Expression.parse codedNumbers flagSource).toOption.any fun expression =>
      decide (expression.root.canonicalNesting ≤ maxParseDepth ∧
        expression.root.canonicalTokens.length ≤ maxTokens ∧
        expression.root.canonicalBytes codedNumbers ≤ maxExpressionBytes)) = true := by
    decide +kernel
  obtain ⟨expression, hparse, hlimits⟩ := exists_eq_ok_of_any hflag
  obtain ⟨hnesting, htokens, hbytes⟩ := of_decide_eq_true hlimits
  have hfits : expression.root.FitsLimits codedNumbers := ⟨hnesting, htokens, hbytes⟩
  obtain ⟨expression', h⟩ := (canonicalSource_parses_back codedNumbers_roundTrips hparse).mpr hfits
  exact ⟨expression, expression', hparse, hfits, h⟩

def negationChain (negations : Nat) : String := String.ofList (List.replicate negations '!' ++ ['a'])

/-- **A chain of 65 negations is parsed, and its canonical text is not.** -/
theorem negation_chain_not_read_back :
    ∃ expression, Expression.parse codedNumbers (negationChain 65) = .ok expression ∧
      ∀ expression', Expression.parse codedNumbers (expression.canonicalSource codedNumbers) ≠ .ok expression' := by
  have hchain : ((Expression.parse codedNumbers (negationChain 65)).toOption.any fun expression =>
      !(Expression.parse codedNumbers (expression.canonicalSource codedNumbers)).isOk) = true := by
    decide +kernel
  obtain ⟨expression, hparse, hfails⟩ := exists_eq_ok_of_any hchain
  refine ⟨expression, hparse, fun _ h => ?_⟩
  rw [h] at hfails
  cases hfails

end Runtrue
