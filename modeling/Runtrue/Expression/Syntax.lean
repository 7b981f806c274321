import Runtrue.Base.TreeMap
import Runtrue.Expression.Value

/-!
# Expression syntax and its canonical text

`ast.rs`. The canonical text of a tree brackets every operator, so it depends on the tree only. How a lookup
is written is a parameter of the printer (`writeWith`): the canonical text writes the dotted path, and a
condition that is rewritten for a reusable workflow is the same text with other lookups.
-/

namespace Runtrue.Expression

/-- How numbers are read and written: by the standard library (`write` for a number that is not zero), and
by the JSON library (`writeJson` for a finite double). -/
structure NumberText where
  parse : List Char → Option F64
  write : ℚ → List Char
  writeJson : F64 → List Char

inductive UnaryOperator
  | not
deriving DecidableEq

inductive BinaryOperator
  | or | and | equal | notEqual | less | lessEqual | greater | greaterEqual
deriving DecidableEq

def BinaryOperator.text : BinaryOperator → String
  | .or => "||"
  | .and => "&&"
  | .equal => "=="
  | .notEqual => "!="
  | .less => "<"
  | .lessEqual => "<="
  | .greater => ">"
  | .greaterEqual => ">="

inductive SyntaxNode
  | literal (value : Value) (span : Span)
  | lookup (path : List String) (span : Span)
  | unary (operator : UnaryOperator) (operatorSpan : Span) (operand : SyntaxNode) (span : Span)
  | binary (operator : BinaryOperator) (operatorSpan : Span) (left right : SyntaxNode) (span : Span)
deriving DecidableEq

/-- `path.join(".")`. -/
def joinPath (path : List String) : String := ".".intercalate path

namespace SyntaxNode

def span : SyntaxNode → Span
  | .literal _ span | .lookup _ span | .unary _ _ _ span | .binary _ _ _ _ span => span

def withSpan (span : Span) : SyntaxNode → SyntaxNode
  | .literal value _ => .literal value span
  | .lookup path _ => .lookup path span
  | .unary operator operatorSpan operand _ => .unary operator operatorSpan operand span
  | .binary operator operatorSpan left right _ => .binary operator operatorSpan left right span

/-- The paths that are looked up, from left to right. -/
def lookups : SyntaxNode → List (List String)
  | .literal _ _ => []
  | .lookup path _ => [path]
  | .unary _ _ operand _ => operand.lookups
  | .binary _ _ left right _ => left.lookups ++ right.lookups

@[simp] theorem lookups_withSpan (node : SyntaxNode) (span : Span) : (node.withSpan span).lookups = node.lookups := by
  cases node <;> rfl

def collectReferences : SyntaxNode → BTreeSet String → BTreeSet String
  | .literal _ _, references => references
  | .lookup path _, references => references.insert (joinPath path)
  | .unary _ _ operand _, references => operand.collectReferences references
  | .binary _ _ left right _, references => right.collectReferences (left.collectReferences references)

end SyntaxNode

/-! ### Canonical text -/

/-- `char::is_control`. -/
def isControl (c : Char) : Bool := c.toNat < 0x20 || (0x7f ≤ c.toNat && c.toNat < 0xa0)

/-- Four hexadecimal digits. -/
def hexQuad (n : Nat) : List Char :=
  [Nat.digitChar (n / 4096 % 16), Nat.digitChar (n / 256 % 16), Nat.digitChar (n / 16 % 16),
    Nat.digitChar (n % 16)]

def escapeChar (c : Char) : List Char :=
  if c = '"' then ['\\', '"']
  else if c = '\\' then ['\\', '\\']
  else if c = '\x08' then ['\\', 'b']
  else if c = '\x0c' then ['\\', 'f']
  else if c = '\n' then ['\\', 'n']
  else if c = '\r' then ['\\', 'r']
  else if c = '\t' then ['\\', 't']
  else if isControl c then '\\' :: 'u' :: hexQuad c.toNat
  else [c]

def writeCanonicalLiteral (numbers : NumberText) : ValueKind → List Char
  | .null => "null".toList
  | .boolean value => if value then "true".toList else "false".toList
  | .number number => if number.value = 0 then ['0'] else numbers.write number.value
  | .string value => '"' :: value.toList.flatMap escapeChar ++ ['"']

namespace SyntaxNode

/-- `write_canonical`, with the writing of a lookup as a parameter. -/
def writeWith (numbers : NumberText) (lookup : List String → List Char) : SyntaxNode → List Char
  | .literal value _ => writeCanonicalLiteral numbers value.kind
  | .lookup path _ => lookup path
  | .unary .not _ operand _ => "(!".toList ++ operand.writeWith numbers lookup ++ [')']
  | .binary operator _ left right _ =>
    '(' :: left.writeWith numbers lookup ++ ' ' :: operator.text.toList ++
      ' ' :: right.writeWith numbers lookup ++ [')']

def writeCanonical (numbers : NumberText) (node : SyntaxNode) : List Char :=
  node.writeWith numbers fun path => (joinPath path).toList

end SyntaxNode

end Runtrue.Expression
