import Runtrue.Base.Fallible
import Runtrue.Expression.Syntax

/-!
# The lexer

`lexer.rs`. A `Cursor` is the byte position and the text that is left. A loop `while` the next character
satisfies a test is `skipWhile`; the loops over tokens and over the characters of a string literal are
recursions on a bound for the number of characters left, each round consuming at least one.
-/

namespace Runtrue.Expression

open Fallible

def maxTokens : Nat := 4096

structure ParseError where
  message : String
  span : Span
deriving DecidableEq

inductive TokenKind
  | null
  | boolean (value : Bool)
  | number (value : ExactNumber)
  | string (value : String)
  | identifier (name : String)
  | dot | leftParenthesis | rightParenthesis | bang | and | or
  | equal | notEqual | less | lessEqual | greater | greaterEqual
  | endOfInput
deriving DecidableEq

structure Token where
  kind : TokenKind
  span : Span
deriving DecidableEq

/-! ### Characters -/

/-- `char::is_whitespace`. -/
def isWhitespace (c : Char) : Bool :=
  (0x09 ≤ c.toNat && c.toNat ≤ 0x0d) || c.toNat = 0x20 || c.toNat = 0x85 || c.toNat = 0xa0 ||
    c.toNat = 0x1680 || (0x2000 ≤ c.toNat && c.toNat ≤ 0x200a) || c.toNat = 0x2028 || c.toNat = 0x2029 ||
    c.toNat = 0x202f || c.toNat = 0x205f || c.toNat = 0x3000

def isIdentifierStart (c : Char) : Bool := c.isAlpha || c = '_'

def isIdentifierContinue (c : Char) : Bool := c.isAlphanum || c = '_' || c = '-'

/-- `char::to_digit(16)`. -/
def hexValue (c : Char) : Option Nat :=
  if c.isDigit then some (c.toNat - '0'.toNat)
  else if 'a' ≤ c ∧ c ≤ 'f' then some (c.toNat - 'a'.toNat + 10)
  else if 'A' ≤ c ∧ c ≤ 'F' then some (c.toNat - 'A'.toNat + 10)
  else none

/-! ### The cursor -/

structure Cursor where
  position : Nat
  remaining : List Char

namespace Cursor

def peek (cursor : Cursor) : Option Char := cursor.remaining.head?

/-- The next character satisfies `p`. -/
def peekIs (cursor : Cursor) (p : Char → Bool) : Bool := cursor.peek.any p

/-- Advance over the next character, if there is one. -/
def bump : Cursor → Option Char × Cursor
  | ⟨position, []⟩ => (none, ⟨position, []⟩)
  | ⟨position, c :: rest⟩ => (some c, ⟨position + c.utf8Size, rest⟩)

def skip (cursor : Cursor) : Cursor := cursor.bump.2

def takeIf (cursor : Cursor) (expected : Char) : Bool × Cursor :=
  if cursor.peek = some expected then (true, cursor.skip) else (false, cursor)

/-- Advance while the next character satisfies `p`. -/
def skipWhile (cursor : Cursor) (p : Char → Bool) : Cursor where
  position := cursor.position + ((cursor.remaining.takeWhile p).map Char.utf8Size).sum
  remaining := cursor.remaining.dropWhile p

/-- The source between two cursors. -/
def textTo (start finish : Cursor) : List Char :=
  start.remaining.take (start.remaining.length - finish.remaining.length)

def spanTo (start finish : Cursor) : Span := ⟨start.position, finish.position⟩

end Cursor

/-! ### Tokens -/

/-- The token of a scanned word. -/
def keywordOrIdentifier (word : List Char) : TokenKind :=
  if word = "null".toList then .null
  else if word = "true".toList then .boolean true
  else if word = "false".toList then .boolean false
  else .identifier (String.ofList word)

def scanIdentifier (start : Cursor) : TokenKind × Cursor :=
  let finish := start.skip.skipWhile isIdentifierContinue
  (keywordOrIdentifier (start.textTo finish), finish)

def scanIntegerPart (start cursor : Cursor) : Except ParseError Cursor :=
  match cursor.takeIf '0' with
  | (true, cursor) => do
    rejectIf (cursor.peekIs Char.isDigit)
      ⟨"number literals cannot contain leading zeroes", ⟨start.position, cursor.position + 1⟩⟩
    return cursor
  | (false, cursor) => .ok (cursor.skipWhile Char.isDigit)

def scanFraction (start cursor : Cursor) : Except ParseError Cursor :=
  match cursor.takeIf '.' with
  | (true, cursor) => do
    rejectIf (!cursor.peekIs Char.isDigit)
      ⟨"fractional part requires at least one digit", start.spanTo cursor⟩
    return cursor.skipWhile Char.isDigit
  | (false, cursor) => .ok cursor

def scanExponent (start cursor : Cursor) : Except ParseError Cursor :=
  if cursor.peekIs (fun c => c = 'e' || c = 'E') then do
    let cursor := cursor.skip
    let cursor := if cursor.peekIs (fun c => c = '+' || c = '-') then cursor.skip else cursor
    rejectIf (!cursor.peekIs Char.isDigit) ⟨"exponent requires at least one digit", start.spanTo cursor⟩
    return cursor.skipWhile Char.isDigit
  else .ok cursor

def scanNumber (numbers : NumberText) (start : Cursor) : Except ParseError (ExactNumber × Cursor) := do
  let cursor ← scanIntegerPart start (start.takeIf '-').2
  let cursor ← scanFraction start cursor
  let cursor ← scanExponent start cursor
  let value ← okOr (numbers.parse (start.textTo cursor)) ⟨"invalid number literal", start.spanTo cursor⟩
  rejectIf (value.isFinite = false) ⟨"number literal is outside the finite range", start.spanTo cursor⟩
  if h : |value.toRat| ≤ maxExactExpressionNumber then
    return (⟨value.toRat, h⟩, cursor)
  else
    .error ⟨"number literal is outside the exact expression range", start.spanTo cursor⟩

/-- `scan_hex_quad`: `count` more digits, after those that gave `value`. -/
def scanHexQuad (escapeStart : Nat) : Nat → Nat → Cursor → Except ParseError (Nat × Cursor)
  | 0, value, cursor => .ok (value, cursor)
  | count + 1, value, cursor =>
    let (character, next) := cursor.bump
    match character.bind hexValue with
    | none => .error ⟨"unicode escape requires four hexadecimal digits", ⟨escapeStart, next.position⟩⟩
    | some digit => scanHexQuad escapeStart count (value * 16 + digit) next

/-- The scalar of an escape that starts with the quad `first`, which may be half of a surrogate pair. -/
def scanScalar (escapeStart first : Nat) (cursor : Cursor) : Except ParseError (Nat × Cursor) :=
  if 0xd800 ≤ first ∧ first ≤ 0xdbff then do
    let (backslash, cursor) := cursor.takeIf '\\'
    let (letter, cursor) := if backslash then cursor.takeIf 'u' else (false, cursor)
    rejectIf (!backslash || !letter)
      ⟨"high surrogate must be followed by a low surrogate escape", ⟨escapeStart, cursor.position⟩⟩
    let (second, cursor) ← scanHexQuad escapeStart 4 0 cursor
    rejectIf (¬(0xdc00 ≤ second ∧ second ≤ 0xdfff))
      ⟨"invalid low surrogate in unicode escape", ⟨escapeStart, cursor.position⟩⟩
    return (0x10000 + (first - 0xd800) * 1024 + (second - 0xdc00), cursor)
  else if 0xdc00 ≤ first ∧ first ≤ 0xdfff then
    .error ⟨"low surrogate without a preceding high surrogate", ⟨escapeStart, cursor.position⟩⟩
  else
    .ok (first, cursor)

def scanUnicodeEscape (escapeStart : Nat) (cursor : Cursor) : Except ParseError (Char × Cursor) := do
  let (first, cursor) ← scanHexQuad escapeStart 4 0 cursor
  let (scalar, cursor) ← scanScalar escapeStart first cursor
  if scalar.isValidChar then
    return (Char.ofNat scalar, cursor)
  else
    .error ⟨"invalid unicode scalar in string escape", ⟨escapeStart, cursor.position⟩⟩

/-- The character that a one-letter escape stands for. -/
def simpleEscape (escaped : Char) : Option Char :=
  if escaped = '\\' then some '\\'
  else if escaped = '\'' then some '\''
  else if escaped = '"' then some '"'
  else if escaped = '/' then some '/'
  else if escaped = 'b' then some '\x08'
  else if escaped = 'f' then some '\x0c'
  else if escaped = 'n' then some '\n'
  else if escaped = 'r' then some '\r'
  else if escaped = 't' then some '\t'
  else none

/-- The escape sequence after a backslash. -/
def scanEscape (escapeStart : Nat) (cursor : Cursor) : Except ParseError (Char × Cursor) :=
  match cursor.bump with
  | (none, next) => .error ⟨"unterminated string escape", ⟨escapeStart, next.position⟩⟩
  | (some escaped, next) =>
    match simpleEscape escaped with
    | some character => .ok (character, next)
    | none =>
      if escaped = 'u' then scanUnicodeEscape escapeStart next
      else .error ⟨s!"unsupported string escape `\\{escaped}`", ⟨escapeStart, next.position⟩⟩

/-- The loop of `scan_string`, after `result`. -/
def scanStringLoop (quote : Char) (start : Nat) :
    Nat → List Char → Cursor → Except ParseError (List Char × Cursor)
  | 0, _, cursor => .error ⟨"unterminated string literal", ⟨start, cursor.position⟩⟩
  | fuel + 1, result, cursor =>
    match cursor.bump with
    | (none, next) => .error ⟨"unterminated string literal", ⟨start, next.position⟩⟩
    | (some character, next) =>
      if character = quote then .ok (result, next)
      else if character = '\\' then do
        let (character, next) ← scanEscape (next.position - 1) next
        scanStringLoop quote start fuel (result ++ [character]) next
      else if isControl character then
        .error ⟨"unescaped control character in string literal",
          ⟨next.position - character.utf8Size, next.position⟩⟩
      else scanStringLoop quote start fuel (result ++ [character]) next

def scanString (quote : Char) (start : Cursor) : Except ParseError (String × Cursor) := do
  let (result, cursor) ← scanStringLoop quote start.position start.remaining.length [] start.skip
  return (String.ofList result, cursor)

/-- The token of an operator that may be doubled or followed by `=`. -/
def scanOperator (start : Cursor) (second : Char) (long : TokenKind)
    (short : Cursor → Except ParseError TokenKind) : Except ParseError (TokenKind × Cursor) :=
  match start.skip.takeIf second with
  | (true, cursor) => .ok (long, cursor)
  | (false, cursor) => do return (← short cursor, cursor)

def scanToken (numbers : NumberText) (start : Cursor) (character : Char) :
    Except ParseError (TokenKind × Cursor) :=
  if character = '(' then .ok (.leftParenthesis, start.skip)
  else if character = ')' then .ok (.rightParenthesis, start.skip)
  else if character = '.' then .ok (.dot, start.skip)
  else if character = '!' then scanOperator start '=' .notEqual fun _ => .ok .bang
  else if character = '=' then
    scanOperator start '=' .equal fun cursor =>
      .error ⟨"assignment is not supported; use `==` for equality", start.spanTo cursor⟩
  else if character = '<' then scanOperator start '=' .lessEqual fun _ => .ok .less
  else if character = '>' then scanOperator start '=' .greaterEqual fun _ => .ok .greater
  else if character = '&' then
    scanOperator start '&' .and fun cursor =>
      .error ⟨"single `&` is not supported; use `&&`", start.spanTo cursor⟩
  else if character = '|' then
    scanOperator start '|' .or fun cursor =>
      .error ⟨"single `|` is not supported; use `||`", start.spanTo cursor⟩
  else if character = '\'' ∨ character = '"' then do
    let (value, cursor) ← scanString character start
    return (.string value, cursor)
  else if (character = '-' ∧ start.skip.peekIs Char.isDigit) ∨ character.isDigit then do
    let (value, cursor) ← scanNumber numbers start
    return (.number value, cursor)
  else if isIdentifierStart character then .ok (scanIdentifier start)
  else if ['$', '\x7b', '\x7b'].isPrefixOf start.remaining then
    .error ⟨"interpolation syntax is not supported", ⟨start.position, start.position + 3⟩⟩
  else .error ⟨s!"unexpected character `{character}`", start.spanTo start.skip⟩

def tokenizeLoop (numbers : NumberText) : Nat → List Token → Cursor → Except ParseError (List Token)
  | 0, tokens, cursor => .ok (tokens ++ [⟨.endOfInput, cursor.spanTo cursor⟩])
  | fuel + 1, tokens, cursor =>
    match cursor.remaining with
    | [] => .ok (tokens ++ [⟨.endOfInput, cursor.spanTo cursor⟩])
    | character :: _ =>
      if isWhitespace character then tokenizeLoop numbers fuel tokens cursor.skip
      else do
        rejectIf (tokens.length ≥ maxTokens)
          ⟨s!"expression exceeds {maxTokens}-token limit", cursor.spanTo cursor.skip⟩
        let (kind, next) ← scanToken numbers cursor character
        tokenizeLoop numbers fuel (tokens ++ [⟨kind, cursor.spanTo next⟩]) next

def tokenize (numbers : NumberText) (source : List Char) : Except ParseError (List Token) :=
  tokenizeLoop numbers source.length [] ⟨0, source⟩

end Runtrue.Expression
