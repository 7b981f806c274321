import Runtrue.Base.Text
import Runtrue.Expression.Parser

/-!
# Lexing printed text

What the lexer makes of a text that the printer wrote. Such a text is a sequence of tokens and spaces
(`Spells`), which composes (`Spells.append`), so a printed tree is lexed piece by piece. The pieces are words,
dotted paths, string literals, numerals and operators, each followed by a space, a closing parenthesis or the
end (`Delimited`). What counts as a token is a parameter: a text that may be scanned as one, or fail
(`MayScan`), or one that is scanned for certain (`IsToken`).
-/

namespace Runtrue.Expression

open Fallible List Cursor Char
open Bool (and_eq_true false_eq_true or_eq_true)

variable {numbers : NumberText}

/-! ### Cursors -/

/-- What may follow a piece of a printed tree. -/
def Delimited (rest : List Char) : Prop := ∀ c ∈ rest.head?, c = ' ' ∨ c = ')'

variable {text rest : List Char}

theorem Cursor.skipWhile_append {p : Char → Bool} (htext : ∀ c ∈ text, p c = true)
    (hrest : ∀ c ∈ rest.head?, p c = false) (position : Nat) :
    ∃ position', (⟨position, text ++ rest⟩ : Cursor).skipWhile p = ⟨position', rest⟩ := by
  have hdrop : (text ++ rest).dropWhile p = rest := by
    rw [dropWhile_append_of_pos htext]
    cases rest with
    | nil => rfl
    | cons c => exact dropWhile_cons_of_neg (by simp [hrest c rfl])
  exact ⟨_, by rw [skipWhile, hdrop]⟩

theorem Cursor.takeIf_cons (position : Nat) (c : Char) (rest : List Char) :
    (⟨position, c :: rest⟩ : Cursor).takeIf c = (true, ⟨position + c.utf8Size, rest⟩) := by
  simp [takeIf, peek, skip, bump]

theorem Cursor.takeIf_of_ne {expected : Char} (h : ∀ c ∈ rest.head?, c ≠ expected) (position : Nat) :
    (⟨position, rest⟩ : Cursor).takeIf expected = (false, ⟨position, rest⟩) := by
  rw [takeIf, if_neg]
  intro hpeek
  exact h expected hpeek rfl

theorem Cursor.textTo_append (text rest : List Char) (start finish : Nat) :
    (⟨start, text ++ rest⟩ : Cursor).textTo ⟨finish, rest⟩ = text := by
  simp [textTo]

theorem Delimited.of_ne (h : Delimited rest) {expected : Char} (hspace : ' ' ≠ expected)
    (hclose : ')' ≠ expected) : ∀ c ∈ rest.head?, c ≠ expected := by
  rintro c hc rfl
  rcases h c hc with rfl | rfl
  · exact hspace rfl
  · exact hclose rfl

theorem Delimited.not_of (h : Delimited rest) {p : Char → Bool} (hspace : p ' ' = false)
    (hclose : p ')' = false) : ∀ c ∈ rest.head?, p c = false := by
  intro c hc
  rcases h c hc with rfl | rfl
  · exact hspace
  · exact hclose

/-! ### Pieces of text -/

/-- A text that is scanned as one token, which ends before `rest`. -/
def IsToken (numbers : NumberText) (text : List Char) (kind : TokenKind) (rest : List Char) : Prop :=
  ∃ c cs, text = c :: cs ∧ isWhitespace c = false ∧
    ∀ position, ∃ position', scanToken numbers ⟨position, text ++ rest⟩ c = .ok (kind, ⟨position', rest⟩)

/-- A text that is scanned as one token, if it can be scanned at all. -/
def MayScan (numbers : NumberText) (text : List Char) (kind : TokenKind) (rest : List Char) : Prop :=
  ∃ c cs, text = c :: cs ∧ isWhitespace c = false ∧
    ∀ position kind' next, scanToken numbers ⟨position, text ++ rest⟩ c = .ok (kind', next) →
      kind' = kind ∧ next.remaining = rest

variable {kind : TokenKind}

theorem IsToken.mayScan (h : IsToken numbers text kind rest) : MayScan numbers text kind rest := by
  obtain ⟨c, cs, htext, hc, hscan⟩ := h
  refine ⟨c, cs, htext, hc, fun position _ _ hnext => ?_⟩
  obtain ⟨_, hscan⟩ := hscan position
  rw [hscan] at hnext
  cases hnext
  exact ⟨rfl, rfl⟩

/-- A text before `rest` that consists of tokens and spaces. -/
inductive Spells (T : List Char → TokenKind → List Char → Prop) :
    List Char → List TokenKind → List Char → Prop
  | nil (rest : List Char) : Spells T [] [] rest
  | space {text rest : List Char} {kinds : List TokenKind} (h : Spells T text kinds rest) :
      Spells T (' ' :: text) kinds rest
  | token {text more rest : List Char} {kind : TokenKind} {kinds : List TokenKind}
      (htoken : T text kind (more ++ rest)) (h : Spells T more kinds rest) :
      Spells T (text ++ more) (kind :: kinds) rest

variable {T : List Char → TokenKind → List Char → Prop}

theorem Spells.append {text text' rest : List Char} {kinds kinds' : List TokenKind}
    (h : Spells T text kinds (text' ++ rest)) (h' : Spells T text' kinds' rest) :
    Spells T (text ++ text') (kinds ++ kinds') rest := by
  generalize hrest : text' ++ rest = after at h
  induction h with
  | nil => exact h'
  | space _ ih => exact .space (ih hrest)
  | token _ _ ih =>
    subst hrest
    rw [append_assoc]
    exact .token (by rwa [append_assoc]) (ih rfl)

theorem Spells.single (h : T text kind rest) : Spells T text [kind] rest := by
  have hsingle : Spells T (text ++ []) [kind] rest := .token h (.nil rest)
  rwa [append_nil] at hsingle

variable {c : Char} {kinds : List TokenKind}

theorem Spells.char {more rest : List Char} (htoken : T [c] kind (more ++ rest))
    (h : Spells T more kinds rest) : Spells T (c :: more) (kind :: kinds) rest :=
  .token htoken h

theorem Spells.mono {T' : List Char → TokenKind → List Char → Prop}
    (hT : ∀ {text kind rest}, T text kind rest → T' text kind rest) (h : Spells T text kinds rest) :
    Spells T' text kinds rest := by
  induction h with
  | nil rest => exact .nil rest
  | space _ ih => exact .space ih
  | token htoken _ ih => exact .token (hT htoken) ih

/-! ### The runs of the lexer -/

theorem tokenizeLoop_space (fuel : Nat) (tokens : List Token) (position : Nat) (rest : List Char) :
    tokenizeLoop numbers (fuel + 1) tokens ⟨position, ' ' :: rest⟩ =
      tokenizeLoop numbers fuel tokens ⟨position + ' '.utf8Size, rest⟩ := by
  rw [tokenizeLoop]
  rfl

theorem Spells.run (h : Spells (MayScan numbers) text kinds rest) {fuel position : Nat}
    {tokens result : List Token} (hfuel : (text ++ rest).length ≤ fuel)
    (hrun : tokenizeLoop numbers fuel tokens ⟨position, text ++ rest⟩ = .ok result) :
    ∃ fuel' tokens' position', rest.length ≤ fuel' ∧ kindsOf tokens' = kindsOf tokens ++ kinds ∧
      tokenizeLoop numbers fuel' tokens' ⟨position', rest⟩ = .ok result := by
  induction h generalizing fuel tokens position with
  | nil => exact ⟨fuel, tokens, position, hfuel, by simp, hrun⟩
  | space _ ih =>
    cases fuel with
    | zero => simp at hfuel
    | succ =>
      rw [cons_append, tokenizeLoop_space] at hrun
      exact ih (by simpa using hfuel) hrun
  | @token _ more rest _ _ htoken _ ih =>
    obtain ⟨_, _, rfl, hc, hscan⟩ := htoken
    cases fuel with
    | zero => simp at hfuel
    | succ fuel =>
      rw [append_assoc, tokenizeLoop] at hrun
      simp only [cons_append, hc, false_eq_true, ↓reduceIte, bind_eq_ok, exists_unit, Prod.exists]
        at hrun
      obtain ⟨-, _, ⟨position', _⟩, hnext, hrest⟩ := hrun
      obtain ⟨rfl, rfl⟩ := hscan position _ _ hnext
      have hlength : (more ++ rest).length ≤ fuel := by
        simp only [cons_append, length_cons, length_append] at hfuel ⊢
        omega
      obtain ⟨fuel', tokens', position', hfuel', hkinds, hrun'⟩ := ih hlength hrest
      exact ⟨fuel', tokens', position', hfuel', by rw [hkinds]; simp [kindsOf], hrun'⟩

theorem Spells.kindsOf_tokenize {tokens : List Token} (h : Spells (MayScan numbers) text kinds [])
    (htokens : tokenize numbers text = .ok tokens) : kindsOf tokens = kinds ++ [.endOfInput] := by
  have hrun : tokenizeLoop numbers text.length [] ⟨0, text ++ []⟩ = .ok tokens := by
    rw [append_nil]
    exact htokens
  obtain ⟨fuel, _, _, -, hkinds, hend⟩ := h.run (by simp) hrun
  cases fuel <;> cases hend <;> simpa [kindsOf] using hkinds

/-! ### Punctuation and operators -/

theorem isToken_leftParenthesis (rest : List Char) : IsToken numbers ['('] .leftParenthesis rest :=
  ⟨'(', [], rfl, by decide, fun _ => ⟨_, rfl⟩⟩

theorem isToken_rightParenthesis (rest : List Char) : IsToken numbers [')'] .rightParenthesis rest :=
  ⟨')', [], rfl, by decide, fun _ => ⟨_, rfl⟩⟩

theorem isToken_dot (rest : List Char) : IsToken numbers ['.'] .dot rest :=
  ⟨'.', [], rfl, by decide, fun _ => ⟨_, rfl⟩⟩

theorem isToken_bang (hrest : ∀ c ∈ rest.head?, c ≠ '=') : IsToken numbers ['!'] .bang rest := by
  refine ⟨'!', [], rfl, by decide, fun position => ⟨position + '!'.utf8Size, ?_⟩⟩
  change scanOperator ⟨position, '!' :: rest⟩ '=' .notEqual (fun _ => .ok .bang) = _
  rw [scanOperator, skip, bump, takeIf_of_ne hrest]
  rfl

def BinaryOperator.token : BinaryOperator → TokenKind
  | .or => .or
  | .and => .and
  | .equal => .equal
  | .notEqual => .notEqual
  | .less => .less
  | .lessEqual => .lessEqual
  | .greater => .greater
  | .greaterEqual => .greaterEqual

theorem isToken_operator (operator : BinaryOperator) (rest : List Char) :
    IsToken numbers operator.text.toList operator.token (' ' :: rest) := by
  cases operator <;> exact ⟨_, _, rfl, by decide, fun _ => ⟨_, rfl⟩⟩

/-! ### Words and paths -/

/-- A word that the lexer reads as one piece. -/
def IsWord (word : List Char) : Prop :=
  ∃ c cs, word = c :: cs ∧ isIdentifierStart c = true ∧ ∀ d ∈ cs, isIdentifierContinue d = true

variable {word : List Char}

theorem IsWord.continues (h : IsWord word) : ∀ c ∈ word, isIdentifierContinue c = true := by
  obtain ⟨_, _, rfl, hc, hcs⟩ := h
  refine forall_mem_cons.mpr ⟨?_, hcs⟩
  rw [isIdentifierStart, or_eq_true] at hc
  rcases hc with hc | hc <;> simp [isIdentifierContinue, isAlphanum, hc]

theorem IsWord.no_dot (h : IsWord word) : '.' ∉ word :=
  fun hmem => absurd (h.continues _ hmem) (by decide)

theorem isIdentifierStart_range (hc : isIdentifierStart c = true) :
    (65 ≤ c.toNat ∧ c.toNat ≤ 90) ∨ (97 ≤ c.toNat ∧ c.toNat ≤ 122) ∨ c.toNat = 95 := by
  simp only [isIdentifierStart, isAlpha, isUpper, isLower, or_eq_true,
    and_eq_true, decide_eq_true_eq, UInt32.le_iff_toNat_le] at hc
  rcases hc with (hc | hc) | rfl
  · exact .inl hc
  · exact .inr (.inl hc)
  · exact .inr (.inr rfl)

theorem isIdentifierStart_ne {c d : Char} (hc : isIdentifierStart c = true)
    (hd : d.toNat < 65 ∨ d.toNat = 124) : c ≠ d := by
  have hrange := isIdentifierStart_range hc
  rintro rfl
  omega

theorem isWhitespace_of_isIdentifierStart (hc : isIdentifierStart c = true) : isWhitespace c = false := by
  have hrange := isIdentifierStart_range hc
  simp only [isWhitespace, Bool.or_eq_false_iff, Bool.and_eq_false_iff, decide_eq_false_iff_not]
  omega

theorem isDigit_of_isIdentifierStart (hc : isIdentifierStart c = true) : c.isDigit = false := by
  have hrange := isIdentifierStart_range hc
  simp only [isDigit, Bool.and_eq_false_iff, decide_eq_false_iff_not, UInt32.le_iff_toNat_le]
  right
  change ¬c.toNat ≤ 57
  omega

theorem scanToken_of_isIdentifierStart (hc : isIdentifierStart c = true) (start : Cursor) :
    scanToken numbers start c = .ok (scanIdentifier start) := by
  have hne : ∀ d : Char, d.toNat < 65 ∨ d.toNat = 124 → c ≠ d := fun _ => isIdentifierStart_ne hc
  simp only [scanToken, hne '(' (by decide), hne ')' (by decide), hne '.' (by decide),
    hne '!' (by decide), hne '=' (by decide), hne '<' (by decide), hne '>' (by decide),
    hne '&' (by decide), hne '|' (by decide), hne '\'' (by decide), hne '"' (by decide),
    hne '-' (by decide), isDigit_of_isIdentifierStart hc, hc, or_self, false_and, false_eq_true,
    ↓reduceIte]

theorem isToken_word (hword : IsWord word) (hrest : ∀ c ∈ rest.head?, isIdentifierContinue c = false) :
    IsToken numbers word (keywordOrIdentifier word) rest := by
  obtain ⟨c, cs, rfl, hc, hcs⟩ := hword
  refine ⟨c, cs, rfl, isWhitespace_of_isIdentifierStart hc, fun position => ?_⟩
  obtain ⟨position', hskip⟩ := skipWhile_append hcs hrest (position + c.utf8Size)
  have hfinish : (⟨position, c :: cs ++ rest⟩ : Cursor).skip.skipWhile isIdentifierContinue =
      ⟨position', rest⟩ := hskip
  refine ⟨position', ?_⟩
  rw [scanToken_of_isIdentifierStart hc, scanIdentifier, hfinish, textTo_append]

/-- A path that the lexer can produce: words, the first of which is no keyword. -/
def IsPath : List String → Prop
  | [] => False
  | first :: rest =>
    IsWord first.toList ∧ keywordOrIdentifier first.toList = .identifier first ∧
      ∀ segment ∈ rest, IsWord segment.toList

def segmentTokens (path : List String) : List TokenKind :=
  path.flatMap fun segment => [.dot, keywordOrIdentifier segment.toList]

def pathTokens : List String → List TokenKind
  | [] => []
  | first :: rest => .identifier first :: segmentTokens rest

theorem segmentName_keywordOrIdentifier (segment : String) :
    segmentName (keywordOrIdentifier segment.toList) = some segment := by
  have hinj : ∀ {word : String}, segment.toList = word.toList → segment = word := String.toList_inj.mp
  fun_cases keywordOrIdentifier segment.toList with
  | case1 h | case2 _ h | case3 _ _ h => simp [segmentName, hinj h]
  | case4 => simp [segmentName]

theorem segmentsOf_segmentTokens (path : List String) {rest : List TokenKind}
    (hrest : segmentsOf rest = ([], rest)) : segmentsOf (segmentTokens path ++ rest) = (path, rest) := by
  induction path with
  | nil => exact hrest
  | cons segment path ih =>
    change segmentsOf (.dot :: keywordOrIdentifier segment.toList :: (segmentTokens path ++ rest)) = _
    rw [segmentsOf, segmentName_keywordOrIdentifier]
    simp [ih]

theorem lookupsOf_pathTokens {path : List String} (hpath : path ≠ []) {rest : List TokenKind}
    (hrest : segmentsOf rest = ([], rest)) : lookupsOf (pathTokens path ++ rest) = path :: lookupsOf rest := by
  cases path with
  | nil => exact absurd rfl hpath
  | cons first path =>
    change lookupsOf (.identifier first :: (segmentTokens path ++ rest)) = _
    rw [lookupsOf_identifier, segmentsOf_segmentTokens path hrest]

def segmentText (path : List String) : List Char := path.flatMap fun segment => '.' :: segment.toList

theorem toList_joinPath (first : String) (path : List String) :
    (joinPath (first :: path)).toList = first.toList ++ segmentText path := by
  induction path generalizing first with
  | nil => simp [joinPath, segmentText]
  | cons segment path ih =>
    have hcons : joinPath (first :: segment :: path) = first ++ "." ++ joinPath (segment :: path) := by
      simp [joinPath, String.intercalate_cons_cons]
    rw [hcons, String.toList_append, String.toList_append, ih]
    simp [segmentText]

theorem split_joinPath {path : List String} (hpath : path ≠ []) (hdots : ∀ segment ∈ path, '.' ∉ segment.toList) :
    Text.split '.' (joinPath path) = path := by
  have hjoin : (joinPath path).toList = ['.'].intercalate (path.map String.toList) :=
    String.toList_intercalate
  rw [Text.split, hjoin, splitOn_intercalate '.' _ (by simpa using hpath), map_map]
  · simp
  · simpa using hdots

theorem IsPath.split {path : List String} (h : IsPath path) : Text.split '.' (joinPath path) = path := by
  cases path with
  | nil => exact absurd h id
  | cons =>
    exact split_joinPath (cons_ne_nil _ _)
      (forall_mem_cons.mpr ⟨h.1.no_dot, fun segment hsegment => (h.2.2 segment hsegment).no_dot⟩)

theorem head_segmentText (path : List String) (hrest : ∀ c ∈ rest.head?, isIdentifierContinue c = false) :
    ∀ c ∈ (segmentText path ++ rest).head?, isIdentifierContinue c = false := by
  cases path with
  | nil => exact hrest
  | cons =>
    intro c hc
    obtain rfl : '.' = c := by simpa [segmentText] using hc
    decide

theorem spells_segments {path : List String} (hpath : ∀ segment ∈ path, IsWord segment.toList)
    (hrest : ∀ c ∈ rest.head?, isIdentifierContinue c = false) :
    Spells (IsToken numbers) (segmentText path) (segmentTokens path) rest := by
  induction path with
  | nil => exact .nil rest
  | cons segment path ih =>
    obtain ⟨hsegment, hpath⟩ := forall_mem_cons.mp hpath
    have hword : IsToken numbers segment.toList (keywordOrIdentifier segment.toList) (segmentText path ++ rest) :=
      isToken_word hsegment (head_segmentText path hrest)
    exact Spells.char (isToken_dot _) (.token hword (ih hpath))

theorem spells_path {path : List String} (hpath : IsPath path)
    (hrest : ∀ c ∈ rest.head?, isIdentifierContinue c = false) :
    Spells (IsToken numbers) (joinPath path).toList (pathTokens path) rest := by
  cases path with
  | nil => exact absurd hpath id
  | cons first path =>
    obtain ⟨hfirst, hkeyword, hpath⟩ := hpath
    have hword : IsToken numbers first.toList (.identifier first) (segmentText path ++ rest) := by
      rw [← hkeyword]
      exact isToken_word hfirst (head_segmentText path hrest)
    rw [toList_joinPath]
    exact .token hword (spells_segments hpath hrest)

/-! ### String literals -/

/-- A scan of an encoded character that does not fail continues after it with the character added. -/
def Decodes (encoded : List Char) (c : Char) : Prop :=
  ∀ start fuel result position rest scanned, (encoded ++ rest).length < fuel →
    scanStringLoop '"' start fuel result ⟨position, encoded ++ rest⟩ = .ok scanned →
    ∃ fuel' position', rest.length < fuel' ∧
      scanStringLoop '"' start fuel' (result ++ [c]) ⟨position', rest⟩ = .ok scanned

/-- A scan of an encoded character continues after it with the character added. -/
def DecodesTo (encoded : List Char) (c : Char) : Prop :=
  ∀ start fuel result position rest, (encoded ++ rest).length < fuel → ∃ fuel' position', rest.length < fuel' ∧
    scanStringLoop '"' start fuel result ⟨position, encoded ++ rest⟩ =
      scanStringLoop '"' start fuel' (result ++ [c]) ⟨position', rest⟩

theorem DecodesTo.decodes {encoded : List Char} (h : DecodesTo encoded c) : Decodes encoded c := by
  intro start fuel result position rest _ hfuel hrun
  obtain ⟨fuel', position', hfuel', hstep⟩ := h start fuel result position rest hfuel
  exact ⟨fuel', position', hfuel', hstep ▸ hrun⟩

theorem decodesTo_escape {tail : List Char}
    (h : ∀ escapeStart position rest, ∃ position',
      scanEscape escapeStart ⟨position, tail ++ rest⟩ = .ok (c, ⟨position', rest⟩)) :
    DecodesTo ('\\' :: tail) c := by
  intro _ fuel _ position rest hfuel
  cases fuel with
  | zero => exact absurd hfuel (Nat.not_lt_zero _)
  | succ fuel =>
    obtain ⟨position', hescape⟩ := h (position + '\\'.utf8Size - 1) (position + '\\'.utf8Size) rest
    refine ⟨fuel, position', ?_, ?_⟩
    · simp only [cons_append, length_cons, length_append] at hfuel
      omega
    · rw [cons_append, scanStringLoop, bump]
      simp [hescape, bind, Except.bind]

theorem decodesTo_self (hquote : c ≠ '"') (hslash : c ≠ '\\') (hcontrol : isControl c = false) : DecodesTo [c] c := by
  intro _ fuel _ position _ hfuel
  cases fuel with
  | zero => exact absurd hfuel (Nat.not_lt_zero _)
  | succ fuel =>
    refine ⟨fuel, position + c.utf8Size, ?_, ?_⟩
    · simp only [singleton_append, length_cons] at hfuel
      omega
    · rw [singleton_append, scanStringLoop, bump]
      simp only [hquote, hslash, hcontrol, false_eq_true, ↓reduceIte]

theorem decodesTo_simple {escaped c : Char} (h : simpleEscape escaped = some c) : DecodesTo ['\\', escaped] c := by
  refine decodesTo_escape fun _ position _ => ⟨position + escaped.utf8Size, ?_⟩
  rw [singleton_append, scanEscape, bump]
  simp only [h]

theorem hexValue_digitChar : ∀ d < 16, hexValue (Nat.digitChar d) = some d := by decide

theorem scanHexQuad_hexQuad {n : Nat} (hn : n < 65536) (escapeStart position : Nat) (rest : List Char) :
    ∃ position', scanHexQuad escapeStart 4 0 ⟨position, hexQuad n ++ rest⟩ = .ok (n, ⟨position', rest⟩) := by
  have hdigit : ∀ k, hexValue (Nat.digitChar (k % 16)) = some (k % 16) :=
    fun k => hexValue_digitChar _ (Nat.mod_lt _ (by decide))
  have hvalue : (((0 * 16 + n / 4096 % 16) * 16 + n / 256 % 16) * 16 + n / 16 % 16) * 16 + n % 16 = n := by
    omega
  simp only [hexQuad, cons_append, nil_append, scanHexQuad, bump, Option.bind_some, hdigit]
  rw [hvalue]
  exact ⟨_, rfl⟩

theorem decodesTo_hexQuad (hc : c.toNat < 0xd800) : DecodesTo ('\\' :: 'u' :: hexQuad c.toNat) c := by
  refine decodesTo_escape fun escapeStart position rest => ?_
  obtain ⟨position', hquad⟩ :=
    scanHexQuad_hexQuad (show c.toNat < 65536 by omega) escapeStart (position + 1) rest
  have hfirst : scanEscape escapeStart ⟨position, 'u' :: hexQuad c.toNat ++ rest⟩ =
      scanUnicodeEscape escapeStart ⟨position + 1, hexQuad c.toNat ++ rest⟩ := rfl
  have hscalar : scanScalar escapeStart c.toNat ⟨position', rest⟩ = .ok (c.toNat, ⟨position', rest⟩) := by
    rw [scanScalar, if_neg (by omega), if_neg (by omega)]
  refine ⟨position', ?_⟩
  rw [hfirst, scanUnicodeEscape, hquad]
  change (scanScalar escapeStart c.toNat ⟨position', rest⟩ >>= _) = _
  rw [hscalar]
  change (if c.toNat.isValidChar then pure (Char.ofNat c.toNat, (⟨position', rest⟩ : Cursor)) else _) = _
  have hvalid : c.toNat.isValidChar := c.valid
  rw [if_pos hvalid, ofNat_toNat]
  rfl

theorem decodesTo_escapeChar (c : Char) : DecodesTo (escapeChar c) c := by
  have hsimple : ∀ {d escaped : Char}, simpleEscape escaped = some d → c = d → DecodesTo ['\\', escaped] c := by
    rintro _ _ h rfl
    exact decodesTo_simple h
  unfold escapeChar
  refine iteInduction (motive := (DecodesTo · c)) (hsimple rfl) fun hquote => ?_
  refine iteInduction (motive := (DecodesTo · c)) (hsimple rfl) fun hslash => ?_
  iterate 5 refine iteInduction (motive := (DecodesTo · c)) (hsimple rfl) fun _ => ?_
  refine iteInduction (motive := (DecodesTo · c)) (fun hcontrol => ?_) fun hcontrol => ?_
  · refine decodesTo_hexQuad ?_
    simp only [isControl, or_eq_true, and_eq_true, decide_eq_true_eq] at hcontrol
    omega
  · exact decodesTo_self hquote hslash (by simpa using hcontrol)

variable {encode : Char → List Char}

theorem scanStringLoop_flatMap (hencode : ∀ c, Decodes (encode c) c) (value : List Char)
    {start fuel position : Nat} {result rest : List Char} {scanned : List Char × Cursor}
    (hfuel : (value.flatMap encode ++ '"' :: rest).length < fuel)
    (hrun : scanStringLoop '"' start fuel result ⟨position, value.flatMap encode ++ '"' :: rest⟩ = .ok scanned) :
    scanned.1 = result ++ value ∧ scanned.2.remaining = rest := by
  induction value generalizing fuel position result with
  | nil =>
    cases fuel with
    | zero => exact absurd hfuel (Nat.not_lt_zero _)
    | succ =>
      cases hrun
      simp
  | cons c _ ih =>
    rw [flatMap_cons, append_assoc] at hfuel hrun
    obtain ⟨_, _, hfuel', hrun'⟩ := hencode c _ _ _ _ _ _ hfuel hrun
    obtain ⟨hresult, hremaining⟩ := ih hfuel' hrun'
    exact ⟨by rw [hresult]; simp, hremaining⟩

theorem mayScan_string (hencode : ∀ c, Decodes (encode c) c) (value : String) (rest : List Char) :
    MayScan numbers ('"' :: value.toList.flatMap encode ++ ['"']) (.string value) rest := by
  refine ⟨'"', _, rfl, by decide, fun position _ _ h => ?_⟩
  rw [cons_append, cons_append, append_assoc] at h
  change (scanString '"' ⟨position, '"' :: (value.toList.flatMap encode ++ '"' :: rest)⟩ >>= fun scanned =>
    pure (TokenKind.string scanned.1, scanned.2)) = _ at h
  obtain ⟨⟨_, _⟩, hscan, hreturn⟩ := bind_eq_ok.mp h
  obtain ⟨_, hloop, hresult⟩ := bind_eq_ok.mp hscan
  have hread := scanStringLoop_flatMap hencode value.toList (by simp) hloop
  cases hresult
  cases hreturn
  rw [hread.1]
  simp [hread.2]

theorem scanStringLoop_escaped (hencode : ∀ c, DecodesTo (encode c) c) (value : List Char)
    {start fuel position : Nat} {result rest : List Char}
    (hfuel : (value.flatMap encode ++ '"' :: rest).length < fuel) :
    ∃ position', scanStringLoop '"' start fuel result ⟨position, value.flatMap encode ++ '"' :: rest⟩ =
      .ok (result ++ value, ⟨position', rest⟩) := by
  induction value generalizing fuel position result with
  | nil =>
    cases fuel with
    | zero => exact absurd hfuel (Nat.not_lt_zero _)
    | succ => exact ⟨position + '"'.utf8Size, by rw [append_nil]; rfl⟩
  | cons c _ ih =>
    rw [flatMap_cons, append_assoc] at hfuel ⊢
    obtain ⟨fuel', middle, hfuel', hstep⟩ := hencode c start fuel result position _ hfuel
    obtain ⟨position', hloop⟩ := @ih fuel' middle (result ++ [c]) hfuel'
    exact ⟨position', by rw [hstep, hloop]; simp⟩

theorem isToken_string (hencode : ∀ c, DecodesTo (encode c) c) (value : String) (rest : List Char) :
    IsToken numbers ('"' :: value.toList.flatMap encode ++ ['"']) (.string value) rest := by
  refine ⟨'"', _, rfl, by decide, fun position => ?_⟩
  rw [cons_append, cons_append, append_assoc]
  obtain ⟨position', hloop⟩ := @scanStringLoop_escaped encode hencode value.toList position
    ((value.toList.flatMap encode ++ '"' :: rest).length + 1) (position + '"'.utf8Size) [] rest (Nat.lt_succ_self _)
  refine ⟨position', ?_⟩
  change (scanString '"' ⟨position, '"' :: (value.toList.flatMap encode ++ '"' :: rest)⟩ >>= fun scanned =>
    pure (TokenKind.string scanned.1, scanned.2)) = _
  have hscan : scanString '"' ⟨position, '"' :: (value.toList.flatMap encode ++ '"' :: rest)⟩ =
      .ok (String.ofList ([] ++ value.toList), ⟨position', rest⟩) := congrArg (· >>= _) hloop
  rw [hscan, nil_append, String.ofList_toList]
  rfl

/-! ### Numerals -/

def IsDigits (text : List Char) : Prop := text ≠ [] ∧ ∀ c ∈ text, c.isDigit = true

/-- An integer part without leading zeros. -/
def IsIntegerPart (text : List Char) : Prop := text = ['0'] ∨ (IsDigits text ∧ text.head? ≠ some '0')

def IsFraction (text : List Char) : Prop := text = [] ∨ ∃ digits, text = '.' :: digits ∧ IsDigits digits

def IsExponent (text : List Char) : Prop :=
  text = [] ∨ ∃ letter sign digits, text = letter :: (sign ++ digits) ∧ (letter = 'e' ∨ letter = 'E') ∧
    (sign = [] ∨ sign = ['+'] ∨ sign = ['-']) ∧ IsDigits digits

/-- The numerals of the expression language, and of JSON. -/
def IsNumeral (text : List Char) : Prop :=
  ∃ sign integer fraction exponent, text = sign ++ (integer ++ (fraction ++ exponent)) ∧
    (sign = [] ∨ sign = ['-']) ∧ IsIntegerPart integer ∧ IsFraction fraction ∧ IsExponent exponent

def NoDigit (rest : List Char) : Prop := ∀ c ∈ rest.head?, c.isDigit = false

theorem Delimited.noDigit (h : Delimited rest) : NoDigit rest :=
  h.not_of (by decide) (by decide)

theorem IsDigits.cons (h : IsDigits text) : ∃ c cs, text = c :: cs ∧ c.isDigit = true ∧ ∀ d ∈ cs, d.isDigit = true := by
  cases text with
  | nil => exact absurd rfl h.1
  | cons c cs => exact ⟨c, cs, rfl, forall_mem_cons.mp h.2⟩

theorem IsExponent.head (h : IsExponent text) (hrest : Delimited rest) :
    ∀ c ∈ (text ++ rest).head?, c.isDigit = false ∧ c ≠ '.' := by
  rcases h with rfl | ⟨_, _, _, rfl, rfl | rfl, -⟩
  · intro c hc
    exact ⟨hrest.noDigit c hc, hrest.of_ne (by decide) (by decide) c hc⟩
  all_goals
    intro c hc
    cases hc
    decide

theorem IsFraction.noDigit (h : IsFraction text) (hrest : NoDigit rest) : NoDigit (text ++ rest) := by
  rcases h with rfl | ⟨_, rfl, -⟩
  · exact hrest
  · intro c hc
    cases hc
    decide

theorem IsIntegerPart.cons (h : IsIntegerPart text) : ∃ c cs, text = c :: cs ∧ c.isDigit = true := by
  rcases h with rfl | ⟨hdigits, -⟩
  · exact ⟨'0', [], rfl, rfl⟩
  · obtain ⟨c, cs, rfl, hc, -⟩ := hdigits.cons
    exact ⟨c, cs, rfl, hc⟩

theorem IsIntegerPart.scan (h : IsIntegerPart text) (hrest : NoDigit rest) (start : Cursor) (position : Nat) :
    ∃ position', scanIntegerPart start ⟨position, text ++ rest⟩ = .ok ⟨position', rest⟩ := by
  rcases h with rfl | ⟨hdigits, hzero⟩
  · have hpeek : (⟨position + '0'.utf8Size, rest⟩ : Cursor).peekIs isDigit = false := by
      cases rest with
      | nil => rfl
      | cons c => exact hrest c rfl
    refine ⟨position + '0'.utf8Size, ?_⟩
    rw [singleton_append, scanIntegerPart, takeIf_cons]
    simp only [hpeek, rejectIf, bind, Except.bind, pure, Except.pure, false_eq_true, ↓reduceIte]
  · obtain ⟨position', hskip⟩ := skipWhile_append hdigits.2 hrest position
    refine ⟨position', ?_⟩
    have htake : (⟨position, text ++ rest⟩ : Cursor).takeIf '0' = (false, ⟨position, text ++ rest⟩) := by
      refine takeIf_of_ne (fun c hc => ?_) position
      rw [head?_append_of_ne_nil _ hdigits.1] at hc
      rintro rfl
      exact hzero hc
    rw [scanIntegerPart, htake]
    simp only [hskip]

theorem IsFraction.scan (h : IsFraction text) (hrest : NoDigit rest)
    (hdot : ∀ c ∈ rest.head?, c ≠ '.') (start : Cursor) (position : Nat) :
    ∃ position', scanFraction start ⟨position, text ++ rest⟩ = .ok ⟨position', rest⟩ := by
  rcases h with rfl | ⟨_, rfl, hdigits⟩
  · refine ⟨position, ?_⟩
    rw [nil_append, scanFraction, takeIf_of_ne hdot]
  · obtain ⟨position', hskip⟩ := skipWhile_append hdigits.2 hrest (position + '.'.utf8Size)
    obtain ⟨c, cs, rfl, hc, -⟩ := hdigits.cons
    refine ⟨position', ?_⟩
    have hpeek : (⟨position + '.'.utf8Size, c :: cs ++ rest⟩ : Cursor).peekIs isDigit = true := hc
    rw [cons_append, scanFraction, takeIf_cons]
    simp only [hpeek, hskip, rejectIf, bind, Except.bind, pure, Except.pure, Bool.not_true,
      false_eq_true, ↓reduceIte]

theorem IsExponent.scan (h : IsExponent text) (hrest : Delimited rest) (start : Cursor) (position : Nat) :
    ∃ position', scanExponent start ⟨position, text ++ rest⟩ = .ok ⟨position', rest⟩ := by
  rcases h with rfl | ⟨letter, sign, digits, rfl, hletter, hsign, hdigits⟩
  · refine ⟨position, ?_⟩
    have hpeek : (⟨position, rest⟩ : Cursor).peekIs (fun c => c = 'e' || c = 'E') = false := by
      cases rest with
      | nil => rfl
      | cons c => rcases hrest c rfl with rfl | rfl <;> rfl
    rw [nil_append, scanExponent, if_neg (by rw [hpeek]; exact Bool.false_ne_true)]
  · have hpeek : (⟨position, letter :: (sign ++ digits) ++ rest⟩ : Cursor).peekIs
        (fun c => c = 'e' || c = 'E') = true := by
      rcases hletter with rfl | rfl <;> rfl
    rw [scanExponent, if_pos hpeek]
    -- after the letter and the sign the digits are left
    obtain ⟨middle, hmiddle⟩ : ∃ middle,
        (if (⟨position, letter :: (sign ++ digits) ++ rest⟩ : Cursor).skip.peekIs (fun c => c = '+' || c = '-')
          then (⟨position, letter :: (sign ++ digits) ++ rest⟩ : Cursor).skip.skip
          else (⟨position, letter :: (sign ++ digits) ++ rest⟩ : Cursor).skip) = ⟨middle, digits ++ rest⟩ := by
      obtain ⟨c, cs, rfl, hc, -⟩ := hdigits.cons
      rcases hsign with rfl | rfl | rfl
      · have hnosign : (⟨position, letter :: ([] ++ c :: cs) ++ rest⟩ : Cursor).skip.peekIs
            (fun c => c = '+' || c = '-') = false := by
          change (decide (c = '+') || decide (c = '-')) = false
          rw [Bool.or_eq_false_iff, decide_eq_false_iff_not, decide_eq_false_iff_not]
          constructor
          · rintro rfl
            cases hc
          · rintro rfl
            cases hc
        rw [hnosign]
        exact ⟨_, rfl⟩
      · exact ⟨_, rfl⟩
      · exact ⟨_, rfl⟩
    obtain ⟨position', hskip⟩ := skipWhile_append hdigits.2 hrest.noDigit middle
    refine ⟨position', ?_⟩
    have hdigit : (⟨middle, digits ++ rest⟩ : Cursor).peekIs isDigit = true := by
      obtain ⟨_, _, rfl, hc, -⟩ := hdigits.cons
      exact hc
    simp only [hmiddle, hdigit, hskip, rejectIf, bind, Except.bind, pure, Except.pure, Bool.not_true,
      false_eq_true, ↓reduceIte]

/-- The token of a numeral; a numeral that is out of range is no token. -/
def numeralToken (numbers : NumberText) (text : List Char) : TokenKind :=
  match numbers.parse text with
  | some x => if h : |x.toRat| ≤ maxExactExpressionNumber then .number ⟨x.toRat, h⟩ else .null
  | none => .null

theorem IsNumeral.scanParts (h : IsNumeral text) (hrest : Delimited rest) (position : Nat)
    {start : Cursor} (hstart : start = ⟨position, text ++ rest⟩) :
    ∃ second third position', scanIntegerPart start (start.takeIf '-').2 = .ok second ∧
      scanFraction start second = .ok third ∧ scanExponent start third = .ok ⟨position', rest⟩ := by
  obtain ⟨_, integer, fraction, exponent, htext, hsign, hinteger, hfraction, hexponent⟩ := h
  have hafter := hexponent.head hrest
  obtain ⟨first, hfirst⟩ : ∃ first, (start.takeIf '-').2 =
      ⟨first, integer ++ (fraction ++ (exponent ++ rest))⟩ := by
    subst hstart htext
    rcases hsign with rfl | rfl
    · refine ⟨position, ?_⟩
      rw [takeIf_of_ne]
      · simp
      · obtain ⟨c, _, rfl, hc⟩ := hinteger.cons
        intro d hd
        cases hd
        rintro rfl
        cases hc
    · refine ⟨position + '-'.utf8Size, ?_⟩
      rw [append_assoc, singleton_append, takeIf_cons]
      simp
  obtain ⟨second, hsecond⟩ := hinteger.scan (hfraction.noDigit fun c hc => (hafter c hc).1) start first
  obtain ⟨third, hthird⟩ := hfraction.scan (fun c hc => (hafter c hc).1) (fun c hc => (hafter c hc).2)
    start second
  obtain ⟨fourth, hfourth⟩ := hexponent.scan hrest start third
  exact ⟨_, _, fourth, hfirst ▸ hsecond, hthird, hfourth⟩

theorem IsNumeral.scan (h : IsNumeral text) (hrest : Delimited rest) (position : Nat)
    {value : ExactNumber} {next : Cursor} (hscan : scanNumber numbers ⟨position, text ++ rest⟩ = .ok (value, next)) :
    numeralToken numbers text = .number value ∧ next.remaining = rest := by
  obtain ⟨_, _, _, hsecond, hthird, hfourth⟩ := h.scanParts hrest position rfl
  simp only [scanNumber, hsecond, hthird, hfourth, bind_eq_ok, exists_unit, okOr_eq_ok, rejectIf_eq_ok,
    Except.ok.injEq, exists_eq_left', textTo_append] at hscan
  obtain ⟨_, hx, -, hreturn⟩ := hscan
  split at hreturn
  · rename_i hrange
    cases hreturn
    simp [numeralToken, hx, hrange]
  · cases hreturn

theorem IsNumeral.start (h : IsNumeral text) :
    ∃ c cs, text = c :: cs ∧ (c.isDigit = true ∨ (c = '-' ∧ ∃ d ds, cs = d :: ds ∧ d.isDigit = true)) := by
  obtain ⟨_, _, _, _, rfl, hsign, hinteger, -⟩ := h
  obtain ⟨c, _, rfl, hc⟩ := hinteger.cons
  rcases hsign with rfl | rfl
  · exact ⟨c, _, rfl, .inl hc⟩
  · exact ⟨'-', _, rfl, .inr ⟨rfl, c, _, rfl, hc⟩⟩

theorem isDigit_range (hc : c.isDigit = true) : 48 ≤ c.toNat ∧ c.toNat ≤ 57 := by
  simp only [isDigit, and_eq_true, decide_eq_true_eq, UInt32.le_iff_toNat_le] at hc
  exact hc

theorem IsNumeral.isWhitespace {cs : List Char} (h : IsNumeral (c :: cs)) : isWhitespace c = false := by
  obtain ⟨_, _, hcons, hstart⟩ := h.start
  cases hcons
  rcases hstart with hc | ⟨rfl, -⟩
  · have hrange := isDigit_range hc
    simp only [Expression.isWhitespace, Bool.or_eq_false_iff, Bool.and_eq_false_iff, decide_eq_false_iff_not]
    omega
  · decide

theorem IsNumeral.scanToken {cs : List Char} (h : IsNumeral (c :: cs)) (position : Nat) (rest : List Char) :
    scanToken numbers ⟨position, c :: cs ++ rest⟩ c = scanNumber numbers ⟨position, c :: cs ++ rest⟩ >>= fun scanned =>
        pure (TokenKind.number scanned.1, scanned.2) := by
  obtain ⟨_, _, hcons, hstart⟩ := h.start
  cases hcons
  rcases hstart with hc | ⟨rfl, d, ds, rfl, hd⟩
  · have hrange := isDigit_range hc
    have hne : ∀ d : Char, d.toNat < 48 ∨ 57 < d.toNat → c ≠ d := by
      rintro d hd rfl
      omega
    simp only [Expression.scanToken, hne '(' (by decide), hne ')' (by decide), hne '.' (by decide),
      hne '!' (by decide), hne '=' (by decide), hne '<' (by decide), hne '>' (by decide),
      hne '&' (by decide), hne '|' (by decide), hne '\'' (by decide), hne '"' (by decide), hc, or_self,
      or_true, ↓reduceIte]
  · have hpeek : (⟨position, '-' :: d :: ds ++ rest⟩ : Cursor).skip.peekIs isDigit = true := hd
    simp only [Expression.scanToken, hpeek]
    rfl

theorem mayScan_numeral (htext : IsNumeral text) (hrest : Delimited rest) :
    MayScan numbers text (numeralToken numbers text) rest := by
  obtain ⟨c, cs, rfl, -⟩ := htext.start
  refine ⟨c, cs, rfl, htext.isWhitespace, fun position _ _ h => ?_⟩
  rw [htext.scanToken] at h
  obtain ⟨⟨_, _⟩, hnumber, hreturn⟩ := bind_eq_ok.mp h
  cases hreturn
  obtain ⟨htoken, hremaining⟩ := htext.scan hrest position hnumber
  exact ⟨htoken.symm, hremaining⟩

theorem isToken_numeral (htext : IsNumeral text) (hrest : Delimited rest) {x : F64}
    (hx : numbers.parse text = some x) (hfinite : x.isFinite = true) (hrange : |x.toRat| ≤ maxExactExpressionNumber) :
    IsToken numbers text (.number ⟨x.toRat, hrange⟩) rest := by
  obtain ⟨c, cs, rfl, -⟩ := htext.start
  refine ⟨c, cs, rfl, htext.isWhitespace, fun position => ?_⟩
  obtain ⟨_, _, finish, hsecond, hthird, hfourth⟩ :=
    htext.scanParts hrest position rfl
  refine ⟨finish, ?_⟩
  have hnumber : scanNumber numbers ⟨position, c :: cs ++ rest⟩ = .ok (⟨x.toRat, hrange⟩, ⟨finish, rest⟩) := by
    simp only [scanNumber, bind, Except.bind, hsecond, hthird, hfourth, textTo_append, hx, okOr,
      rejectIf, hfinite, hrange, Bool.true_eq_false, ↓reduceIte, ↓reduceDIte]
    rfl
  rw [htext.scanToken, hnumber]
  rfl

theorem head_toDigits_ne {n : Nat} (hn : 0 < n) : (Nat.toDigits 10 n).head? ≠ some '0' := by
  induction n using Nat.strong_induction_on with
  | h n ih =>
    rcases Nat.lt_or_ge n 10 with hlt | hge
    · rw [Nat.toDigits_of_lt_base hlt, head?_cons]
      have hdigit : ∀ d < 10, 0 < d → Nat.digitChar d ≠ '0' := by decide
      exact fun heq => hdigit n hlt hn (Option.some.inj heq)
    · rw [Nat.toDigits_of_base_le (by decide) hge, head?_append_of_ne_nil _ Nat.toDigits_ne_nil]
      exact ih (n / 10) (by omega) (by omega)

theorem isIntegerPart_toString (n : Nat) : IsIntegerPart (toString n).toList := by
  rw [Nat.toString_eq_ofList_toDigits, String.toList_ofList]
  rcases Nat.eq_zero_or_pos n with rfl | hn
  · exact .inl rfl
  · exact .inr ⟨⟨Nat.toDigits_ne_nil, fun _ => Nat.isDigit_of_mem_toDigits (by decide) (by decide)⟩,
      head_toDigits_ne hn⟩

theorem isNumeral_toString (n : Int) : IsNumeral (toString n).toList := by
  cases n with
  | ofNat n =>
    refine ⟨[], (toString n).toList, [], [], ?_, .inl rfl, isIntegerPart_toString n, .inl rfl, .inl rfl⟩
    simp only [nil_append, append_nil]
    rfl
  | negSucc n =>
    refine ⟨['-'], (toString (n + 1)).toList, [], [], ?_, .inr rfl, isIntegerPart_toString (n + 1), .inl rfl,
      .inl rfl⟩
    change ("-" ++ toString (n + 1)).toList = _
    simp

/-! ### What follows a printed tree -/

variable {rest : List TokenKind}

/-- The token after a printed tree. -/
def Follows (rest : List TokenKind) : Prop :=
  ∀ kind ∈ rest.head?, kind = .rightParenthesis ∨ kind = .endOfInput ∨
    ∃ operator : BinaryOperator, kind = operator.token

theorem follows_cons
    (h : kind = .rightParenthesis ∨ kind = .endOfInput ∨ ∃ operator : BinaryOperator, kind = operator.token) :
    Follows (kind :: rest) := by
  intro _ hkind'
  cases hkind'
  exact h

theorem Follows.segmentName (h : Follows rest) : ∀ kind ∈ rest.head?, kind ≠ .dot ∧ segmentName kind = none := by
  intro kind hkind
  rcases h kind hkind with rfl | rfl | ⟨operator, rfl⟩
  · exact ⟨TokenKind.noConfusion, rfl⟩
  · exact ⟨TokenKind.noConfusion, rfl⟩
  · cases operator <;> exact ⟨TokenKind.noConfusion, rfl⟩

theorem Follows.segmentsOf (h : Follows rest) : segmentsOf rest = ([], rest) := by
  rw [Expression.segmentsOf]
  rintro _ _ rfl
  exact (h.segmentName .dot rfl).1 rfl

theorem Follows.segmentsOf_dot (h : Follows rest) : Expression.segmentsOf (.dot :: rest) = ([], .dot :: rest) := by
  cases rest with
  | nil => rw [Expression.segmentsOf]; simp
  | cons kind =>
    rw [Expression.segmentsOf]
    simp [(h.segmentName kind rfl).2]

theorem delimited_nil : Delimited [] := fun _ h => absurd h (Option.not_mem_none _)

theorem delimited_space (rest : List Char) : Delimited (' ' :: rest) := by
  intro c hc
  cases hc
  exact .inl rfl

theorem delimited_close (rest : List Char) : Delimited (')' :: rest) := by
  intro c hc
  cases hc
  exact .inr rfl

/-! ### Printed trees -/

structure NumberText.WritesNumerals (numbers : NumberText) : Prop where
  write : ∀ number : ExactNumber, number.value ≠ 0 → IsNumeral (numbers.write number.value)
  writeJson : ∀ x : F64, x.isFinite = true → IsNumeral (numbers.writeJson x)

section
variable (hT : ∀ {text kind rest}, IsToken numbers text kind rest → T text kind rest)
include hT

theorem Spells.parenthesized {text rest : List Char} {kinds : List TokenKind} (h : Spells T text kinds (')' :: rest)) :
    Spells T ('(' :: text ++ [')']) (.leftParenthesis :: kinds ++ [.rightParenthesis]) rest := by
  have hclose : Spells T [')'] [.rightParenthesis] rest := .single (hT (isToken_rightParenthesis rest))
  exact Spells.char (hT (isToken_leftParenthesis _)) (h.append hclose)

theorem Spells.not {text rest : List Char} {kinds : List TokenKind} (h : Spells T text kinds rest)
    (hstart : ∃ c cs, text = c :: cs ∧ c ≠ '=') : Spells T ('!' :: text) (.bang :: kinds) rest := by
  refine Spells.char (hT (isToken_bang ?_)) h
  obtain ⟨_, _, rfl, hc⟩ := hstart
  rintro _ ⟨⟩
  exact hc

theorem Spells.operator {left right rest : List Char} {kinds kinds' : List TokenKind} {operator : BinaryOperator}
    (h : Spells T left kinds (' ' :: (operator.text.toList ++ ' ' :: right ++ rest)))
    (h' : Spells T right kinds' rest) :
    Spells T (left ++ ' ' :: operator.text.toList ++ ' ' :: right) (kinds ++ operator.token :: kinds') rest := by
  have hoperator : Spells T (operator.text.toList ++ ' ' :: right) (operator.token :: kinds') rest :=
    .token (hT (isToken_operator operator _)) (.space h')
  rw [append_assoc]
  exact h.append (.space hoperator)

end

/-- A text that is lexed into tokens that hold the paths `found`, wherever a printed tree may stand. -/
structure HoldsAs (numbers : NumberText) (text : List Char) (kinds : List TokenKind)
    (found : List (List String)) : Prop where
  start : ∃ c cs, text = c :: cs ∧ c ≠ '='
  spells : ∀ rest, Delimited rest → Spells (MayScan numbers) text kinds rest
  holds : ∀ rest, Follows rest → lookupsOf (kinds ++ rest) = found ++ lookupsOf rest

/-- A text that holds nothing but paths with the property `P`. -/
def Holds (numbers : NumberText) (P : List String → Prop) (text : List Char) : Prop :=
  ∃ kinds found, HoldsAs numbers text kinds found ∧ ∀ path ∈ found, P path

variable {P : List String → Prop}

theorem IsWord.start (h : IsWord word) : ∃ c cs, word = c :: cs ∧ c ≠ '=' := by
  obtain ⟨c, cs, rfl, hc, -⟩ := h
  exact ⟨c, cs, rfl, isIdentifierStart_ne hc (by decide)⟩

theorem Holds.token (hstart : ∃ c cs, text = c :: cs ∧ c ≠ '=')
    (htoken : ∀ rest, Delimited rest → MayScan numbers text kind rest)
    (hkind : ∀ name, kind ≠ .identifier name) : Holds numbers P text :=
  ⟨[kind], [], ⟨hstart, fun rest hrest => .single (htoken rest hrest), fun rest _ => lookupsOf_skip hkind rest⟩,
    fun _ h => absurd h not_mem_nil⟩

theorem Holds.keyword (h : IsWord word)
    (hkeyword : ∀ name, keywordOrIdentifier word ≠ .identifier name) : Holds numbers P word :=
  Holds.token h.start (fun _ hrest => (isToken_word h (hrest.not_of (by decide) (by decide))).mayScan) hkeyword

theorem Holds.numeral (h : IsNumeral text) : Holds numbers P text := by
  refine Holds.token ?_ (fun _ hrest => mayScan_numeral h hrest) fun _ => ?_
  · obtain ⟨c, cs, rfl, hstart⟩ := h.start
    refine ⟨c, cs, rfl, ?_⟩
    rintro rfl
    rcases hstart with hdigit | ⟨hminus, -⟩
    · exact absurd hdigit (by decide)
    · exact absurd hminus (by decide)
  · unfold numeralToken
    split
    · split
      · exact TokenKind.noConfusion
      · exact TokenKind.noConfusion
    · exact TokenKind.noConfusion

theorem Holds.string (hencode : ∀ c, Decodes (encode c) c) (value : String) :
    Holds numbers P ('"' :: value.toList.flatMap encode ++ ['"']) :=
  Holds.token ⟨'"', _, rfl, by decide⟩ (fun rest _ => mayScan_string hencode value rest)
    fun _ => TokenKind.noConfusion

theorem Holds.path {path : List String} (h : IsPath path) (hP : P path) : Holds numbers P (joinPath path).toList := by
  cases path with
  | nil => exact absurd h id
  | cons first rest =>
    obtain ⟨c, cs, hfirst, hc⟩ := h.1.start
    refine ⟨pathTokens (first :: rest), [first :: rest], ⟨?_, fun _ hrest => ?_, fun _ hrest => ?_⟩,
      forall_mem_singleton.mpr hP⟩
    · exact ⟨c, cs ++ segmentText rest, by rw [toList_joinPath, hfirst, cons_append], hc⟩
    · exact (spells_path h (hrest.not_of (by decide) (by decide))).mono IsToken.mayScan
    · exact lookupsOf_pathTokens (cons_ne_nil _ _) hrest.segmentsOf

theorem isNumeral_zero : IsNumeral ['0'] :=
  ⟨[], ['0'], [], [], rfl, .inl rfl, .inl rfl, .inl rfl, .inl rfl⟩

theorem NumberText.WritesNumerals.literal (hnumbers : numbers.WritesNumerals) (number : ExactNumber) :
    IsNumeral (if number.value = 0 then ['0'] else numbers.write number.value) := by
  split
  · exact isNumeral_zero
  · rename_i hzero
    exact hnumbers.write number hzero

theorem isWord_keyword (h : word = "null".toList ∨ word = "true".toList ∨ word = "false".toList) : IsWord word := by
  rcases h with rfl | rfl | rfl
  · exact ⟨'n', ['u', 'l', 'l'], by decide, by decide, all_eq_true.mp rfl⟩
  · exact ⟨'t', ['r', 'u', 'e'], by decide, by decide, all_eq_true.mp rfl⟩
  · exact ⟨'f', ['a', 'l', 's', 'e'], by decide, by decide, all_eq_true.mp rfl⟩

theorem Holds.boolean (value : Bool) : Holds numbers P (if value then "true".toList else "false".toList) := by
  cases value with
  | false => exact Holds.keyword (isWord_keyword (.inr (.inr rfl))) fun _ => TokenKind.noConfusion
  | true => exact Holds.keyword (isWord_keyword (.inr (.inl rfl))) fun _ => TokenKind.noConfusion

theorem Holds.literal (hnumbers : numbers.WritesNumerals) (kind : ValueKind) :
    Holds numbers P (writeCanonicalLiteral numbers kind) := by
  cases kind with
  | null => exact Holds.keyword (isWord_keyword (.inl rfl)) fun _ => TokenKind.noConfusion
  | boolean value => exact Holds.boolean value
  | number number => exact Holds.numeral (hnumbers.literal number)
  | string value => exact Holds.string (fun c => (decodesTo_escapeChar c).decodes) value

theorem Holds.parenthesized (h : Holds numbers P text) : Holds numbers P ('(' :: text ++ [')']) := by
  obtain ⟨kinds, found, h, hfound⟩ := h
  refine ⟨.leftParenthesis :: kinds ++ [.rightParenthesis], found, ⟨⟨'(', _, rfl, by decide⟩, fun rest _ => ?_,
    fun rest _ => ?_⟩, hfound⟩
  · exact (h.spells _ (delimited_close rest)).parenthesized IsToken.mayScan
  · have hclose : lookupsOf (.rightParenthesis :: rest) = lookupsOf rest :=
      lookupsOf_skip (fun _ => TokenKind.noConfusion) rest
    rw [append_assoc, cons_append, lookupsOf_skip fun _ => TokenKind.noConfusion,
      singleton_append, h.holds _ (follows_cons (.inl rfl)), hclose]

theorem Holds.not (h : Holds numbers P text) : Holds numbers P ('!' :: text) := by
  obtain ⟨kinds, found, h, hfound⟩ := h
  refine ⟨.bang :: kinds, found, ⟨⟨'!', text, rfl, by decide⟩, fun rest hrest => ?_, fun rest hrest => ?_⟩,
    hfound⟩
  · exact (h.spells rest hrest).not IsToken.mayScan h.start
  · rw [cons_append, lookupsOf_skip fun _ => TokenKind.noConfusion, h.holds rest hrest]

theorem Holds.operator {left right : List Char} (h : Holds numbers P left) (operator : BinaryOperator)
    (h' : Holds numbers P right) : Holds numbers P (left ++ ' ' :: operator.text.toList ++ ' ' :: right) := by
  obtain ⟨kinds, found, h, hfound⟩ := h
  obtain ⟨kinds', found', h', hfound'⟩ := h'
  refine ⟨kinds ++ operator.token :: kinds', found ++ found', ⟨?_, fun rest hrest => ?_, fun rest hrest => ?_⟩,
    forall_mem_append.mpr ⟨hfound, hfound'⟩⟩
  · obtain ⟨c, _, rfl, hc⟩ := h.start
    exact ⟨c, _, rfl, hc⟩
  · exact (h.spells _ (delimited_space _)).operator IsToken.mayScan (h'.spells rest hrest)
  · have hskip : lookupsOf (operator.token :: (kinds' ++ rest)) = lookupsOf (kinds' ++ rest) :=
      lookupsOf_skip (fun _ => by cases operator <;> exact TokenKind.noConfusion) _
    rw [append_assoc, cons_append, h.holds _ (follows_cons (.inr (.inr ⟨operator, rfl⟩))), hskip,
      h'.holds rest hrest, append_assoc]

theorem SyntaxNode.holds (hnumbers : numbers.WritesNumerals) {write : List String → List Char}
    (node : SyntaxNode) (hlookups : ∀ path ∈ node.lookups, Holds numbers P (write path)) :
    Holds numbers P (node.writeWith numbers write) := by
  induction node with
  | literal value => exact Holds.literal hnumbers value.kind
  | lookup path => exact hlookups path (mem_singleton_self path)
  | unary operator _ _ _ ih =>
    cases operator
    exact (ih hlookups).not.parenthesized
  | binary operator _ _ _ _ ihl ihr =>
    have hleft := ihl fun path hpath => hlookups path (mem_append_left _ hpath)
    have hright := ihr fun path hpath => hlookups path (mem_append_right _ hpath)
    have hboth := (hleft.operator operator hright).parenthesized
    simpa [writeWith] using hboth

/-! ### The words and numbers that the lexer produces -/

def ExactNumber.IsDouble (number : ExactNumber) : Prop :=
  ∃ x : F64, x.isFinite = true ∧ number.value = x.toRat

/-- An identifier token holds a word that is no keyword, and a number token a double. -/
structure ValidKind (kind : TokenKind) : Prop where
  word : ∀ name, kind = .identifier name →
    IsWord name.toList ∧ keywordOrIdentifier name.toList = .identifier name
  number : ∀ number, kind = .number number → number.IsDouble

def TokenKind.isPlain : TokenKind → Bool
  | .identifier _ | .number _ => false
  | _ => true

theorem validKind_of_isPlain (h : kind.isPlain = true) : ValidKind kind := by
  constructor
  · rintro _ rfl
    cases h
  · rintro _ rfl
    cases h

theorem scanIdentifier_valid (hc : isIdentifierStart c = true) (position : Nat) (rest : List Char) :
    ValidKind (scanIdentifier ⟨position, c :: rest⟩).1 := by
  have hsplit : c :: rest = (c :: rest.takeWhile isIdentifierContinue) ++ rest.dropWhile isIdentifierContinue := by
    rw [cons_append, takeWhile_append_dropWhile]
  have htext : ∀ finish, (⟨position, c :: rest⟩ : Cursor).textTo
      ⟨finish, rest.dropWhile isIdentifierContinue⟩ = c :: rest.takeWhile isIdentifierContinue := by
    intro _
    conv_lhs => rw [hsplit]
    exact textTo_append _ _ _ _
  have hkind : (scanIdentifier ⟨position, c :: rest⟩).1 =
      keywordOrIdentifier (c :: rest.takeWhile isIdentifierContinue) := congrArg keywordOrIdentifier (htext _)
  rw [hkind]
  refine ⟨fun name hname => ?_, fun _ hnumber => ?_⟩
  swap
  · unfold keywordOrIdentifier at hnumber
    split_ifs at hnumber
  have hlist : name.toList = c :: rest.takeWhile isIdentifierContinue := by
    unfold keywordOrIdentifier at hname
    split_ifs at hname
    cases hname
    exact String.toList_ofList
  rw [hlist]
  exact ⟨⟨c, _, rfl, hc, fun d hd => mem_takeWhile_imp hd⟩, hname⟩

def ScansValid (scan : Except ParseError (TokenKind × Cursor)) : Prop :=
  ∀ kind next, scan = .ok (kind, next) → ValidKind kind

theorem scansValid_ok {next : Cursor} (h : kind.isPlain = true) : ScansValid (.ok (kind, next)) := by
  intro _ _ hscan
  cases hscan
  exact validKind_of_isPlain h

theorem scanOperator_valid {start : Cursor} {second : Char} {long : TokenKind}
    {short : Cursor → Except ParseError TokenKind} (hlong : long.isPlain = true)
    (hshort : ∀ cursor kind, short cursor = .ok kind → kind.isPlain = true) :
    ScansValid (scanOperator start second long short) := by
  intro _ _ h
  unfold scanOperator at h
  split at h
  · cases h
    exact validKind_of_isPlain hlong
  · obtain ⟨_, hkind', hreturn⟩ := bind_eq_ok.mp h
    cases hreturn
    exact validKind_of_isPlain (hshort _ _ hkind')

theorem scanNumber_isDouble {start next : Cursor} {number : ExactNumber}
    (h : scanNumber numbers start = .ok (number, next)) : number.IsDouble := by
  simp only [scanNumber, bind_eq_ok, exists_unit, okOr_eq_ok, rejectIf_eq_ok, Bool.not_eq_false] at h
  obtain ⟨_, -, _, -, _, -, x, -, hfinite, hreturn⟩ := h
  split at hreturn
  · cases hreturn
    exact ⟨x, hfinite, rfl⟩
  · cases hreturn

theorem scanToken_valid (position : Nat) (c : Char) (rest : List Char) :
    ScansValid (scanToken numbers ⟨position, c :: rest⟩ c) := by
  unfold scanToken
  refine iteInduction (fun _ => scansValid_ok rfl) fun _ => ?_
  refine iteInduction (fun _ => scansValid_ok rfl) fun _ => ?_
  refine iteInduction (fun _ => scansValid_ok rfl) fun _ => ?_
  -- the six operators, of one or two characters
  refine iteInduction (fun _ => scanOperator_valid rfl fun _ _ hshort => by cases hshort; rfl) fun _ => ?_
  refine iteInduction (fun _ => scanOperator_valid rfl fun _ _ hshort => by cases hshort) fun _ => ?_
  refine iteInduction (fun _ => scanOperator_valid rfl fun _ _ hshort => by cases hshort; rfl) fun _ => ?_
  refine iteInduction (fun _ => scanOperator_valid rfl fun _ _ hshort => by cases hshort; rfl) fun _ => ?_
  refine iteInduction (fun _ => scanOperator_valid rfl fun _ _ hshort => by cases hshort) fun _ => ?_
  refine iteInduction (fun _ => scanOperator_valid rfl fun _ _ hshort => by cases hshort) fun _ => ?_
  refine iteInduction (fun _ kind next h => ?_) fun _ => ?_
  · obtain ⟨⟨_, cursor⟩, -, hreturn⟩ := bind_eq_ok.mp h
    cases hreturn
    exact validKind_of_isPlain rfl
  refine iteInduction (fun _ kind next h => ?_) fun _ => ?_
  · obtain ⟨⟨_, _⟩, hnumber, hreturn⟩ := bind_eq_ok.mp h
    cases hreturn
    refine ⟨fun _ => TokenKind.noConfusion, ?_⟩
    rintro _ ⟨⟩
    exact scanNumber_isDouble hnumber
  refine iteInduction (fun hc _ _ h => ?_) fun _ => ?_
  · have hvalid := scanIdentifier_valid hc position rest
    rw [Except.ok.inj h] at hvalid
    exact hvalid
  · refine iteInduction (fun _ _ _ h => ?_) fun _ _ _ h => ?_
    · cases h
    · cases h

variable {fuel : Nat}

theorem tokenizeLoop_valid {tokens result : List Token} {cursor : Cursor}
    (htokens : ∀ kind ∈ kindsOf tokens, ValidKind kind) (h : tokenizeLoop numbers fuel tokens cursor = .ok result) :
    ∀ kind ∈ kindsOf result, ValidKind kind := by
  have hadd : ∀ {tokens : List Token} {token : Token}, (∀ kind ∈ kindsOf tokens, ValidKind kind) →
      ValidKind token.kind → ∀ kind ∈ kindsOf (tokens ++ [token]), ValidKind kind := by
    intro tokens _ htokens htoken kind hkind
    rw [kindsOf, map_append] at hkind
    rcases mem_append.mp hkind with hold | hnew
    · exact htokens kind hold
    · cases mem_singleton.mp hnew
      exact htoken
  induction fuel generalizing tokens cursor with
  | zero =>
    cases h
    exact hadd htokens (validKind_of_isPlain rfl)
  | succ _ ih =>
    obtain ⟨position, remaining⟩ := cursor
    cases remaining with
    | nil =>
      cases h
      exact hadd htokens (validKind_of_isPlain rfl)
    | cons c rest =>
      rw [tokenizeLoop] at h
      dsimp only at h
      split_ifs at h
      · exact ih htokens h
      · simp only [bind_eq_ok, exists_unit, Prod.exists] at h
        obtain ⟨-, kind, next, hscan, hrest⟩ := h
        exact ih (hadd htokens (scanToken_valid position c rest kind next hscan)) hrest

theorem segmentName_word {name : String} (hkind : ValidKind kind) (h : segmentName kind = some name) :
    IsWord name.toList := by
  unfold segmentName at h
  split at h
  · cases h
    exact (hkind.word _ rfl).1
  · cases h
    exact isWord_keyword (.inl rfl)
  · cases h
    exact isWord_keyword (.inr (.inl rfl))
  · cases h
    exact isWord_keyword (.inr (.inr rfl))
  · cases h

theorem segmentsOf_words (hkinds : ∀ kind ∈ kinds, ValidKind kind) :
    (∀ name ∈ (segmentsOf kinds).1, IsWord name.toList) ∧ ∀ kind ∈ (segmentsOf kinds).2, ValidKind kind := by
  fun_induction segmentsOf kinds with
  | case1 segment _ _ hname ih =>
    have hsegment : ValidKind segment := hkinds segment (by simp)
    obtain ⟨hnames, hrest⟩ := ih fun kind hkind => hkinds kind (by simp [hkind])
    exact ⟨forall_mem_cons.mpr ⟨segmentName_word hsegment hname, hnames⟩, hrest⟩
  | case2 => exact ⟨fun _ h => absurd h not_mem_nil, hkinds⟩
  | case3 => exact ⟨fun _ h => absurd h not_mem_nil, hkinds⟩

theorem isPath_of_mem_lookupsOf (hkinds : ∀ kind ∈ kinds, ValidKind kind) : ∀ path ∈ lookupsOf kinds, IsPath path := by
  fun_induction lookupsOf kinds with
  | case1 => exact fun _ h => absurd h not_mem_nil
  | case2 first _ ih =>
    obtain ⟨hfirst, hrest⟩ := forall_mem_cons.mp hkinds
    obtain ⟨hnames, hafter⟩ := segmentsOf_words hrest
    obtain ⟨hword, hkeyword⟩ := hfirst.word first rfl
    exact forall_mem_cons.mpr ⟨⟨hword, hkeyword, hnames⟩, ih hafter⟩
  | case3 _ _ _ ih => exact ih (forall_mem_cons.mp hkinds).2

end Runtrue.Expression

namespace Runtrue

open Fallible Expression

variable {numbers : NumberText}

section
variable {expression : Expression} {source : String} (h : Expression.parse numbers source = .ok expression)
include h

theorem Expression.parse_lookups : ∃ tokens, tokenize numbers source.toList = .ok tokens ∧
      expression.root.lookups <+: lookupsOf (kindsOf tokens) := by
  simp only [Expression.parse, bind_eq_ok, exists_unit, pure_eq_ok] at h
  obtain ⟨-, tokens, htokens, _, hroot, rfl⟩ := h
  exact ⟨tokens, htokens, parseTokens_reads hroot⟩

theorem Expression.isPath_of_mem_lookups : ∀ path ∈ expression.root.lookups, IsPath path := by
  obtain ⟨_, htokens, hbegins⟩ := Expression.parse_lookups h
  have hvalid := tokenizeLoop_valid (fun _ hkind => absurd hkind List.not_mem_nil) htokens
  exact fun path hpath => isPath_of_mem_lookupsOf hvalid path (hbegins.subset hpath)

end

/-- **What is read back from a text looks up nothing but the paths that the text holds.** -/
theorem Expression.of_mem_lookups {P : List String → Prop} {text : String} {expression : Expression}
    (hholds : Holds numbers P text.toList) (h : Expression.parse numbers text = .ok expression) :
    ∀ path ∈ expression.root.lookups, P path := by
  obtain ⟨_, _, hholds, hfound⟩ := hholds
  obtain ⟨_, htokens, hbegins⟩ := Expression.parse_lookups h
  have hkinds := (hholds.spells [] delimited_nil).kindsOf_tokenize htokens
  have hend : lookupsOf [.endOfInput] = [] := by
    rw [lookupsOf_skip (fun _ => TokenKind.noConfusion), lookupsOf_nil]
  rw [hkinds, hholds.holds _ (follows_cons (.inr (.inl rfl))), hend, List.append_nil] at hbegins
  exact fun path hpath => hfound path (hbegins.subset hpath)

end Runtrue
