import ServerBoundary.Source.Comment
import ServerBoundary.Source.Literal
import ServerBoundary.Text.Part

/-!
# Tokens

`Token.scan` reads the token at the start of a text; `Gap.skip` passes the blanks and comments in
front of it and decides which token each comment belongs to. A text is read one token at a time,
since only the grammar knows whether a slash divides or opens a regular expression, or where text
between tags begins; what is read that way starts from `Lexeme.here`.
-/

namespace ServerBoundary.Source

/-- A token. A keyword is a `name`: only the grammar knows which names are words of it. -/
inductive Token where
  | name (text : String) (escaped : Bool)
  | privateName (text : String)
  | punct (text : String)
  | string (value raw : String) (octal : Bool)
  | number (raw : String) (octal : Bool)
  | bigint (raw : String)
  | regex (raw : String)
  | markupText (raw : String)
  | bad (e : SyntaxError)
  | eof
deriving DecidableEq, Repr

/-- The words that are never identifiers in a module. -/
def reservedWords : List String := [
  "await", "break", "case", "catch", "class", "const", "continue", "debugger", "default", "delete",
  "do", "else", "enum", "export", "extends", "false", "finally", "for", "function", "if", "import",
  "in", "instanceof", "new", "null", "return", "super", "switch", "this", "throw", "true", "try",
  "typeof", "var", "void", "while", "with", "yield"]

/-- The words that strict code, and so every module, may not use as identifiers. -/
def strictWords : List String := [
  "implements", "interface", "let", "package", "private", "protected", "public", "static"]

/-- Whether a word is a keyword of the language. -/
def isReserved (word : String) : Bool := reservedWords.contains word

/-- The punctuators, longest first. A `>` is always one token; `splitGreater` reads the longer
operators that start with it. -/
def punctuators : List String := [
  "...", "===", "!==", "**=", "<<=", "&&=", "||=", "??=",
  "=>", "==", "!=", "++", "--", "<<", "<=", "&&", "||", "??", "?.", "+=", "-=", "*=", "/=", "%=",
  "&=", "|=", "^=", "**",
  "\x7b", "\x7d", "(", ")", "[", "]", ";", ",", "<", ">", ":", "?", ".", "+", "-", "*", "/", "%",
  "&", "|", "^", "!", "~", "=", "@", "`"]

/-- The first of some texts that a text starts with, and what follows it. -/
def firstOf (texts : List String) (cs : List Char) : Option (String × List Char) :=
  texts.findSome? fun t => (Text.dropStart? t.toList cs).map fun r => (t, r)

/-- The operator at the start of a text that begins with `>`. -/
def splitGreater (cs : List Char) : Option (String × List Char) :=
  firstOf [">>>=", ">>>", ">>=", ">>", ">=", ">"] cs

/-- Splits after a name: its characters with escapes resolved, whether there were escapes, and the
rest. The first argument is the value of an escape in braces that is being read. -/
def splitName : Option Nat → List Char → List Char × Bool × List Char
  | some code, c :: rest =>
    if c == '}' then
      let (t, _, r) := splitName none rest
      (Char.ofNat code :: t, true, r)
    else splitName (some (16 * code + (hexValue? c).getD 0)) rest
  | none, '\x5c' :: 'u' :: '{' :: rest => splitName (some 0) rest
  | none, '\x5c' :: 'u' :: a :: b :: c :: d :: rest =>
    let (t, _, r) := splitName none rest
    (Char.ofNat (hexNumber [a, b, c, d]) :: t, true, r)
  | none, c :: rest =>
    if isNamePart c then
      let (t, e, r) := splitName none rest
      (c :: t, e, r)
    else ([], false, c :: rest)
  | _, [] => ([], false, [])

namespace Token

/-- Whether a text starts with a digit. -/
def startsWithDigit : List Char → Bool
  | d :: _ => d.isDigit
  | [] => false

/-- The number at the start of a text. A name may not follow it without a gap. -/
def scanNumber (cs : List Char) : Token × List Char :=
  let (raw, big, rest) := splitNumber cs
  let follows := match rest with
    | c :: _ => isNameStart c || c.isDigit
    | [] => false
  if follows then (bad .nameAfterNumber, rest)
  else
    let text := String.ofList raw
    let octal := match raw with
      | '0' :: d :: _ => d.isDigit
      | _ => false
    (if big then bigint text else number text octal, rest)

/-- The string at the start of a text that begins with its quote. -/
def scanString (quote : Char) (cs : List Char) : Token × List Char :=
  match splitString quote cs with
  | none => (bad .unterminatedString, [])
  | some (inside, rest) =>
    (string (cook inside) (String.ofList (quote :: inside ++ [quote])) (hasOctalEscape inside), rest)

/-- The punctuator at the start of a text. A `?.` before a digit is a question mark. -/
def scanPunct (cs : List Char) : Token × List Char :=
  match firstOf punctuators cs with
  | some (p, rest) =>
    if p == "?." && startsWithDigit rest then (punct "?", cs.drop 1) else (punct p, rest)
  | none => (bad (.unexpectedCharacter (cs.headD ' ')), cs.drop 1)

/-- The token at the start of a text that starts with neither a blank nor a comment, and what
follows it. -/
def scan (cs : List Char) : Token × List Char :=
  match cs with
  | [] => (eof, [])
  | c :: rest =>
    if isNameStart c || c == '\x5c' then
      let (t, e, r) := splitName none cs
      if t.isEmpty then (bad (.unexpectedCharacter c), rest)
      else if isNameText t then (name (String.ofList t) e, r)
      else (bad .nameCharacter, r)
    else if c.isDigit || (c == '.' && startsWithDigit rest) then scanNumber cs
    else if c == '\x22' || c == '\x27' then scanString c rest
    else if c == '#' then
      let (t, _, r) := splitName none rest
      if t.isEmpty then (bad (.unexpectedCharacter c), rest)
      else (privateName (String.ofList t), r)
    else scanPunct cs

/-- The regular expression at the start of a text that begins with its slash. -/
def scanRegex (cs : List Char) : Token × List Char :=
  match splitRegexBody false (cs.drop 1) with
  | none => (bad .unterminatedRegex, [])
  | some (body, rest) =>
    let (flags, rest') := rest.span isNamePart
    (regex (String.ofList ('/' :: body ++ '/' :: flags)), rest')

/-- The text between tags at the start of a text; a brace or a tag if there is none. -/
def scanMarkup (cs : List Char) : Token × List Char :=
  let (t, r) := cs.span fun c => c != '{' && c != '<'
  if r.isEmpty then (bad .unterminatedMarkup, [])
  else if t.isEmpty then scan cs
  else (markupText (String.ofList t), r)

/-- The name of a tag or an attribute at the start of a text: it may contain hyphens. -/
def scanMarkupName (cs : List Char) : Token × List Char :=
  match cs with
  | [] => (eof, [])
  | c :: _ =>
    if isNameStart c then
      let (t, r) := cs.span fun d => isNamePart d || d == '-'
      (name (String.ofList t) false, r)
    else scan cs

/-- The value of an attribute at the start of a text: it has no escapes and may span lines. -/
def scanMarkupString (cs : List Char) : Token × List Char :=
  match cs with
  | [] => (eof, [])
  | c :: rest =>
    if c == '\x22' || c == '\x27' then
      let (t, r) := rest.span (· != c)
      match r with
      | [] => (bad .unterminatedString, [])
      | _ :: r' => (string (String.ofList t) (String.ofList (c :: t ++ [c])) false, r')
    else scan cs

/-- Whether a block comment right after the token belongs to it. -/
def endsPhrase : Token → Bool
  | name text _ => !isReserved text
  | string .. | number .. | bigint .. | regex .. | markupText .. => true
  | punct text => text == "\x7d" || text == "\x7b" || text == ";" || text == "`"
  | _ => false

/-- Whether the token is a binary operator: a line comment after it belongs to what follows. -/
def isOperator : Token → Bool
  | punct text => [
    "===", "!==", "==", "!=", "<<", "<=", "&&", "||", "??", "**", "<", ">", "+", "-", "*", "/", "%",
    "&", "|", "^"].contains text
  | name text _ => text == "in" || text == "instanceof"
  | _ => false

end Token

/-- What stands between two tokens. -/
structure Gap where
  /-- The position after it. -/
  position : Nat
  /-- Whether it holds a line end. -/
  newline : Bool
  /-- The comments of the token after it. -/
  leading : List Comment
  /-- The comments of the token before it. -/
  trailing : List Comment
  /-- Whether the last comment is not closed. -/
  unterminated : Bool

/-- What kind of text a position in a gap is in; a comment carries the text so far, last character
first, and whether it belongs to the token after the gap. -/
inductive GapState where
  | blank
  | line (text : List Char) (forNext : Bool)
  | block (text : List Char) (forNext : Bool)

namespace Gap

/-- The gap with one more comment. -/
def add (g : Gap) (style : CommentStyle) (reversed : List Char) (forNext : Bool) : Gap :=
  let c : Comment := ⟨style, String.ofList reversed.reverse⟩
  if forNext then { g with leading := g.leading ++ [c] }
  else { g with trailing := g.trailing ++ [c] }

/-- The gap with one more character. -/
def step (g : Gap) (c : Char) : Gap :=
  { g with position := g.position + 1, newline := g.newline || isLineEnd c }

/-- The gap with some more characters that end no line. -/
def move (g : Gap) (n : Nat) : Gap := { g with position := g.position + n }

/-- Passes blanks and comments after the token `before`.

A comment on the line of `before` belongs to `before`, one on a later line to the token after the
gap. If nothing can end at `before`, a comment on its line belongs to the token after the gap too,
unless a semicolon follows. -/
def skip (before : Token) : GapState → List Char → Gap → Gap × List Char
  | .blank, '/' :: '/' :: rest, g =>
    skip before (.line [] (g.newline || before.isOperator)) rest (g.move 2)
  | .blank, '/' :: '*' :: rest, g =>
    skip before (.block [] g.newline) rest (g.move 2)
  | .blank, c :: rest, g =>
    if isBlank c then skip before .blank rest (g.step c) else (g, c :: rest)
  | .blank, [], g => (g, [])
  | .line text forNext, c :: rest, g =>
    if isLineEnd c then skip before .blank rest ((g.add .line text forNext).step c)
    else skip before (.line (c :: text) forNext) rest (g.move 1)
  | .line text forNext, [], g => (g.add .line text forNext, [])
  | .block text newlineBefore, '*' :: '/' :: rest, g =>
    let semicolonNext := (rest.dropWhile isBlank).head? == some ';'
    let forNext := newlineBefore || !(before.endsPhrase || semicolonNext)
    skip before .blank rest ((g.add .block text forNext).move 2)
  | .block text newlineBefore, c :: rest, g =>
    skip before (.block (c :: text) newlineBefore) rest (g.step c)
  | .block _ _, [], g => ({ g with unterminated := true }, [])

end Gap

/-- A token with its place in the text. -/
structure Lexeme where
  token : Token
  start : Nat
  stop : Nat
  /-- Whether a line ends between the token before and this one. -/
  newlineBefore : Bool
  /-- The text from the start of the token. -/
  here : List Char
  /-- The text after the token. -/
  rest : List Char

/-- The lexeme that a scanner finds at the start of a text. -/
def Lexeme.ofScan (scan : List Char → Token × List Char) (newlineBefore : Bool) (start : Nat)
    (cs : List Char) : Lexeme :=
  let (token, rest) := scan cs
  ⟨token, start, start + (cs.length - rest.length), newlineBefore, cs, rest⟩

end ServerBoundary.Source
