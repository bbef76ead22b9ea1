import ServerBoundary.Syntax.Node
import ServerBoundary.Source.Token

/-!
# Reading a source token by token

`Parser α` reads a piece of a source: it sees a `Context`, moves a `Reader` forward, and may fail.
Faults that do not end the reading are kept in the reader. What a production refers to is given to it
as `Productions`, so that each is an ordinary function and the recursion of the whole language is tied
in one place.
-/

namespace ServerBoundary.Grammar

open Syntax Source

/-- What the productions around the current one allow. -/
structure Context where
  /-- Types may be written. -/
  types : Bool
  /-- Markup may be written. -/
  markup : Bool
  /-- More repetitions than any list of the source can have. -/
  limit : Nat
  isAsync : Bool := true
  isGenerator : Bool := false
  inFunction : Bool := false
  newTarget : Bool := false
  canBreak : Bool := false
  canContinue : Bool := false
  allowIn : Bool := true
  labels : List String := []
  /-- Inside a `declare` item, where values and bodies are missing. -/
  ambient : Bool := false
  /-- Where `extends` does not open a conditional type. -/
  plainTypes : Bool := false

/-- A position in a source, with what was found on the way. -/
structure Reader where
  /-- The token that is read next. -/
  current : Lexeme
  /-- Where the token before it ends. -/
  lastStop : Nat
  /-- Faults found so far, newest first. -/
  faults : List SyntaxError
  comments : Comments

/-- Reads a piece of a source. -/
abbrev Parser := ReaderT Context (EStateM SyntaxError Reader)

/-- Every production that another one refers to. -/
structure Productions where
  /-- Expressions with commas. -/
  expression : Parser Node
  /-- Expressions without commas. -/
  assignment : Parser Node
  /-- What a prefix operator applies to. -/
  unary : Parser Node
  statement : Parser Node
  /-- A statement of a module, or an import or export. -/
  item : Parser Node
  /-- A name, or an array or object pattern, with its type. -/
  pattern : Parser Node
  type : Parser Node
  /-- A piece of markup, up to the `>` that ends it, which is not passed. -/
  element : Parser Node

namespace Reader

/-- Where comments before a token go: to the token, or to the one before it at the end. -/
def attach (comments : Comments) (gap : Gap) (before : Nat) (after : Lexeme) : Comments :=
  let trailing := gap.trailing.map (AttachedComment.mk .trailing before)
  let leading := gap.leading.map fun c =>
    if after.token == .eof && before != 1 then AttachedComment.mk .trailing before c
    else AttachedComment.mk .leading after.start c
  comments ++ trailing ++ leading

/-- The lexeme after a gap, and the comments with those of the gap. -/
def lexemeAfter (scan : List Char → Token × List Char) (before : Token) (stop : Nat) (fresh : Bool)
    (cs : List Char) (comments : Comments) : Lexeme × Comments :=
  let (gap, rest) := Gap.skip before .blank cs ⟨stop, fresh, [], [], false⟩
  if gap.unterminated then
    (⟨.bad .unterminatedComment, gap.position, gap.position, gap.newline, [], []⟩, comments)
  else
    let next := Lexeme.ofScan scan gap.newline gap.position rest
    let next := if next.token == .eof && fresh then { next with start := 1, stop := 1 } else next
    (next, attach comments gap stop next)

/-- The reader before the first token of a text that starts at `position`. -/
def ofText (position : Nat) (cs : List Char) : Reader :=
  let (first, comments) := lexemeAfter Token.scan .eof position true cs []
  ⟨first, position, [], comments⟩

/-- The reader after its current token; `scan` finds the next one. -/
def advance (scan : List Char → Token × List Char) (r : Reader) : Reader :=
  let (next, comments) :=
    lexemeAfter scan r.current.token r.current.stop false r.current.rest r.comments
  { r with current := next, lastStop := r.current.stop, comments := comments }

end Reader

/-- The token that is read next. -/
def peek : Parser Token := return (← get).current.token

/-- Where the next token starts. -/
def position : Parser Nat := return (← get).current.start

/-- Whether a line ends before the next token. -/
def newlineBefore : Parser Bool := return (← get).current.newlineBefore

/-- Moves past the next token. -/
def skip : Parser Unit := modify (Reader.advance Token.scan)

/-- Reads the next token anew from its start, as `scan` sees it. -/
def rescan (scan : List Char → Token × List Char) : Parser Unit :=
  modify fun r =>
    { r with current := Lexeme.ofScan scan r.current.newlineBefore r.current.start r.current.here }

/-- The token after the next one. -/
def peekSecond : Parser Lexeme := return ((← get).advance Token.scan).current

/-- Notes a fault and goes on. -/
def note (e : SyntaxError) : Parser Unit := modify fun r => { r with faults := e :: r.faults }

/-- Ends the reading. If the next token is no token at all, that is the fault. -/
def refuse {α : Type} (e : SyntaxError) : Parser α := do
  match ← peek with
  | .bad found => throw found
  | _ => throw e

/-- Reads a piece, or nothing at all if that fails. -/
def attempt {α : Type} (p : Parser α) : Parser (Option α) := fun c r =>
  match p c r with
  | .ok a r' => .ok (some a) r'
  | .error _ _ => .ok none r

/-- Runs a test and forgets how far it went. -/
def testing (p : Parser Bool) : Parser Bool := fun c r =>
  match p c r with
  | .ok b _ => .ok b r
  | .error _ _ => .ok false r

/-- Reads a piece in a changed context. -/
def within {α : Type} (change : Context → Context) (p : Parser α) : Parser α := fun c => p (change c)

/-- Whether the next token is that punctuator. -/
def isPunct (text : String) : Parser Bool := do
  match ← peek with
  | .punct t => return t == text
  | _ => return false

/-- Whether the next token is that word, written without escapes. -/
def isWord (text : String) : Parser Bool := do
  match ← peek with
  | .name t escaped => return t == text && !escaped
  | _ => return false

/-- Moves past a punctuator if it is next. -/
def eatPunct (text : String) : Parser Bool := do
  if ← isPunct text then skip; return true else return false

/-- Moves past a word if it is next. -/
def eatWord (text : String) : Parser Bool := do
  if ← isWord text then skip; return true else return false

/-- The text of a token in a fault. -/
def Token.shown : Token → String
  | .name t _ => t
  | .privateName t => "#" ++ t
  | .punct t => t
  | .string _ raw _ => raw
  | .number raw _ => raw
  | .bigint raw => raw
  | .regex raw => raw
  | .markupText raw => raw
  | .bad _ => ""
  | .eof => "<eof>"

/-- Fails because something else was wanted. -/
def refuseFor {α : Type} (wanted : String) : Parser α := do
  refuse (.expected wanted (Token.shown (← peek)))

/-- Moves past a punctuator that has to be next. -/
def expectPunct (text : String) : Parser Unit := do
  unless ← eatPunct text do refuseFor text

/-- Moves past a word that has to be next. -/
def expectWord (text : String) : Parser Unit := do
  unless ← eatWord text do refuseFor text

/-- Whether a statement can end here without a semicolon. -/
def atStatementEnd : Parser Bool := do
  match ← peek with
  | .eof => return true
  | .punct "\x7d" => return true
  | _ => newlineBefore

/-- Ends a statement, with or without a semicolon. -/
def endStatement (fault : SyntaxError) : Parser Unit := do
  unless ← eatPunct ";" do
    unless ← atStatementEnd do refuse fault

/-- A node that started at `start` and ends with the last token read. -/
def finish (start : Nat) (kind : Kind) (children : List Node) : Parser Node := do
  return .mk kind ⟨start, (← get).lastStop⟩ children

/-- A node that has been read and takes part in the node around it. -/
def finishExpr (start : Nat) (kind : ExprKind) (children : List Node) : Parser Node :=
  finish start (.expr kind) children

/-- Pieces up to where `stop` holds. -/
def piecesUntil (stop : Parser Bool) (piece : Parser Node) : Nat → Parser (List Node)
  | 0 => refuse .tooDeep
  | n + 1 => do
    if ← stop then return []
    let p ← piece
    return p :: (← piecesUntil stop piece n)

/-- Pieces up to where `stop` holds. -/
def manyUntil (stop : Parser Bool) (piece : Parser Node) : Parser (List Node) := do
  piecesUntil stop piece (← read).limit

/-- Pieces with commas between them, and the closing punctuator. -/
def listUpTo (close : String) (piece : Parser Node) : Nat → Parser (List Node)
  | 0 => refuse .tooDeep
  | n + 1 => do
    if ← eatPunct close then return []
    let p ← piece
    if ← eatPunct close then return [p]
    expectPunct ","
    return p :: (← listUpTo close piece n)

/-- Pieces with commas between them, and the closing punctuator. -/
def listIn (close : String) (piece : Parser Node) : Parser (List Node) := do
  listUpTo close piece (← read).limit

/-- One or more pieces with a separator between them. -/
def separatedBy (separator : String) (piece : Parser Node) : Nat → Parser (List Node)
  | 0 => refuse .tooDeep
  | n + 1 => do
    let p ← piece
    if ← eatPunct separator then return p :: (← separatedBy separator piece n) else return [p]

/-- One or more pieces with a separator between them. -/
def separated (separator : String) (piece : Parser Node) : Parser (List Node) := do
  separatedBy separator piece (← read).limit

/-- Extends a node as long as there is a way to. -/
def extendUntil (step : Node → Parser (Option Node)) : Nat → Node → Parser Node
  | 0, _ => refuse .tooDeep
  | n + 1, node => do
    match ← step node with
    | some longer => extendUntil step n longer
    | none => return node

/-- Extends a node as long as there is a way to. -/
def extend (step : Node → Parser (Option Node)) (node : Node) : Parser Node := do
  extendUntil step (← read).limit node

/-- A part that is written only after a punctuator. -/
def after (text : String) (piece : Parser Node) : Parser Node := do
  if ← eatPunct text then piece else return .absent

/-- Any word, also a keyword: the name of a property. -/
def anyWord : Parser Node := do
  match ← peek with
  | .name text _ =>
    let start ← position
    skip
    finish start (.word text) []
  | _ => refuse .identifierExpected

/-- The text of a word that may be used as an identifier. -/
def identifierText : Parser String := do
  match ← peek with
  | .name text _ =>
    if isReserved text then refuse .identifierExpected
    if strictWords.contains text then note (.reservedName text)
    skip
    return text
  | _ => refuse .identifierExpected

/-- An identifier. -/
def identifier : Parser Node := do
  let start ← position
  let text ← identifierText
  finish start (.ident text) []

/-- An identifier in a place that binds it. -/
def boundIdentifier : Parser Node := do
  let start ← position
  let text ← identifierText
  if text == "eval" || text == "arguments" then note .bindingOfArguments
  finish start (.ident text) []

/-- A string literal. -/
def stringLiteral : Parser Node := do
  match ← peek with
  | .string value raw octal =>
    let start ← position
    if octal then note .legacyOctal
    skip
    finish start (.literal (.string value (some raw))) []
  | _ => refuseFor "string"

end ServerBoundary.Grammar
