import ServerBoundary.Grammar.Expression

/-!
# Statements and declarations

Everything that can stand in a block, with the declarations that only exist where types may be
written.
-/

namespace ServerBoundary.Grammar

open Syntax Source

/-- A declarator. `checked` asks for the values that constants and patterns need. -/
def declarator (g : Productions) (word : VarWord) (checked : Bool) : Parser Node := do
  let start ← position
  let p ← patternCore g
  let c ← read
  let definite ← if c.types && !(← newlineBefore) then eatPunct "!" else pure false
  let t ← optionalType g
  let stop := (← get).lastStop
  let p := if t.isPresent then withType p false t stop else p
  let value ← after "=" g.assignment
  if checked && !value.isPresent && !c.ambient then
    if word == .const_ then note .uninitializedConst
    else
      match p with
      | .mk (.pattern (.array _)) _ _ | .mk (.pattern (.object _)) _ _ =>
        refuse .uninitializedPattern
      | _ => pure ()
  finish start (.stmt (.declarator definite)) [p, value]

/-- The word of a variable declaration that starts here. -/
def variableWord : Parser (Option VarWord) := do
  if ← isWord "var" then return some .var
  else if ← isWord "const" then return some .const_
  else if ← isWord "let" then
    match (← peekSecond).token with
    | .name word _ =>
      return if word == "in" || word == "instanceof" || word == "of" then none else some .let_
    | .punct "[" | .punct "\x7b" => return some .let_
    | _ => return none
  else return none

/-- A variable declaration without its end. -/
def variableList (g : Productions) (word : VarWord) (checked : Bool) : Parser Node := do
  let start ← position
  skip
  let ds ← separated "," (declarator g word checked)
  finish start (.stmt (.variable_ word false)) ds

/-- A variable declaration. -/
def variableStatement (g : Productions) (word : VarWord) : Parser Node := do
  let start ← position
  let d ← variableList g word true
  endStatement .semicolonExpected
  return .mk d.kind ⟨start, (← get).lastStop⟩ d.children

/-- A function declaration, from its words on. -/
def functionDeclaration (g : Productions) : Parser Node := do
  let start ← position
  let isAsync ← eatWord "async"
  expectWord "function"
  let isGenerator ← eatPunct "*"
  let name ← boundIdentifier
  let f ← functionFrom g start ⟨isAsync, isGenerator⟩ []
  finish start (.stmt (.function false)) [name, f]

/-- A class declaration, from its words on. -/
def classDeclaration (g : Productions) (start : Nat) (ds : List Node) : Parser Node := do
  let isAbstract ← if (← read).types then eatWord "abstract" else pure false
  expectWord "class"
  let name ← boundIdentifier
  let c ← classFrom g start isAbstract ds
  finish start (.stmt (.class_ false)) [name, c]

/-- A name of a declared type. -/
def declaredName : Parser Node := do
  match ← peek with
  | .name .. => anyWord
  | _ => refuse .identifierExpected

/-- An interface. -/
def interfaceDeclaration (g : Productions) : Parser Node := do
  let start ← position
  expectWord "interface"
  let name ← declaredName
  let params ← optionalTypeParameters g
  let bases ← if ← eatWord "extends" then separated "," (heritage g) else pure []
  let ms ← typeMembers g
  finish start (.type (.interface_ false)) [name, params, .group bases, .group ms]

/-- A type alias. -/
def aliasDeclaration (g : Productions) : Parser Node := do
  let start ← position
  expectWord "type"
  let name ← declaredName
  let params ← optionalTypeParameters g
  expectPunct "="
  let t ← g.type
  endStatement .semicolonExpected
  finish start (.type (.alias false)) [name, params, t]

/-- A member of an enumeration. -/
def enumMember (g : Productions) : Parser Node := do
  let start ← position
  let name ← match ← peek with
    | .name text _ => do
      skip
      finish start (.ident text) []
    | _ => propertyKey g
  let value ← after "=" g.assignment
  finish start (.stmt .enumMember) [name, value]

/-- An enumeration. -/
def enumDeclaration (g : Productions) (start : Nat) (isConst : Bool) : Parser Node := do
  expectWord "enum"
  let name ← boundIdentifier
  expectPunct "\x7b"
  let ms ← listIn "\x7d" (enumMember g)
  finish start (.stmt (.enum false isConst)) (name :: ms)

/-- The items of a namespace in braces. -/
def namespaceBlock (g : Productions) : Parser Node := do
  let start ← position
  expectPunct "\x7b"
  let is ← manyUntil (do
    if (← peek) == .eof then refuseFor "\x7d"
    eatPunct "\x7d") g.item
  finish start (.stmt .namespaceBody) is

/-- A namespace from its name on; a dotted name nests one namespace in another. -/
def namespaceFrom (g : Productions) (start : Nat) (kind : StmtKind) : Nat → Parser Node
  | 0 => refuse .tooDeep
  | n + 1 => do
    let name ← match ← peek with
      | .string .. => stringLiteral
      | _ => boundIdentifier
    let b ←
      if ← eatPunct "." then do namespaceFrom g (← position) .innerNamespace n
      else if ← isPunct "\x7b" then namespaceBlock g
      else do
        endStatement .semicolonExpected
        pure .absent
    finish start (.stmt kind) [name, b]

/-- A declaration marked as one without a value. -/
def declared (start : Nat) : Node → Node
  | .mk (.stmt (.variable_ w _)) sp cs => .mk (.stmt (.variable_ w true)) { sp with start } cs
  | .mk (.stmt (.function _)) sp cs => .mk (.stmt (.function true)) { sp with start } cs
  | .mk (.stmt (.class_ _)) sp cs => .mk (.stmt (.class_ true)) { sp with start } cs
  | .mk (.stmt (.enum _ c)) sp cs => .mk (.stmt (.enum true c)) { sp with start } cs
  | .mk (.stmt (.namespace_ _ b)) sp cs => .mk (.stmt (.namespace_ true b)) { sp with start } cs
  | .mk (.type (.interface_ _)) sp cs => .mk (.type (.interface_ true)) { sp with start } cs
  | .mk (.type (.alias _)) sp cs => .mk (.type (.alias true)) { sp with start } cs
  | n => n

/-- A declaration that exists only where types may be written, if one starts here. -/
def typedDeclaration (g : Productions) : Nat → Parser (Option Node)
  | 0 => refuse .tooDeep
  | n + 1 => do
    let start ← position
    let next ← peekSecond
    let nameNext := match next.token with
      | .name .. => !next.newlineBefore
      | _ => false
    let stringNext := match next.token with
      | .string .. => !next.newlineBefore
      | _ => false
    if (← isWord "interface") && nameNext then return some (← interfaceDeclaration g)
    else if (← isWord "type") && nameNext then return some (← aliasDeclaration g)
    else if ← isWord "enum" then return some (← enumDeclaration g start false)
    else if (← isWord "const") && next.token == .name "enum" false then
      skip
      return some (← enumDeclaration g start true)
    else if ((← isWord "namespace") && nameNext) ||
        ((← isWord "module") && (nameNext || stringNext)) then
      skip
      return some (← namespaceFrom g start (.namespace_ false false) (← read).limit)
    else if (← isWord "abstract") && next.token == .name "class" false then
      return some (← classDeclaration g start [])
    else if (← isWord "global") && next.token == .punct "\x7b" then
      let name ← identifier
      let b ← namespaceBlock g
      return some (← finish start (.stmt (.namespace_ false true)) [name, b])
    else if (← isWord "declare") && nameNext then
      skip
      let d ← within ({ · with ambient := true }) do
        if let some d ← typedDeclaration g n then return d
        if let some word ← variableWord then return ← variableStatement g word
        if ← isWord "class" then return ← classDeclaration g start []
        functionDeclaration g
      return some (declared start d)
    else return none

/-- An expression as a statement, or a labelled statement. -/
def expressionStatement (g : Productions) : Parser Node := do
  let start ← position
  let second := (← peekSecond).token
  let labels : Bool := match ← peek with
    | .name word _ => !isReserved word && second == .punct ":"
    | _ => false
  if labels then
    let label ← identifier
    expectPunct ":"
    match label with
    | .mk (.ident name) _ _ =>
      if (← read).labels.contains name then note (.duplicateLabel name)
      let s ← within (fun c => { c with labels := name :: c.labels }) g.statement
      finish start (.stmt .labeled) [label, s]
    | _ => refuse .identifierExpected
  else
    let e ← g.expression
    endStatement .statementEndExpected
    finish start (.stmt .expression) [e]

/-- A condition in parentheses. -/
def condition (g : Productions) : Parser Node := do
  expectPunct "("
  let e ← g.expression
  expectPunct ")"
  return e

/-- The body of a loop. -/
def loopBody (g : Productions) : Parser Node :=
  within ({ · with canBreak := true, canContinue := true }) g.statement

/-- A `for` statement. -/
def forStatement (g : Productions) : Parser Node := do
  let start ← position
  expectWord "for"
  let awaits ← eatWord "await"
  expectPunct "("
  let inHead := within (α := Node) fun c => { c with allowIn := false }
  let first ←
    if ← isPunct ";" then pure .absent
    else
      match ← variableWord with
      | some word => inHead (variableList g word false)
      | none => inHead g.expression
  if ← isWord "of" then
    let target ← forTarget first
    skip
    let object ← g.assignment
    expectPunct ")"
    let b ← loopBody g
    finish start (.stmt (.forOf awaits)) [target, object, b]
  else if ← isWord "in" then
    let target ← forTarget first
    skip
    let object ← g.expression
    expectPunct ")"
    let b ← loopBody g
    finish start (.stmt .forIn) [target, object, b]
  else
    match first with
    | .mk (.stmt (.variable_ .const_ _)) _ ds =>
      ds.forM fun d => unless (d.part 1).isPresent do note .uninitializedConst
    | _ => pure ()
    expectPunct ";"
    let test ← if ← isPunct ";" then pure .absent else g.expression
    expectPunct ";"
    let update ← if ← isPunct ")" then pure .absent else g.expression
    expectPunct ")"
    let b ← loopBody g
    finish start (.stmt .for_) [first, test, update, b]
where
  /-- What a loop assigns to. -/
  forTarget : Node → Parser Node
    | .mk (.stmt k) sp cs => return .mk (.stmt k) sp cs
    | e => targetOf "=" e

/-- A clause of a `switch`. -/
def switchCase (g : Productions) : Parser Node := do
  let start ← position
  let test ←
    if ← eatWord "default" then pure .absent
    else
      expectWord "case"
      g.expression
  expectPunct ":"
  let ss ← within ({ · with canBreak := true }) do
    manyUntil (return (← isWord "case") || (← isWord "default") || (← isPunct "\x7d")) g.statement
  finish start (.stmt .case) [test, .group ss]

/-- A `try` statement. -/
def tryStatement (g : Productions) : Parser Node := do
  let start ← position
  expectWord "try"
  let b ← block g
  let inner ← position
  let handler ←
    if ← eatWord "catch" then
      let p ←
        if ← eatPunct "(" then
          let p ← g.pattern
          expectPunct ")"
          pure p
        else pure .absent
      let hb ← block g
      finish inner (.stmt .catch_) [p, hb]
    else pure .absent
  let finalizer ← if ← eatWord "finally" then block g else pure .absent
  if !handler.isPresent && !finalizer.isPresent then refuse .semicolonExpected
  finish start (.stmt .try_) [b, handler, finalizer]

/-- A `break` or `continue` statement. -/
def jumpStatement (breaks : Bool) : Parser Node := do
  let start ← position
  skip
  let label ←
    if (← atStatementEnd) || (← isPunct ";") then pure .absent else identifier
  let c ← read
  match label with
  | .mk (.ident name) _ _ =>
    unless c.labels.contains name do
      note (if breaks then .breakOutside else .continueOutside)
  | _ =>
    if breaks && !c.canBreak then note .breakOutside
    if !breaks && !c.canContinue then note .continueOutside
  endStatement .semicolonExpected
  finish start (.stmt (if breaks then .break_ else .continue_)) [label]

/-- A statement. -/
def statementProduction (g : Productions) : Parser Node := do
  let start ← position
  match ← peek with
  | .punct "\x7b" => block g
  | .punct ";" => skip; finish start (.stmt .empty) []
  | .punct "@" =>
    if (← read).types then
      let ds ← decorators g
      classDeclaration g start ds
    else expressionStatement g
  | .name word false =>
    if (← read).types then
      if let some d ← typedDeclaration g (← read).limit then return d
    if let some v ← variableWord then return ← variableStatement g v
    let second ← peekSecond
    match word with
    | "function" => functionDeclaration g
    | "async" =>
      if second.token == .name "function" false && !second.newlineBefore then
        functionDeclaration g
      else expressionStatement g
    | "class" => classDeclaration g start []
    | "if" =>
      skip
      let test ← condition g
      let yes ← g.statement
      let no ← if ← eatWord "else" then g.statement else pure .absent
      finish start (.stmt .if_) [test, yes, no]
    | "for" => forStatement g
    | "while" =>
      skip
      let test ← condition g
      let b ← loopBody g
      finish start (.stmt .while_) [test, b]
    | "do" =>
      skip
      let b ← loopBody g
      expectWord "while"
      let test ← condition g
      let _ ← eatPunct ";"
      finish start (.stmt .doWhile) [test, b]
    | "switch" =>
      skip
      let value ← condition g
      expectPunct "\x7b"
      let cs ← manyUntil (eatPunct "\x7d") (switchCase g)
      finish start (.stmt .switch) (value :: cs)
    | "try" => tryStatement g
    | "throw" =>
      skip
      if ← newlineBefore then refuse .lineBreakAfterThrow
      let e ← g.expression
      endStatement .semicolonExpected
      finish start (.stmt .throw) [e]
    | "return" =>
      skip
      unless (← read).inFunction do note .returnOutsideFunction
      let e ← if (← atStatementEnd) || (← isPunct ";") then pure .absent else g.expression
      endStatement .semicolonExpected
      finish start (.stmt .return_) [e]
    | "break" => jumpStatement true
    | "continue" => jumpStatement false
    | "debugger" =>
      skip
      endStatement .semicolonExpected
      finish start (.stmt .debugger) []
    | "with" =>
      note .withStatement
      skip
      let object ← condition g
      let b ← g.statement
      finish start (.stmt .with_) [object, b]
    | _ => expressionStatement g
  | _ => expressionStatement g

end ServerBoundary.Grammar
