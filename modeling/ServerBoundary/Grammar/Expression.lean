import ServerBoundary.Grammar.Function

/-!
# Expressions

From literals up to assignments. What stands in parentheses is read as expressions, and as the
parameters of an arrow function once an arrow follows.
-/

namespace ServerBoundary.Grammar

open Syntax Source

/-- Whether a node is an arrow function, after which an expression cannot go on. -/
def isArrow : Node → Bool
  | .mk (.expr (.arrow _)) _ _ => true
  | _ => false

/-- Whether an arrow follows on the same line. -/
def arrowFollows : Parser Bool := return (← isPunct "=>") && !(← newlineBefore)

/-- An arrow function whose arrow is next. -/
def arrowFrom (g : Productions) (start : Nat) (isAsync : Bool)
    (params : List Node) (typeParams result : Node) : Parser Node := do
  expectPunct "=>"
  let allowIn := (← read).allowIn
  let b ← within (Context.insideArrow isAsync) do
    if ← isPunct "\x7b" then block g
    else within ({ · with allowIn := allowIn }) g.assignment
  finishExpr start (.arrow isAsync) [.group params, b, typeParams, result]

/-- The head of an arrow function with types, up to its arrow. -/
def typedArrowHead (g : Productions) : Parser (List Node × Node × Node) := do
  let typeParams ← optionalTypeParameters g
  expectPunct "("
  let params ← listIn ")" do
    if ← isPunct "..." then restPattern g else withDefault g g.pattern
  let result ← optionalResult g
  unless ← arrowFollows do refuseFor "=>"
  return (params, typeParams, result)

/-- Expressions in parentheses, some of which may be meant as parameters. -/
def coveredItems (g : Productions) : Parser (List Node) :=
  within ({ · with allowIn := true }) do
    listIn ")" do
      if ← isPunct "..." then
        let start ← position
        skip
        let e ← g.assignment
        finishExpr start .spread [e]
      else g.assignment

/-- The parameters that expressions were meant as. -/
def paramsOf (items : List Node) : Parser (List Node) := do
  match patternsOf? items with
  | some ps => return ps
  | none => refuse .invalidTarget

/-- An expression that starts with a parenthesis: an arrow function or a parenthesized
expression. -/
def parenthesized (g : Productions) : Parser Node := do
  let start ← position
  let head ← if (← read).types then attempt (typedArrowHead g) else pure none
  match head with
  | some (params, typeParams, result) => arrowFrom g start false params typeParams result
  | none =>
    expectPunct "("
    let inner ← position
    let items ← coveredItems g
    if ← arrowFollows then
      let params ← paramsOf items
      arrowFrom g start false params .absent .absent
    else
      match items with
      | [] => refuse .expressionExpected
      | [e] =>
        match e with
        | .mk (.expr .spread) _ _ => refuse .expressionExpected
        | _ => finishExpr start .paren [e]
      | es =>
        let stop := (es.getLastD .absent).span.stop
        finishExpr start .paren [.mk (.expr .sequence) ⟨inner, stop⟩ es]

/-- Arguments in parentheses. -/
def arguments (g : Productions) : Parser Node := do
  expectPunct "("
  return .group (← coveredItems g)

/-- An expression that starts with the word `async` in its special meaning, if it is one. -/
def asyncExpression (g : Productions) : Parser (Option Node) := do
  let start ← position
  let next ← peekSecond
  if next.newlineBefore then return none
  match next.token with
  | .name word _ =>
    if word == "function" then
      skip
      skip
      let isGenerator ← eatPunct "*"
      let name ← if (← isPunct "(") || (← isPunct "<") then pure .absent else boundIdentifier
      let f ← functionFrom g start ⟨true, isGenerator⟩ []
      return some (← finishExpr start .function [name, f])
    else if isReserved word && word != "await" then return none
    else
      let found ← testing (skip *> skip *> arrowFollows)
      if found then
        skip
        let p ← bindingName
        return some (← arrowFrom g start true [p] .absent .absent)
      else return none
  | .punct p =>
    if (← read).types && (p == "(" || p == "<") then
      let head ← attempt (skip *> typedArrowHead g)
      match head with
      | some (params, typeParams, result) =>
        return some (← arrowFrom g start true params typeParams result)
      | none => pure ()
    if p == "(" then
      let name ← identifier
      let args ← arguments g
      if ← arrowFollows then
        let params ← match args with
          | .mk _ _ items => paramsOf items
        return some (← arrowFrom g start true params .absent .absent)
      else return some (← finishExpr start (.call false) [name, args, .absent])
    else return none
  | _ => return none

/-- An element of an array literal. -/
def arrayItem (g : Productions) : Parser Node := do
  let start ← position
  if ← isPunct "," then return .absent
  else if ← eatPunct "..." then
    let e ← g.assignment
    finishExpr start .spread [e]
  else g.assignment

/-- A property of an object literal. -/
def objectItem (g : Productions) : Parser Node := do
  let start ← position
  if ← eatPunct "..." then
    let e ← g.assignment
    finishExpr start .spread [e]
  else
    let second := (← peekSecond).token
    let isName := match ← peek with
      | .name .. => true
      | _ => false
    if isName && (second == .punct "," || second == .punct "\x7d" || second == .punct "=") then
      let name ← identifier
      if ← eatPunct "=" then
        let value ← g.assignment
        finish start (.property .initialized) [name, value]
      else return name
    else
      let isAsync ← isKeyWord "async" true
      if isAsync then skip
      let isGenerator ← eatPunct "*"
      let plain := !isAsync && !isGenerator
      let isGetter ← if plain then isKeyWord "get" false else pure false
      let isSetter ← if plain then isKeyWord "set" false else pure false
      if isGetter || isSetter then skip
      let key ← propertyKey g
      if isGetter then
        let (t, b) ← within (Context.inside {}) do
          expectPunct "("
          expectPunct ")"
          let t ← optionalType g
          return (t, ← block g)
        finish start (.property .getter) [key, t, b]
      else if isSetter then
        let (p, b) ← within (Context.inside {}) do
          expectPunct "("
          let p ← if ← isPunct "..." then restPattern g else withDefault g g.pattern
          let _ ← eatPunct ","
          expectPunct ")"
          return (p, ← block g)
        finish start (.property .setter) [key, p, b]
      else if (← isPunct "(") || ((← read).types && (← isPunct "<")) then
        let f ← functionFrom g start ⟨isAsync, isGenerator⟩ []
        finish start (.property .method) [key, f]
      else
        expectPunct ":"
        let value ← g.assignment
        finish start (.property .keyed) [key, value]

/-- A function expression, whose word is next. -/
def functionExpression (g : Productions) : Parser Node := do
  let start ← position
  expectWord "function"
  let isGenerator ← eatPunct "*"
  let name ← if (← isPunct "(") || (← isPunct "<") then pure .absent else boundIdentifier
  let f ← functionFrom g start ⟨false, isGenerator⟩ []
  finishExpr start .function [name, f]

/-- A class expression, from its word on. -/
def classExpression (g : Productions) (start : Nat) (ds : List Node) : Parser Node := do
  expectWord "class"
  let anonymous ← do
    if (← isPunct "\x7b") || (← isPunct "<") || (← isWord "extends") then pure true
    else if ← isWord "implements" then pure (← read).types
    else pure false
  let name ← if anonymous then pure .absent else boundIdentifier
  let c ← classFrom g start false ds
  finishExpr start .class_ [name, c]

/-- A literal that the next token is. -/
def literalOf (l : Literal) : Parser Node := do
  let start ← position
  skip
  finish start (.literal l) []

/-- An expression that does not start with an operator and has nothing applied to it. -/
def primary (g : Productions) : Parser Node := do
  let start ← position
  match ← peek with
  | .name word escaped =>
    if word == "async" && !escaped then
      if let some e ← asyncExpression g then return e
    match word with
    | "this" => skip; finishExpr start .this []
    | "super" => skip; finishExpr start .superRef []
    | "null" => literalOf .null
    | "true" => literalOf (.boolean true)
    | "false" => literalOf (.boolean false)
    | "function" => functionExpression g
    | "class" => classExpression g start []
    | "import" =>
      skip
      if ← eatPunct "." then
        expectWord "meta"
        finishExpr start .importMeta []
      else if ← isPunct "(" then finishExpr start .importRef []
      else refuse .expressionExpected
    | _ =>
      if isReserved word then refuse .expressionExpected
      let name ← identifier
      if ← arrowFollows then
        match patternOf? name with
        | some p => arrowFrom g start false [p] .absent .absent
        | none => return name
      else return name
  | .number raw octal =>
    if octal then note .legacyOctal
    literalOf (.number raw)
  | .bigint raw => literalOf (.bigint raw)
  | .string .. => stringLiteral
  | .privateName text =>
    skip
    if (← isWord "in") && (← read).allowIn then finish start (.privateName text) []
    else refuse .expressionExpected
  | .punct p =>
    match p with
    | "(" => parenthesized g
    | "[" =>
      skip
      let es ← within ({ · with allowIn := true }) (listIn "]" (arrayItem g))
      finishExpr start .array es
    | "\x7b" =>
      skip
      let ps ← within ({ · with allowIn := true }) (listIn "\x7d" (objectItem g))
      finishExpr start .object ps
    | "`" => templateOf (.expr .template) (within ({ · with allowIn := true }) g.expression)
    | "/" | "/=" =>
      rescan Token.scanRegex
      match ← peek with
      | .regex raw => literalOf (.regex raw)
      | _ => refuse .expressionExpected
    | "<" =>
      if (← read).types then
        let head ← attempt (typedArrowHead g)
        match head with
        | some (params, typeParams, result) =>
          return ← arrowFrom g start false params typeParams result
        | none => pure ()
      if (← read).markup then
        let e ← g.element
        skip
        return e
      else refuse .expressionExpected
    | "@" =>
      if (← read).types then
        let ds ← decorators g
        classExpression g start ds
      else refuse .expressionExpected
    | _ => refuse .expressionExpected
  | _ => refuse .expressionExpected

/-- The name after a dot. -/
def memberName : Parser Node := do
  match ← peek with
  | .privateName text =>
    let start ← position
    skip
    finish start (.privateName text) []
  | _ => anyWord

/-- Whether an expression with type arguments can end before the next token. -/
def atInstantiationEnd : Parser Bool := do
  if ← newlineBefore then return true
  match ← peek with
  | .eof => return true
  | .punct p => return [")", "]", ",", ":", ";", "\x7d", "\x7b", "=", "=>", "==", "===", "!=",
      "!==", "&&", "||", "??", "?"].contains p
  | .name "implements" _ => return true
  | _ => return false

/-- One more piece of a chain of members and calls. -/
def chainStep (g : Productions) (start : Nat) (calls : Bool) (e : Node) : Parser (Option Node) := do
  if isArrow e then return none
  let index (optional : Bool) : Parser Node := do
    expectPunct "["
    let i ← within ({ · with allowIn := true }) g.expression
    expectPunct "]"
    finishExpr start (.index optional) [e, i]
  match ← peek with
  | .punct "." =>
    skip
    let name ← memberName
    return some (← finishExpr start (.member false) [e, name])
  | .punct "?." =>
    if !calls then refuse .expressionExpected
    skip
    if ← isPunct "[" then return some (← index true)
    else if (← isPunct "(") then
      let args ← arguments g
      return some (← finishExpr start (.call true) [e, args, .absent])
    else
      let typeArgs ← optionalTypeArguments g
      if typeArgs.isPresent then
        let args ← arguments g
        return some (← finishExpr start (.call true) [e, args, typeArgs])
      let name ← memberName
      return some (← finishExpr start (.member true) [e, name])
  | .punct "[" => return some (← index false)
  | .punct "(" =>
    if calls then
      let args ← arguments g
      return some (← finishExpr start (.call false) [e, args, .absent])
    else return none
  | .punct "`" =>
    let t ← templateOf (.expr .template) (within ({ · with allowIn := true }) g.expression)
    return some (← finishExpr start .tagged [e, .absent, t])
  | .punct "!" =>
    if (← read).types && !(← newlineBefore) then
      skip
      return some (← finishExpr start .nonNull [e])
    else return none
  | .punct "<" =>
    if !(← read).types then return none
    attempt do
      let typeArgs ← typeArguments g
      if (← isPunct "(") && calls then
        let args ← arguments g
        finishExpr start (.call false) [e, args, typeArgs]
      else if ← isPunct "`" then
        let t ← templateOf (.expr .template) (within ({ · with allowIn := true }) g.expression)
        finishExpr start .tagged [e, typeArgs, t]
      else if (← isPunct "(") || (← atInstantiationEnd) then
        finishExpr start .instantiation [e, typeArgs]
      else refuse .expressionExpected
  | _ => return none

/-- A `new` with its callee and arguments, or `new.target`. -/
def newExpression (g : Productions) : Nat → Parser Node
  | 0 => refuse .tooDeep
  | n + 1 => do
    let start ← position
    expectWord "new"
    if ← eatPunct "." then
      expectWord "target"
      unless (← read).newTarget do note .newTargetOutside
      finishExpr start .newTarget []
    else
      let inner ← position
      let base ← if ← isWord "new" then newExpression g n else primary g
      let callee ← extend (chainStep g inner false) base
      let (callee, typeArgs) := match callee with
        | .mk (.expr .instantiation) _ [e, ts] => (e, ts)
        | e => (e, .absent)
      let args ← if ← isPunct "(" then arguments g else pure .absent
      finishExpr start .new_ [callee, args, typeArgs]

/-- Members, calls and what they are applied to. -/
def leftHandSide (g : Productions) : Parser Node := do
  let start ← position
  let base ← if ← isWord "new" then newExpression g (← read).limit else primary g
  extend (chainStep g start true) base

/-- Whether a node is an operator or `await` before an operand, which `**` may not follow. -/
def isUnary : Node → Bool
  | .mk (.expr (.unary _)) _ _ => true
  | .mk (.expr .await) _ _ => true
  | _ => false

/-- An operand with the operators before and after it. -/
def unaryProduction (g : Productions) : Parser Node := do
  let start ← position
  let operator (op : String) : Parser Node := do
    skip
    let e ← g.unary
    match op, e with
    | "delete", .mk (.ident _) _ _ => note .deleteOfIdentifier
    | _, _ => pure ()
    finishExpr start (.unary op) [e]
  match ← peek with
  | .name "delete" false => operator "delete"
  | .name "void" false => operator "void"
  | .name "typeof" false => operator "typeof"
  | .name "await" false =>
    if (← read).isAsync then
      skip
      let e ← g.unary
      finishExpr start .await [e]
    else refuse .expressionExpected
  | .punct "+" => operator "+"
  | .punct "-" => operator "-"
  | .punct "~" => operator "~"
  | .punct "!" => operator "!"
  | .punct "++" => skip; finishExpr start (.update "++" true) [← g.unary]
  | .punct "--" => skip; finishExpr start (.update "--" true) [← g.unary]
  | _ =>
    let c ← read
    let asserted ←
      if c.types && !c.markup && (← isPunct "<") then
        pure !(← testing (typedArrowHead g *> pure true))
      else pure false
    if asserted then
      expectPunct "<"
      if ← isWord "const" then
        skip
        expectPunct ">"
        return ← finishExpr start .asConst [← g.unary]
      let t ← g.type
      expectPunct ">"
      return ← finishExpr start .assertion [← g.unary, t]
    let e ← leftHandSide g
    if isArrow e || (← newlineBefore) then return e
    if ← eatPunct "++" then finishExpr start (.update "++" false) [e]
    else if ← eatPunct "--" then finishExpr start (.update "--" false) [e]
    else return e

/-- How tightly a binary operator binds; the tightest is 12. -/
def precedence? : String → Option Nat
  | "??" => some 1
  | "||" => some 2
  | "&&" => some 3
  | "|" => some 4
  | "^" => some 5
  | "&" => some 6
  | "==" | "!=" | "===" | "!==" => some 7
  | "<" | ">" | "<=" | ">=" | "instanceof" | "in" | "as" | "satisfies" => some 8
  | "<<" | ">>" | ">>>" => some 9
  | "+" | "-" => some 10
  | "*" | "/" | "%" => some 11
  | "**" => some 12
  | _ => none

/-- The binary or assignment operator that is next. -/
def operatorText : Parser String := do
  match ← peek with
  | .punct ">" =>
    match splitGreater (← get).current.here with
    | some (op, _) => return op
    | none => return ">"
  | .punct p => return p
  | .name word false =>
    let c ← read
    if word == "in" then return if c.allowIn then word else ""
    else if word == "instanceof" then return word
    else if (word == "as" || word == "satisfies") && c.types && !(← newlineBefore) then return word
    else return ""
  | _ => return ""

/-- Moves past the operator that is next. -/
def skipOperator : Parser Unit := do
  if ← isPunct ">" then
    rescan fun cs => match splitGreater cs with
      | some (op, rest) => (.punct op, rest)
      | none => (.eof, cs)
  skip

/-- Operands and binary operators after a left operand, as long as they bind more tightly than
`level`. -/
def binaryFrom (g : Productions) : Nat → Nat → Nat → Node → Parser Node
  | 0, _, _, _ => refuse .tooDeep
  | n + 1, start, level, left => do
    if isArrow left then return left
    let op ← operatorText
    match precedence? op with
    | none => return left
    | some p =>
      if p ≤ level then return left
      skipOperator
      if op == "as" && (← isWord "const") then
        skip
        let e ← finishExpr start .asConst [left]
        binaryFrom g n start level e
      else if op == "as" || op == "satisfies" then
        let t ← g.type
        let e ← finishExpr start (if op == "as" then .asType else .satisfiesType) [left, t]
        binaryFrom g n start level e
      else
        if op == "**" && isUnary left then note .unaryBeforePower
        let inner ← position
        let operand ← g.unary
        let right ← binaryFrom g n inner (if op == "**" then p - 1 else p) operand
        let mixes (e : Node) (ops : List String) : Bool := match e with
          | .mk (.expr (.binary o)) _ _ => ops.contains o
          | _ => false
        if op == "??" && (mixes left ["||", "&&"] || mixes right ["||", "&&"]) then
          note .mixedCoalescing
        else if (op == "||" || op == "&&") && (mixes left ["??"] || mixes right ["??"]) then
          note .mixedCoalescing
        let e ← finishExpr start (.binary op) [left, right]
        binaryFrom g n start level e

/-- An operand with binary operators and a condition. -/
def conditional (g : Productions) : Parser Node := do
  let start ← position
  let left ← g.unary
  let test ← binaryFrom g (← read).limit start 0 left
  if isArrow test then return test
  if ← eatPunct "?" then
    let yes ← within ({ · with allowIn := true }) g.assignment
    expectPunct ":"
    let no ← g.assignment
    finishExpr start .conditional [test, yes, no]
  else return test

/-- The assignment operators. -/
def assignmentOperators : List String := [
  "=", "+=", "-=", "*=", "/=", "%=", "**=", "<<=", ">>=", ">>>=", "&=", "|=", "^=", "&&=", "||=",
  "??="]

/-- Whether a node can be assigned to as it is. -/
def isSimpleTarget : Node → Bool
  | .mk (.ident _) _ _ => true
  | .mk (.expr (.member false)) _ _ => true
  | .mk (.expr (.index false)) _ _ => true
  | .mk (.expr .paren) _ [e] => isSimpleTarget e
  | .mk (.expr .nonNull) _ [e] => isSimpleTarget e
  | .mk (.expr .asType) _ (e :: _) => isSimpleTarget e
  | .mk (.expr .satisfiesType) _ (e :: _) => isSimpleTarget e
  | .mk (.expr .assertion) _ (e :: _) => isSimpleTarget e
  | _ => false

/-- The target of an assignment that an expression was meant as. -/
def targetOf (op : String) (e : Node) : Parser Node := do
  if isSimpleTarget e then return e
  match op, e with
  | "=", .mk (.expr .array) _ _ | "=", .mk (.expr .object) _ _ =>
    match patternOf? e with
    | some p => return p
    | none => refuse .invalidTarget
  | _, _ => refuse .invalidTarget

/-- A `yield` with its operand. -/
def yieldExpression (g : Productions) : Parser Node := do
  let start ← position
  expectWord "yield"
  let ends ← do
    if ← newlineBefore then pure true
    else match ← peek with
      | .eof => pure true
      | .punct p => pure ([")", "]", "\x7d", ",", ";", ":"].contains p)
      | .name "in" _ | .name "of" _ => pure true
      | _ => pure false
  if ends then finishExpr start (.yield false) [.absent]
  else
    let delegates ← eatPunct "*"
    let e ← g.assignment
    finishExpr start (.yield delegates) [e]

/-- An expression without commas. -/
def assignmentProduction (g : Productions) : Parser Node := do
  if (← read).isGenerator && (← isWord "yield") then yieldExpression g
  else
    let start ← position
    let left ← conditional g
    if isArrow left then return left
    let op ← operatorText
    if assignmentOperators.contains op then
      let target ← targetOf op left
      skipOperator
      let value ← g.assignment
      finishExpr start (.assign op) [target, value]
    else return left

/-- An expression. -/
def expressionProduction (g : Productions) : Parser Node := do
  let start ← position
  let es ← separated "," g.assignment
  match es with
  | [e] => return e
  | es => finishExpr start .sequence es

end ServerBoundary.Grammar
