import ServerBoundary.Grammar.Reader

/-!
# Types

Productions for types and for the parts of types that other productions share: type arguments, type
parameters, the type after a colon, keys and template texts.
-/

namespace ServerBoundary.Grammar

open Syntax Source

/-- A template from its backtick: its expressions (or types) and its chunks. -/
def templateParts (piece : Parser Node) : Nat → Parser (List Node × List Node)
  | 0 => refuse .tooDeep
  | n + 1 => do
    let r ← get
    let cs := r.current.rest
    let start := r.current.stop
    match splitChunk cs with
    | none => throw .unterminatedTemplate
    | some (text, more, rest) =>
      let width := chunkWidth cs
      let stop := start + width
      let chunkNode := Node.mk (.chunk (String.ofList text)) ⟨start, stop - (if more then 2 else 1)⟩ []
      let delimiter : Token := .punct (if more then "$\x7b" else "`")
      set { r with
        current := { r.current with token := delimiter, stop := stop, here := [], rest := rest } }
      skip
      if more then
        let e ← piece
        unless ← isPunct "\x7d" do refuseFor "\x7d"
        let (es, chunks) ← templateParts piece n
        return (e :: es, chunkNode :: chunks)
      else return ([], [chunkNode])

/-- A template whose backtick is next. -/
def templateOf (kind : Kind) (piece : Parser Node) : Parser Node := do
  let start ← position
  let (es, chunks) ← templateParts piece (← read).limit
  finish start kind [.group es, .group chunks]

/-- The key of a property. -/
def propertyKey (g : Productions) : Parser Node := do
  let start ← position
  match ← peek with
  | .name .. => anyWord
  | .string .. => stringLiteral
  | .number raw octal =>
    if octal then note .legacyOctal
    skip
    finish start (.literal (.number raw)) []
  | .bigint raw => skip; finish start (.literal (.bigint raw)) []
  | .privateName text => skip; finish start (.privateName text) []
  | .punct "[" =>
    skip
    let e ← within ({ · with allowIn := true }) g.assignment
    expectPunct "]"
    finish start .computed [e]
  | _ => refuse .identifierExpected

/-- Type arguments in angle brackets. -/
def typeArguments (g : Productions) : Parser Node := do
  let start ← position
  expectPunct "<"
  let ts ← listIn ">" g.type
  finish start (.type .arguments) ts

/-- Type arguments, if they are written. -/
def optionalTypeArguments (g : Productions) : Parser Node := do
  if (← read).types && (← isPunct "<") then typeArguments g else return .absent

/-- A type parameter. -/
def typeParameter (g : Productions) : Parser Node := do
  let start ← position
  let isConst ← eatWord "const"
  let next := (← peekSecond).token
  let followed := match next with
    | .name t _ => t != "extends"
    | _ => false
  let isIn ← if (← isWord "in") then eatWord "in" else pure false
  let isOut ← if followed && (← isWord "out") then eatWord "out" else pure false
  let name ← anyWord
  let constraint ← if ← eatWord "extends" then g.type else pure .absent
  let fallback ← after "=" g.type
  finish start (.type (.parameter isIn isOut isConst)) [name, constraint, fallback]

/-- Type parameters, if they are written. -/
def optionalTypeParameters (g : Productions) : Parser Node := do
  let start ← position
  if (← read).types && (← eatPunct "<") then
    let ps ← listIn ">" (typeParameter g)
    finish start (.type .parameters) ps
  else return .absent

/-- The type after a colon that was read. -/
def ascribed (g : Productions) : Parser Node := do
  let start ← position
  let t ← within ({ · with plainTypes := false }) g.type
  finish start (.type .ascription) [t]

/-- The type after a colon, if types may be written and there is one. -/
def optionalType (g : Productions) : Parser Node := do
  if (← read).types && (← eatPunct ":") then ascribed g else return .absent

/-- A result type: a type, or a predicate on a parameter. -/
def resultType (g : Productions) : Parser Node := do
  let start ← position
  let second ← peekSecond
  let isPredicate := second.token == .name "is" false && !second.newlineBefore
  let predicate (asserts : Bool) : Parser Node := do
    let name ← anyWord
    let t ← if ← eatWord "is" then ascribed g else pure .absent
    finish start (.type (.predicate asserts)) [name, t]
  match ← peek with
  | .name "asserts" false =>
    match second.token with
    | .name t _ =>
      if second.newlineBefore || (t == "is" && !(← testing (skip *> skip *> isWord "is")))
      then g.type
      else skip; predicate true
    | _ => g.type
  | .name _ _ => if isPredicate then predicate false else g.type
  | _ => g.type

/-- The result type after `:` or `=>`, if it was announced. -/
def resultAscribed (g : Productions) : Parser Node := do
  let start ← position
  let t ← within ({ · with plainTypes := false }) (resultType g)
  finish start (.type .ascription) [t]

/-- The result type of a function, if there is one. -/
def optionalResult (g : Productions) : Parser Node := do
  if (← read).types && (← eatPunct ":") then resultAscribed g else return .absent

/-- The dotted name of a type. -/
def entityName : Parser Node := do
  let start ← position
  let first ← anyWord
  extend (fun left => do
    if ← isPunct "." then
      skip
      let right ← anyWord
      return some (← finish start (.type .qualified) [left, right])
    else return none) first

/-- A parameter in a type: a pattern that may be preceded by dots. -/
def typeParam (g : Productions) : Parser Node := do
  let start ← position
  if ← eatPunct "..." then
    let p ← g.pattern
    finish start (.pattern .rest) [p, .absent]
  else g.pattern

/-- The parameters of a signature. -/
def signatureParams (g : Productions) : Parser Node := do
  expectPunct "("
  return .group (← listIn ")" (typeParam g))

/-- The words that are types by themselves. -/
def typeWords : List String := [
  "any", "unknown", "number", "string", "boolean", "bigint", "symbol", "object", "void",
  "undefined", "null", "never", "this"]

/-- Ends a member of an interface or a type literal. -/
def endTypeMember : Parser Unit := do
  unless ← eatPunct "," do endStatement .semicolonExpected

/-- Whether an index signature starts here: a bracket, a name, a colon. -/
def atIndexSignature : Parser Bool := do
  expectPunct "["
  let _ ← anyWord
  isPunct ":"

/-- An index signature. -/
def indexSignature (g : Productions) (modifiers : Modifiers) : Parser Node := do
  let start ← position
  expectPunct "["
  let key ← g.pattern
  expectPunct "]"
  let t ← optionalType g
  endTypeMember
  finish start (.type (.indexSignature modifiers)) [key, t]

/-- Whether the word that is next is a modifier: something it can modify follows. -/
def isModifier (word : String) : Parser Bool := do
  if ← isWord word then
    let next ← peekSecond
    return match next.token with
      | .name .. | .string .. | .number .. | .privateName _ => true
      | .punct p => p == "[" || p == "\x7b" || p == "*"
      | _ => false
  else return false

/-- A member of an interface or a type literal. -/
def typeMember (g : Productions) : Parser Node := do
  let start ← position
  let signature (kind : TypeKind) : Parser Node := do
    let params ← optionalTypeParameters g
    let args ← signatureParams g
    let t ← optionalResult g
    endTypeMember
    finish start (.type kind) [params, args, t]
  if (← isPunct "(") || (← isPunct "<") then signature .callSignature
  else
    let second := (← peekSecond).token
    if (← isWord "new") && (second == .punct "(" || second == .punct "<") then
      skip
      signature .constructSignature
    else
      let isReadonly ← isModifier "readonly"
      if isReadonly then skip
      if ← testing atIndexSignature then
        indexSignature g { isReadonly := isReadonly }
      else
        let isGetter ← isModifier "get"
        let isSetter ← isModifier "set"
        if isGetter || isSetter then skip
        let key ← propertyKey g
        if isGetter then
          expectPunct "("
          expectPunct ")"
          let t ← optionalType g
          endTypeMember
          finish start (.type .getterSignature) [key, t]
        else if isSetter then
          let args ← signatureParams g
          endTypeMember
          finish start (.type .setterSignature) [key, args]
        else
          let isOptional ← eatPunct "?"
          if (← isPunct "(") || (← isPunct "<") then
            let params ← optionalTypeParameters g
            let args ← signatureParams g
            let t ← optionalResult g
            endTypeMember
            finish start (.type (.methodSignature isOptional)) [key, params, args, t]
          else
            let t ← optionalType g
            endTypeMember
            finish start (.type (.propertySignature isReadonly isOptional)) [key, t]

/-- The members of an interface or a type literal, with their braces. -/
def typeMembers (g : Productions) : Parser (List Node) := do
  expectPunct "\x7b"
  manyUntil (eatPunct "\x7d") (typeMember g)

/-- A mark before or after a part of a mapped type: the word, with its sign. -/
def mappedMark (present : Parser Bool) : Parser String := do
  if ← isPunct "+" then
    skip
    if ← present then return "+" else refuseFor "readonly"
  else if ← isPunct "-" then
    skip
    if ← present then return "-" else refuseFor "readonly"
  else if ← present then return "=" else return ""

/-- Whether a mapped type starts here, after its brace. -/
def atMapped : Parser Bool := do
  let _ ← eatPunct "+"
  let _ ← eatPunct "-"
  let _ ← eatWord "readonly"
  expectPunct "["
  let _ ← anyWord
  isWord "in"

/-- A mapped type. -/
def mappedType (g : Productions) : Parser Node := do
  let start ← position
  expectPunct "\x7b"
  let readonlyMark ← mappedMark (eatWord "readonly")
  expectPunct "["
  let name ← anyWord
  expectWord "in"
  let constraint ← g.type
  let renamed ← if ← eatWord "as" then g.type else pure .absent
  expectPunct "]"
  let optionalMark ← mappedMark (eatPunct "?")
  let t ← if ← eatPunct ":" then g.type else pure .absent
  let _ ← eatPunct ";"
  expectPunct "\x7d"
  finish start (.type (.mapped readonlyMark optionalMark)) [name, constraint, renamed, t]

/-- An element of a tuple type. -/
def tupleElement (g : Productions) : Parser Node := do
  let start ← position
  let labelled ← testing do
    let _ ← eatPunct "..."
    let _ ← anyWord
    let _ ← eatPunct "?"
    isPunct ":"
  let isRest ← eatPunct "..."
  let inner ← position
  let t ←
    if labelled then do
      let name ← anyWord
      let isOptional ← eatPunct "?"
      expectPunct ":"
      let t ← g.type
      finish inner (.type (.labelled isOptional)) [name, t]
    else do
      let t ← g.type
      if ← eatPunct "?" then finish inner (.type .optional) [t] else pure t
  if isRest then finish start (.type .rest) [t] else return t

/-- A type without operators. -/
def primaryType (g : Productions) : Parser Node := do
  let start ← position
  match ← peek with
  | .punct "\x7b" =>
    if ← testing (skip *> atMapped) then mappedType g
    else
      let ms ← typeMembers g
      finish start (.type .literalType) ms
  | .punct "[" =>
    skip
    let es ← listIn "]" (tupleElement g)
    finish start (.type .tuple) es
  | .punct "(" =>
    skip
    let t ← within ({ · with plainTypes := false }) g.type
    expectPunct ")"
    finish start (.type .paren) [t]
  | .punct "`" => templateOf (.type .template) g.type
  | .punct "-" =>
    skip
    match ← peek with
    | .number raw _ =>
      skip
      finish start (.type .literal) [.mk (.literal (.number ("-" ++ raw))) ⟨start, 0⟩ []]
    | .bigint raw =>
      skip
      finish start (.type .literal) [.mk (.literal (.bigint ("-" ++ raw))) ⟨start, 0⟩ []]
    | _ => refuse .typeExpected
  | .string .. =>
    let s ← stringLiteral
    finish start (.type .literal) [s]
  | .number .. | .bigint .. =>
    let l ← propertyKey g
    finish start (.type .literal) [l]
  | .name word _ =>
    let dotted := (← peekSecond).token == .punct "."
    if word == "true" || word == "false" then
      skip
      finish start (.type .literal) [.mk (.literal (.boolean (word == "true"))) ⟨start, 0⟩ []]
    else if word == "typeof" then
      skip
      let name ←
        if ← isWord "import" then importedType start
        else entityName
      let args ← if ← newlineBefore then pure .absent else optionalTypeArguments g
      finish start (.type .query) [name, args]
    else if word == "import" then importedType start
    else if typeWords.contains word && !dotted then
      skip
      finish start (.type (.keyword word)) []
    else if isReserved word then refuse .typeExpected
    else
      let name ← entityName
      let args ← if ← newlineBefore then pure .absent else optionalTypeArguments g
      finish start (.type .reference) [name, args]
  | _ => refuse .typeExpected
where
  /-- A type of another module. -/
  importedType (start : Nat) : Parser Node := do
    expectWord "import"
    expectPunct "("
    let source ← stringLiteral
    expectPunct ")"
    let name ← if ← eatPunct "." then entityName else pure .absent
    let args ← optionalTypeArguments g
    finish start (.type .imported) [source, name, args]

/-- A type with the brackets after it. -/
def postfixType (g : Productions) : Parser Node := do
  let start ← position
  let t ← primaryType g
  extend (fun t => do
    if (← isPunct "[") && !(← newlineBefore) then
      skip
      if ← eatPunct "]" then return some (← finish start (.type .array) [t])
      let index ← g.type
      expectPunct "]"
      return some (← finish start (.type .indexed) [t, index])
    else return none) t

/-- A type with the words before it. -/
def operatorType (g : Productions) : Nat → Parser Node
  | 0 => refuse .tooDeep
  | n + 1 => do
    let start ← position
    let operator (word : String) : Parser Node := do
      skip
      let t ← operatorType g n
      finish start (.type (.operator word)) [t]
    let next ← peekSecond
    let applies := match next.token with
      | .name t _ => t != "extends" && t != "is"
      | .punct p => p == "(" || p == "\x7b" || p == "["
      | .string .. => true
      | _ => false
    if (← isWord "keyof") && applies then operator "keyof"
    else if (← isWord "unique") && applies then operator "unique"
    else if (← isWord "readonly") && applies then operator "readonly"
    else if (← isWord "infer") && applies then
      skip
      let inner ← position
      let name ← anyWord
      let constraint ← attempt do
        expectWord "extends"
        let c ← within ({ · with plainTypes := true }) g.type
        if !(← read).plainTypes && (← isPunct "?") then refuse .typeExpected
        return c
      let p ← finish inner (.type (.parameter false false false))
        [name, constraint.getD .absent, .absent]
      finish start (.type .infer) [p]
    else postfixType g

/-- Types joined by an operator, which may also stand before the first. -/
def joinedType (operator : String) (kind : TypeKind) (piece : Parser Node) : Parser Node := do
  let start ← position
  let leading ← eatPunct operator
  let ts ← separated operator piece
  match ts with
  | [t] => if leading then finish start (.type kind) [t] else return t
  | ts => finish start (.type kind) ts

/-- The type of a function, from its type parameters on. -/
def functionType (g : Productions) (start : Nat) (kind : TypeKind) : Parser Node := do
  let params ← optionalTypeParameters g
  let args ← signatureParams g
  expectPunct "=>"
  let t ← resultAscribed g
  finish start (.type kind) [params, args, t]

/-- A type. -/
def typeProduction (g : Productions) : Parser Node := do
  let start ← position
  let second := (← peekSecond).token
  if (← isWord "new") then
    skip
    functionType g start (.constructor_ false)
  else if (← isWord "abstract") && second == .name "new" false then
    skip
    skip
    functionType g start (.constructor_ true)
  else if ← isPunct "<" then functionType g start .function
  else
    let isFunction ←
      if ← isPunct "(" then
        testing do
          let _ ← signatureParams g
          isPunct "=>"
      else pure false
    if isFunction then functionType g start .function
    else
      let limit := (← read).limit
      let checked ← joinedType "|" .union (joinedType "&" .intersection (operatorType g limit))
      if !(← read).plainTypes && !(← newlineBefore) && (← isWord "extends") then
        skip
        let constraint ← within ({ · with plainTypes := true }) g.type
        expectPunct "?"
        let yes ← within ({ · with plainTypes := false }) g.type
        expectPunct ":"
        let no ← within ({ · with plainTypes := false }) g.type
        finish start (.type .conditional) [checked, constraint, yes, no]
      else return checked

end ServerBoundary.Grammar
