import ServerBoundary.Grammar.Pattern

/-!
# Functions and classes

Parameters, bodies, methods and class members. A function body is read in a context of its own:
labels, loops and `await` of the code around it do not reach into it.
-/

namespace ServerBoundary.Grammar

open Syntax Source

/-- The context inside a function. -/
def Context.inside (mode : FunctionMode) (c : Context) : Context :=
  { c with
    isAsync := mode.isAsync, isGenerator := mode.isGenerator, inFunction := true, newTarget := true,
    canBreak := false, canContinue := false, allowIn := true, labels := [], plainTypes := false }

/-- The context inside an arrow function, which has no `new.target` of its own. -/
def Context.insideArrow (isAsync : Bool) (c : Context) : Context :=
  { c.inside { isAsync := isAsync } with newTarget := c.newTarget }

/-- The context of a field's value and of a static block. -/
def Context.insideField (c : Context) : Context :=
  { c.inside {} with inFunction := false }

/-- A block: statements in braces. -/
def block (g : Productions) : Parser Node := do
  let start ← position
  expectPunct "\x7b"
  let ss ← manyUntil (do
    if (← peek) == .eof then refuseFor "\x7d"
    eatPunct "\x7d") g.statement
  finish start (.stmt .block) ss

/-- Decorators, where types may be written. -/
def decorators (g : Productions) : Parser (List Node) := do
  if (← read).types then
    manyUntil (return !(← isPunct "@")) do
      let start ← position
      skip
      let e ← g.unary
      finish start (.member .decorator) [e]
  else return []

/-- The accessibility word that is next. -/
def accessWord : Parser Access := do
  if ← isModifier "public" then skip; return .publicly
  else if ← isModifier "protected" then skip; return .protectedly
  else if ← isModifier "private" then skip; return .privately
  else return .unmarked

/-- A parameter of a function, or of a constructor, which may declare a field. -/
def parameter (g : Productions) : Parser Node := do
  let start ← position
  let ds ← decorators g
  let types := (← read).types
  let access ← if types then accessWord else pure .unmarked
  let isOverride ← if types && (← isModifier "override") then eatWord "override" else pure false
  let isReadonly ← if types && (← isModifier "readonly") then eatWord "readonly" else pure false
  let p ← if ← isPunct "..." then restPattern g else withDefault g g.pattern
  if access != .unmarked || isOverride || isReadonly then
    finish start (.member (.paramProperty
      { access := access, isOverride := isOverride, isReadonly := isReadonly })) [.group ds, p]
  else finish start (.member .param) [.group ds, p]

/-- The parameters of a function in parentheses. -/
def parameters (g : Productions) : Parser Node := do
  expectPunct "("
  return .group (← listIn ")" (parameter g))

/-- The body of a function; where types may be written it may be missing. -/
def body (g : Productions) : Parser Node := do
  if (← read).types && !(← isPunct "\x7b") then
    endStatement .semicolonExpected
    return .absent
  else block g

/-- A function from its type parameters on. -/
def functionFrom (g : Productions) (start : Nat) (mode : FunctionMode) (ds : List Node) :
    Parser Node := do
  let typeParams ← optionalTypeParameters g
  let (args, result, b) ← within (Context.inside mode) do
    let args ← parameters g
    let result ← optionalResult g
    let b ← body g
    return (args, result, b)
  finish start (.member (.function mode)) [args, .group ds, b, typeParams, result]

/-- A method of an object or a class, from its parameters on, with the word before its key. -/
def methodWord (isGetter isSetter : Bool) : MethodWord :=
  if isGetter then .getter else if isSetter then .setter else .method

/-- Whether the word that is next stands before a key and is not one itself. -/
def isKeyWord (word : String) (sameLine : Bool) : Parser Bool := do
  if ← isWord word then
    let next ← peekSecond
    if sameLine && next.newlineBefore then return false
    return match next.token with
      | .name .. | .string .. | .number .. | .bigint .. | .privateName _ => true
      | .punct p => p == "[" || (p == "*" && word == "async")
      | _ => false
  else return false

/-- The modifiers of a class member, in any order. -/
def memberModifiers : Nat → Modifiers → Parser Modifiers
  | 0, m => return m
  | n + 1, m => do
    let types := (← read).types
    let next ← peekSecond
    let modifies := match next.token with
      | .name .. | .string .. | .number .. | .bigint .. | .privateName _ => true
      | .punct p => p == "[" || p == "*"
      | _ => false
    let word (w : String) : Parser Bool := do
      if (← isWord w) && modifies then skip; return true else return false
    if (← word "static") then memberModifiers n { m with isStatic := true }
    else if !types then return m
    else if next.newlineBefore then return m
    else if (← word "declare") then memberModifiers n { m with isDeclare := true }
    else if (← word "abstract") then memberModifiers n { m with isAbstract := true }
    else if (← word "override") then memberModifiers n { m with isOverride := true }
    else if (← word "readonly") then memberModifiers n { m with isReadonly := true }
    else if (← word "accessor") then memberModifiers n { m with isAccessor := true }
    else if (← word "public") then memberModifiers n { m with access := .publicly }
    else if (← word "protected") then memberModifiers n { m with access := .protectedly }
    else if (← word "private") then memberModifiers n { m with access := .privately }
    else return m

/-- Whether a key is that of a constructor. -/
def isConstructorKey : Node → Bool
  | .mk (.word text) _ _ => text == "constructor"
  | .mk (.literal (.string value _)) _ _ => value == "constructor"
  | _ => false

/-- A member of a class. -/
def classMember (g : Productions) : Parser Node := do
  let start ← position
  if ← eatPunct ";" then finish start (.member .empty) []
  else
    let ds ← decorators g
    let second := (← peekSecond).token
    if (← isWord "static") && second == .punct "\x7b" then
      skip
      let b ← within Context.insideField (block g)
      finish start (.member .staticBlock) [b]
    else
      let m ← memberModifiers 12 {}
      if (← read).types && (← testing atIndexSignature) then indexSignature g m
      else
        let isAsync ← isKeyWord "async" true
        if isAsync then skip
        let isGenerator ← eatPunct "*"
        let plain := !isAsync && !isGenerator
        let isGetter ← if plain then isKeyWord "get" false else pure false
        let isSetter ← if plain then isKeyWord "set" false else pure false
        if isGetter || isSetter then skip
        let key ← within Context.insideField (propertyKey g)
        let isOptional ← if (← read).types then eatPunct "?" else pure false
        let m := { m with isOptional := isOptional }
        if (← isPunct "(") || ((← read).types && (← isPunct "<")) then
          if isConstructorKey key && !m.isStatic && plain && !isGetter && !isSetter then
            let (args, b) ← within (Context.inside {}) do
              let args ← parameters g
              return (args, ← body g)
            finish start (.member (.constructor_ m)) [key, args, b]
          else
            let mode : FunctionMode := ⟨isAsync, isGenerator⟩
            let f ← functionFrom g start mode ds
            finish start (.member (.method (methodWord isGetter isSetter) m)) [key, f]
        else
          let isDefinite ← if (← read).types then eatPunct "!" else pure false
          let t ← optionalType g
          let value ← after "=" (within Context.insideField g.assignment)
          endStatement .semicolonExpected
          finish start (.member (.field { m with isDefinite := isDefinite }))
            [key, value, t, .group ds]

/-- A superclass or an implemented type, with its type arguments. -/
def heritage (g : Productions) : Parser Node := do
  let start ← position
  let name ← entityName
  let args ← optionalTypeArguments g
  finish start (.type .heritage) [name, args]

/-- A class from its type parameters on. -/
def classFrom (g : Productions) (start : Nat) (isAbstract : Bool) (ds : List Node) : Parser Node := do
  let typeParams ← optionalTypeParameters g
  let superclass ← if ← eatWord "extends" then g.unary else pure .absent
  let (superclass, superArgs) ←
    match superclass with
    | .mk (.expr .instantiation) _ [e, args] => pure (e, args)
    | e => do
      let args ← if e.isPresent then optionalTypeArguments g else pure .absent
      pure (e, args)
  let types ←
    if (← read).types && (← eatWord "implements") then separated "," (heritage g) else pure []
  expectPunct "\x7b"
  let ms ← manyUntil (eatPunct "\x7d") (classMember g)
  finish start (.member (.class_ isAbstract))
    [.group ds, .group ms, superclass, typeParams, superArgs, .group types]

end ServerBoundary.Grammar
