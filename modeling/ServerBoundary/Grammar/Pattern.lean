import ServerBoundary.Grammar.Type

/-!
# Patterns

Binding patterns are read by `patternCore`. An assignment target or the parameters of an arrow
function are read as an expression first and turned into a pattern by `patternOf?` once the token
after them shows what they are.
-/

namespace ServerBoundary.Grammar

open Syntax Source

mutual
/-- The pattern an expression was meant as, if there is one. -/
def patternOf? : Node → Option Node
  | .mk (.ident name) sp _ => some (.mk (.pattern (.binding name false)) sp [.absent])
  | .mk .absent sp cs => some (.mk .absent sp cs)
  | .mk (.expr .array) sp es =>
    (patternsOf? es).map fun ps => .mk (.pattern (.array false)) sp [.group ps, .absent]
  | .mk (.expr .object) sp es =>
    (propertyPatternsOf? es).map fun ps => .mk (.pattern (.object false)) sp [.group ps, .absent]
  | .mk (.expr .spread) sp [e] =>
    (patternOf? e).map fun p => .mk (.pattern .rest) sp [p, .absent]
  | .mk (.expr (.assign op)) sp [target, value] =>
    if op == "=" then
      (patternOf? target).map fun p => .mk (.pattern .defaulted) sp [p, value]
    else none
  | .mk (.property .keyed) sp [key, value] =>
    (patternOf? value).map fun p => .mk (.pattern .keyed) sp [key, p]
  | .mk (.property .initialized) sp [name, value] =>
    (patternOf? name).map fun p => .mk (.pattern .shorthand) sp [p, value]
  | .mk (.pattern k) sp cs => some (.mk (.pattern k) sp cs)
  | .mk (.expr (.member false)) sp cs => some (.mk (.expr (.member false)) sp cs)
  | .mk (.expr (.index false)) sp cs => some (.mk (.expr (.index false)) sp cs)
  | .mk (.expr .paren) sp cs => some (.mk (.expr .paren) sp cs)
  | .mk (.expr .nonNull) sp cs => some (.mk (.expr .nonNull) sp cs)
  | .mk (.expr .asType) sp cs => some (.mk (.expr .asType) sp cs)
  | .mk (.expr .satisfiesType) sp cs => some (.mk (.expr .satisfiesType) sp cs)
  | .mk (.expr .assertion) sp cs => some (.mk (.expr .assertion) sp cs)
  | _ => none
/-- The patterns that the elements of an array or a list of parameters were meant as. -/
def patternsOf? : List Node → Option (List Node)
  | [] => some []
  | e :: es => (patternOf? e).bind fun p => (patternsOf? es).map (p :: ·)
/-- The patterns that the properties of an object were meant as. -/
def propertyPatternsOf? : List Node → Option (List Node)
  | [] => some []
  | e :: es =>
    (patternOf? e).bind fun p =>
      let p := match p with
        | .mk (.pattern (.binding _ _)) sp _ => Node.mk (.pattern .shorthand) sp [p, .absent]
        | _ => p
      (propertyPatternsOf? es).map (p :: ·)
end

/-- A pattern with the mark and the type after it. -/
def withType (p : Node) (optional : Bool) (t : Node) (stop : Nat) : Node :=
  match p with
  | .mk (.pattern (.binding name _)) sp _ =>
    .mk (.pattern (.binding name optional)) { sp with stop := stop } [t]
  | .mk (.pattern (.array _)) sp (es :: _) =>
    .mk (.pattern (.array optional)) { sp with stop := stop } [es, t]
  | .mk (.pattern (.object _)) sp (ps :: _) =>
    .mk (.pattern (.object optional)) { sp with stop := stop } [ps, t]
  | .mk (.pattern .rest) sp (p :: _) =>
    .mk (.pattern .rest) { sp with stop := stop } [p, t]
  | p => p

/-- A name that is bound. `this` may be one where types are. -/
def bindingName : Parser Node := do
  let start ← position
  if (← read).types && (← isWord "this") then
    skip
    finish start (.pattern (.binding "this" false)) [.absent]
  else
    match ← boundIdentifier with
    | .mk (.ident name) sp _ => return .mk (.pattern (.binding name false)) sp [.absent]
    | other => return other

/-- A pattern with its default value. -/
def withDefault (g : Productions) (pattern : Parser Node) : Parser Node := do
  let start ← position
  let p ← pattern
  if ← eatPunct "=" then
    let value ← within ({ · with allowIn := true }) g.assignment
    finish start (.pattern .defaulted) [p, value]
  else return p

/-- A rest pattern, whose dots are next. -/
def restPattern (g : Productions) : Parser Node := do
  let start ← position
  expectPunct "..."
  let p ← g.pattern
  match p with
  | .mk (.pattern (.binding name optional)) sp [t] =>
    finish start (.pattern .rest) [.mk (.pattern (.binding name optional)) sp [.absent], t]
  | .mk (.pattern (.array _)) sp [es, t] =>
    finish start (.pattern .rest) [.mk (.pattern (.array false)) sp [es, .absent], t]
  | .mk (.pattern (.object _)) sp [ps, t] =>
    finish start (.pattern .rest) [.mk (.pattern (.object false)) sp [ps, .absent], t]
  | p => finish start (.pattern .rest) [p, .absent]

/-- An element of an array pattern: a hole, a rest pattern, or a pattern with its default. -/
def arrayElement (g : Productions) : Parser Node := do
  if ← isPunct "," then return .absent
  else if ← isPunct "..." then restPattern g
  else withDefault g g.pattern

/-- A property of an object pattern. -/
def objectElement (g : Productions) : Parser Node := do
  let start ← position
  if ← isPunct "..." then restPattern g
  else
    let second := (← peekSecond).token
    let isName := match ← peek with
      | .name .. => true
      | _ => false
    if isName && second != .punct ":" then
      let name ← bindingName
      let value ← after "=" (within ({ · with allowIn := true }) g.assignment)
      finish start (.pattern .shorthand) [name, value]
    else
      let key ← propertyKey g
      expectPunct ":"
      let p ← withDefault g g.pattern
      finish start (.pattern .keyed) [key, p]

/-- A name or an array or object pattern, without a type. -/
def patternCore (g : Productions) : Parser Node := do
  let start ← position
  if ← eatPunct "[" then
    let es ← listIn "]" (arrayElement g)
    finish start (.pattern (.array false)) [.group es, .absent]
  else if ← eatPunct "\x7b" then
    let ps ← listIn "\x7d" (objectElement g)
    finish start (.pattern (.object false)) [.group ps, .absent]
  else bindingName

/-- A pattern with the question mark and the type after it. -/
def patternProduction (g : Productions) : Parser Node := do
  let p ← patternCore g
  if (← read).types then
    let optional ← eatPunct "?"
    let t ← optionalType g
    return withType p optional t (← get).lastStop
  else return p

end ServerBoundary.Grammar
