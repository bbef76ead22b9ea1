import ServerBoundary.Grammar.Markup
import ServerBoundary.Grammar.Statement

/-!
# Modules

Import and export items, and the grammar as a whole: `grammar n` follows productions into each
other at most `n` levels deep, and `parseModule` gives it more levels than the source has room for.
-/

namespace ServerBoundary.Grammar

open Syntax Source

/-- The import attributes after a source, if there are any. -/
def importAttributes (g : Productions) : Parser Node := do
  let asserts := (← isWord "assert") && !(← newlineBefore)
  if (← isWord "with") || asserts then
    skip
    let start ← position
    expectPunct "\x7b"
    let ps ← listIn "\x7d" (objectItem g)
    finishExpr start .object ps
  else return .absent

/-- The name of an import or export in another module. -/
def moduleName : Parser Node := do
  let start ← position
  match ← peek with
  | .string .. => stringLiteral
  | .name text _ =>
    skip
    finish start (.ident text) []
  | _ => refuse .identifierExpected

/-- Whether the word `type` that is next marks the specifier after it. -/
def atTypeMark : Parser Bool := do
  if (← read).types && (← isWord "type") then
    match (← peekSecond).token with
    | .name "as" _ =>
      testing do
        skip
        skip
        return (← isPunct ",") || (← isPunct "\x7d")
    | .name .. | .string .. => return true
    | _ => return false
  else return false

/-- An import specifier in braces. -/
def importSpecifier : Parser Node := do
  let start ← position
  let typeOnly ← atTypeMark
  if typeOnly then skip
  let second := (← peekSecond).token
  if second == .name "as" false then
    let imported ← moduleName
    expectWord "as"
    let localName ← boundIdentifier
    finish start (.module (.importNamed typeOnly)) [localName, imported]
  else
    let localName ← boundIdentifier
    finish start (.module (.importNamed typeOnly)) [localName, .absent]

/-- Imported names in braces, or a namespace. -/
def importClause : Parser (List Node) := do
  let start ← position
  if ← eatPunct "*" then
    expectWord "as"
    let name ← boundIdentifier
    return [← finish start (.module .importNamespace) [name]]
  else
    expectPunct "\x7b"
    listIn "\x7d" importSpecifier

/-- The rest of `import a =`, from its name on. -/
def importEquals (g : Productions) (start : Nat) (isExport typeOnly : Bool) : Parser Node := do
  let name ← boundIdentifier
  expectPunct "="
  let inner ← position
  let second := (← peekSecond).token
  let reference ←
    if (← isWord "require") && second == .punct "(" then
      skip
      skip
      let source ← stringLiteral
      expectPunct ")"
      finish inner (.type .require) [source]
    else
      let _ := g
      entityName
  endStatement .semicolonExpected
  finish start (.module (.importEquals isExport typeOnly)) [name, reference]

/-- An import item. -/
def importItem (g : Productions) : Parser Node := do
  let start ← position
  expectWord "import"
  match ← peek with
  | .string .. =>
    let source ← stringLiteral
    let attrs ← importAttributes g
    endStatement .semicolonExpected
    finish start (.module (.import_ false)) [.group [], source, attrs]
  | _ =>
    let typeOnly ←
      if (← read).types && (← isWord "type") then
        match (← peekSecond).token with
        | .punct "\x7b" | .punct "*" => pure true
        | .name "from" _ =>
          testing do
            skip
            skip
            isWord "from"
        | .name .. => pure true
        | _ => pure false
      else pure false
    if typeOnly then skip
    let second := (← peekSecond).token
    if (← read).types && second == .punct "=" then importEquals g start false typeOnly
    else
      let inner ← position
      let specifiers ←
        if (← isPunct "\x7b") || (← isPunct "*") then importClause
        else
          let name ← boundIdentifier
          let first ← finish inner (.module .importDefault) [name]
          if ← eatPunct "," then
            pure (first :: (← importClause))
          else pure [first]
      expectWord "from"
      let source ← stringLiteral
      let attrs ← importAttributes g
      endStatement .semicolonExpected
      finish start (.module (.import_ typeOnly)) [.group specifiers, source, attrs]

/-- An export specifier in braces. -/
def exportSpecifier : Parser Node := do
  let start ← position
  let typeOnly ← atTypeMark
  if typeOnly then skip
  let own ← moduleName
  let exported ← if ← eatWord "as" then moduleName else pure .absent
  finish start (.module (.exportSpecifier typeOnly)) [own, exported]

/-- The source after `from`. -/
def exportSource (g : Productions) : Parser (Node × Node) := do
  expectWord "from"
  let source ← stringLiteral
  return (source, ← importAttributes g)

/-- Export specifiers in braces, with their source if there is one. Without a source a type-only
list marks each of its specifiers, and no name may be a reserved word. -/
def exportList (g : Productions) (start : Nat) (typeOnly : Bool) : Parser Node := do
  expectPunct "\x7b"
  let ss ← listIn "\x7d" exportSpecifier
  if ← isWord "from" then
    let (source, attrs) ← exportSource g
    endStatement .semicolonExpected
    finish start (.module (.exportNamed typeOnly)) [.group ss, source, attrs]
  else
    ss.forM fun s =>
      match s.part 0 with
      | .mk (.ident name) _ _ => if isReserved name then note (.reservedExport name) else pure ()
      | _ => pure ()
    endStatement .semicolonExpected
    let marked (s : Node) : Node := match s with
      | .mk (.module (.exportSpecifier t)) sp cs =>
        .mk (.module (.exportSpecifier (t || typeOnly))) sp cs
      | s => s
    finish start (.module (.exportNamed false)) [.group (ss.map marked), .absent, .absent]

/-- A default export, after its word. -/
def exportDefault (g : Productions) (start : Nat) : Parser Node := do
  let inner ← position
  let second ← peekSecond
  let ds ← decorators g
  let optionalName : Parser Node := do
    match ← peek with
    | .name word _ =>
      if word == "extends" || word == "implements" then return .absent else boundIdentifier
    | _ => return .absent
  if ← isWord "function" then
    skip
    let isGenerator ← eatPunct "*"
    let name ← optionalName
    let f ← functionFrom g inner ⟨false, isGenerator⟩ []
    finish start (.module .exportDefaultFunction) [name, f]
  else if (← isWord "async") && second.token == .name "function" false &&
      !second.newlineBefore then
    skip
    skip
    let isGenerator ← eatPunct "*"
    let name ← optionalName
    let f ← functionFrom g inner ⟨true, isGenerator⟩ []
    finish start (.module .exportDefaultFunction) [name, f]
  else
    let types := (← read).types
    let isAbstract := types && (← isWord "abstract") && second.token == .name "class" false
    if isAbstract then skip
    if ← isWord "class" then
      skip
      let name ← optionalName
      let c ← classFrom g inner isAbstract ds
      finish start (.module .exportDefaultClass) [name, c]
    else
      let interfaceNext := match second.token with
        | .name .. => !second.newlineBefore
        | _ => false
      if types && (← isWord "interface") && interfaceNext then
        let i ← interfaceDeclaration g
        finish start (.module .exportDefaultInterface) [i]
      else
        let e ← g.assignment
        endStatement .semicolonExpected
        finish start (.module .exportDefaultExpr) [e]

/-- An export item. Its decorators, if any, were read before it. -/
def exportItem (g : Productions) (start : Nat) (ds : List Node) : Parser Node := do
  expectWord "export"
  let types := (← read).types
  let second ← peekSecond
  let declaration (d : Node) : Parser Node := finish start (.module .exportDecl) [d]
  if ← eatWord "default" then exportDefault g start
  else if ← isPunct "*" then exportAll start false
  else if ← isPunct "\x7b" then exportList g start false
  else if types && (← isWord "type") && second.token == .punct "\x7b" then
    skip
    exportList g start true
  else if types && (← isWord "type") && second.token == .punct "*" then
    skip
    exportAll start true
  else if types && (← isPunct "=") then
    skip
    let e ← g.expression
    endStatement .semicolonExpected
    finish start (.module .exportEquals) [e]
  else if types && (← isWord "as") && second.token == .name "namespace" false then
    skip
    skip
    let name ← boundIdentifier
    endStatement .semicolonExpected
    finish start (.module .exportAsNamespace) [name]
  else if types && (← isWord "import") then
    skip
    let typeOnly ←
      match ← peek, (← peekSecond).token with
      | .name "type" _, .name .. => pure true
      | _, _ => pure false
    if typeOnly then skip
    importEquals g start true typeOnly
  else
    if types then
      if let some d ← typedDeclaration g (← read).limit then return ← declaration d
    if let some v ← variableWord then return ← declaration (← variableStatement g v)
    let inner ← position
    match ← peek with
    | .name "function" _ => declaration (← functionDeclaration g)
    | .name "async" _ => declaration (← functionDeclaration g)
    | .name "class" _ => declaration (← classDeclaration g inner ds)
    | .punct "@" =>
      if types then
        let ds' ← decorators g
        declaration (← classDeclaration g inner ds')
      else refuse .expressionExpected
    | _ => refuse .expressionExpected
where
  /-- An export of all names of a module, or of its namespace. -/
  exportAll (start : Nat) (typeOnly : Bool) : Parser Node := do
    let inner ← position
    expectPunct "*"
    if ← eatWord "as" then
      let name ← moduleName
      let specifier ← finish inner (.module .exportNamespace) [name]
      let (source, attrs) ← exportSource g
      endStatement .semicolonExpected
      finish start (.module (.exportNamed typeOnly)) [.group [specifier], source, attrs]
    else
      let (source, attrs) ← exportSource g
      endStatement .semicolonExpected
      finish start (.module (.exportAll typeOnly)) [source, attrs]

/-- A statement of a module, or an import or export. -/
def itemProduction (g : Productions) : Parser Node := do
  let start ← position
  if ← isWord "import" then
    let second := (← peekSecond).token
    if second == .punct "(" || second == .punct "." then g.statement else importItem g
  else if ← isWord "export" then exportItem g start []
  else if (← read).types && (← isPunct "@") then
    let ds ← decorators g
    if ← isWord "export" then exportItem g start ds else classDeclaration g start ds
  else g.statement

/-- The grammar, up to a depth. -/
def grammar : Nat → Productions
  | 0 =>
    let none : Parser Node := refuse .tooDeep
    ⟨none, none, none, none, none, none, none, none⟩
  | n + 1 => {
      expression := fun c r => expressionProduction (grammar n) c r
      assignment := fun c r => assignmentProduction (grammar n) c r
      unary := fun c r => unaryProduction (grammar n) c r
      statement := fun c r => statementProduction (grammar n) c r
      item := fun c r => itemProduction (grammar n) c r
      pattern := fun c r => patternProduction (grammar n) c r
      type := fun c r => typeProduction (grammar n) c r
      element := fun c r => elementProduction (grammar n) c r }

mutual
/-- The initialised shorthand properties that were not meant as a pattern. -/
def initializedProperties : Node → List Node
  | .mk (.property .initialized) sp cs => [.mk (.property .initialized) sp cs]
  | .mk _ _ cs => initializedIn cs
/-- The initialised shorthand properties in a list of nodes. -/
def initializedIn : List Node → List Node
  | [] => []
  | n :: ns => initializedProperties n ++ initializedIn ns
end

/-- The kind of language a file holds. -/
inductive Dialect where
  /-- JavaScript with markup. -/
  | script
  /-- TypeScript without markup. -/
  | typed
  /-- TypeScript with markup. -/
  | typedMarkup
deriving DecidableEq, Repr

/-- The dialect of a file, by the end of its name up to the first question mark. -/
def Dialect.ofFile (file : String) : Dialect :=
  let path := String.ofList (file.toList.takeWhile (· != '?'))
  if path.endsWith ".ts" || path.endsWith ".mts" || path.endsWith ".cts" then .typed
  else if path.endsWith ".tsx" then .typedMarkup
  else .script

/-- A module with its comments. -/
structure Parsed where
  module : Node
  comments : Comments

/-- Everything up to the end of a source, as a module. -/
def moduleProduction (g : Productions) (shebang : Option String) : Parser Node := do
  let start ← position
  let items ← manyUntil (return (← peek) == .eof) g.item
  for _ in initializedIn items do note .initializedProperty
  finish start (.module (.module_ shebang)) items

/-- Reads a module. If there are faults they are all given: first those that did not end the
reading, in the order of the source, then the one that did. -/
def parseModule (dialect : Dialect) (source : String) : Except (List SyntaxError) Parsed :=
  let cs := source.toList
  let size := cs.length
  let context : Context := {
    types := dialect != .script
    markup := dialect != .typed
    limit := size + 8 }
  let (shebang, position, rest) := match cs with
    | '#' :: '!' :: more =>
      let (text, rest) := more.span (fun c => !isLineEnd c)
      (some (String.ofList text), text.length + 3, rest)
    | _ => (none, 1, cs)
  match moduleProduction (grammar (4 * size + 64)) shebang context
      (Reader.ofText position rest) with
  | .ok m r => if r.faults.isEmpty then .ok ⟨m, r.comments⟩ else .error r.faults.reverse
  | .error e r => .error (r.faults.reverse ++ [e])

end ServerBoundary.Grammar
