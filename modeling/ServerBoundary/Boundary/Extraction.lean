import ServerBoundary.Boundary.Registration

/-!
# Extracting server closures

A closure that runs on the server by its own directive is moved out of its module's functions into
an exported function, and a `bind` call takes its place. What the closure uses of the names that the
nearest enclosing function binds becomes its leading parameters, bound in the same order.

Closures are extracted innermost first: a tree is rewritten after its parts, so a closure is looked
at when the closures inside it have already been replaced.
-/

namespace ServerBoundary.Boundary

open Syntax

/-- A closure that was moved out, under its generated name. -/
inductive Extracted where
  /-- From a declaration: a function without a name. -/
  | declaration (name : String) (function : Node)
  /-- From an expression. -/
  | expression (name : String) (function : Node)
deriving Repr

/-- The generated name. -/
def Extracted.name : Extracted → String
  | declaration name _ => name
  | expression name _ => name

/-- The name of the closure that is extracted when `count` closures were. -/
def extractedName (count : Nat) : String := "__waku_func" ++ Nat.repr (count + 1)

/-- The names of the enclosing function that a closure uses and does not bind itself, in the order
of the enclosing function. -/
def capturedNames (scope used own : List String) : List String :=
  scope.filter fun name => used.contains name && !own.contains name

/-- A parameter that is a plain name. -/
def plainParam (name : String) : Node := Build.node (.member .param) [.group [], Build.binding name]

/-- A function, arrow function or function expression with more parameters in front. -/
def prependParams (names : List String) : Node → Node
  | .mk (.member (.function m)) sp (.mk .group gsp params :: rest) =>
    .mk (.member (.function m)) sp (.mk .group gsp (names.map plainParam ++ params) :: rest)
  | .mk (.expr (.arrow a)) sp (.mk .group gsp params :: rest) =>
    .mk (.expr (.arrow a)) sp (.mk .group gsp (names.map Build.binding ++ params) :: rest)
  | .mk (.expr .function) sp
      (name :: .mk (.member (.function m)) fsp (.mk .group gsp params :: rest) :: more) =>
    .mk (.expr .function) sp
      (name :: .mk (.member (.function m)) fsp
        (.mk .group gsp (names.map plainParam ++ params) :: rest) :: more)
  | n => n

/-- What an expression or a function binds itself: for a function expression, its function. -/
def ownNames (n : Node) : List String :=
  match n.kind with
  | .expr .function => (n.part 1).localNames
  | _ => n.localNames

/-- How a closure stands in the tree: what takes its place, and how it is declared once it is moved
out, depend on it. -/
inductive Site where
  | expression
  /-- A declaration of a function, whose name stood at a place of the source. -/
  | declaration (name : String) (at_ : Span)
  | defaultExport
deriving DecidableEq, Repr

/-- The site with a call in place of the closure. -/
def Site.fill (call : Node) : Site → Node
  | expression => call
  | declaration name at_ =>
    Build.constant (.mk (.pattern (.binding name false)) at_ [.absent]) call
  | defaultExport => Build.exportDefault call

/-- The closure of a site, moved out under a name. -/
def Site.moved (name : String) (closure : Node) : Site → Extracted
  | expression => .expression name closure
  | declaration _ _ => .declaration name closure
  | defaultExport => .declaration name closure

/-- Whether a node is a function that runs on the server by its own directive, and not an arrow
function. -/
def isServerFunctionNode (n : Node) : Bool :=
  match n.kind with
  | .member (.function _) => isServerFunction n
  | _ => false

/-- How a closure that runs on the server by its own directive stands in the tree, if the node is
one. -/
def serverSite? (n : Node) : Option Site :=
  match n.kind with
  | .expr .function => if isServerFunctionNode (n.part 1) then some .expression else none
  | .expr (.arrow _) => if isServerFunction n then some .expression else none
  | .stmt (.function _) =>
    match (n.part 0).kind with
    | .ident name =>
      if isServerFunctionNode (n.part 1) then some (.declaration name (n.part 0).span) else none
    | _ => none
  | .module .exportDefaultFunction =>
    if isServerFunctionNode (n.part 1) then some .defaultExport else none
  | _ => none

/-- What is moved out of a site: an expression as it is, of a declaration its function. -/
def Site.closure (n : Node) : Site → Node
  | expression => n
  | declaration _ _ => n.part 1
  | defaultExport => n.part 1

/-- What the extraction carries through a tree: the names that the enclosing functions bind,
innermost first, and the closures moved out so far. -/
structure Extraction where
  scopes : List (List String) := []
  found : List Extracted := []

namespace Extraction

/-- The names that the nearest enclosing function binds. -/
def scope (st : Extraction) : List String := st.scopes.headD []

/-- Enters a node: the names of one that opens a scope go on the stack. -/
def enter (names : Option (List String)) (st : Extraction) : Extraction :=
  match names with
  | some names => { st with scopes := names :: st.scopes }
  | none => st

/-- Leaves a node: the names of one that opened a scope go off the stack. -/
def leave (names : Option (List String)) (st : Extraction) : Extraction :=
  match names with
  | some _ => { st with scopes := st.scopes.tail }
  | none => st

/-- What a closure captures of the nearest enclosing function. -/
def captured (st : Extraction) (closure : Node) : List String :=
  capturedNames st.scope closure.identifiers (ownNames closure)

/-- The name that the next closure gets. -/
def nextName (st : Extraction) : String := extractedName st.found.length

/-- Moves a closure out of its site. -/
def move (st : Extraction) (site : Site) (closure : Node) : Extraction :=
  let function := prependParams (st.captured closure) (stripFunction closure)
  { st with found := st.found ++ [site.moved st.nextName function] }

end Extraction

/-- What takes the place of a node whose parts were rewritten. -/
def extractSite (n : Node) (st : Extraction) : Node × Extraction :=
  match serverSite? n with
  | some site =>
    let closure := site.closure n
    (site.fill (Build.bindNull st.nextName (st.captured closure)), st.move site closure)
  | none => (n, st)

mutual
/-- A tree without its server closures. -/
def extract : Node → Extraction → Node × Extraction
  | .mk k sp cs, st =>
    if k.isType then (.mk k sp cs, st)
    else
      let names := (Node.mk k sp cs).localNames?
      let (cs', st') := extractAll cs (st.enter names)
      extractSite (.mk k sp cs') (st'.leave names)
/-- A list of trees without their server closures. -/
def extractAll : List Node → Extraction → List Node × Extraction
  | [], st => ([], st)
  | n :: ns, st =>
    let (n', st') := extract n st
    let (ns', st'') := extractAll ns st'
    (n' :: ns', st'')
end

/-- The items that declare and register an extracted closure. -/
def Extracted.items (id : String) : Extracted → List Node
  | declaration name function => [
      Build.node (.module .exportDecl)
        [.mk (.stmt (.function false)) function.span [Build.ident name, function]],
      Build.statement (registration (Build.ident name) id name)]
  | expression name function => [Build.exportConst name (registration function id name)]

/-- A module with its server closures extracted, and whether there are any. The id is needed only if
there are. -/
def extractModule (id : ModuleId) (module : Node) : Except BoundaryError (Node × Bool) :=
  let (items, st) := extractAll module.children {}
  if st.found.isEmpty then .ok (module, false)
  else do
    let id ← requireId id
    return (withItems module (insertAfterHead (st.found.flatMap (·.items id)) items), true)

end ServerBoundary.Boundary
