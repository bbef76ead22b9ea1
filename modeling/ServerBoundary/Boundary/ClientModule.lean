import ServerBoundary.Syntax.Build
import ServerBoundary.Boundary.Directive
import ServerBoundary.Boundary.ExportNames
import ServerBoundary.Boundary.Error

/-!
# Client modules in the server graph

Of a module that runs in the browser the server keeps only what its allow-server values need: the
argument of each marker call, and the imports and top-level declarations reachable from it. Every
other export becomes a stub that is registered as a client reference and throws when it is called.
-/

namespace ServerBoundary.Boundary

open Syntax

/-- The function that marks a value as allowed on the server. -/
def markerName : String := "unstable_allowServer"

/-- The module that exports the marker. -/
def markerSource : String := "waku/client"

/-- The local name of the function that registers a client reference. -/
def registerClient : String := "__waku_registerClientReference"

/-- The module that exports the registering functions. -/
def serverRuntime : String := "react-server-dom-webpack/server.edge"

/-- The source of an import. -/
def importSource? : Node → Option String
  | .mk (.module (.import_ _)) _ [_, .mk (.literal (.string value _)) _ _, _] => some value
  | _ => none

/-- The specifiers of an import. -/
def importSpecifiers : Node → List Node
  | .mk (.module (.import_ _)) _ (.mk .group _ specifiers :: _) => specifiers
  | _ => []

/-- The local name of an import specifier. -/
def localName? : Node → Option String
  | .mk (.module (.importNamed _)) _ (name :: _) => writtenName? name
  | .mk (.module .importDefault) _ (name :: _) => writtenName? name
  | .mk (.module .importNamespace) _ (name :: _) => writtenName? name
  | _ => none

/-- The local name of a specifier that renames the marker. -/
def renamedMarker? : Node → Option String
  | .mk (.module (.importNamed _)) _ [name, imported] =>
    if imported.isPresent && writtenName? imported == some markerName then writtenName? name
    else none
  | _ => none

/-- The local name of the marker: as the first import from its module renames it, or its own. -/
def markerIn (items : List Node) : String :=
  match items.find? fun item => importSource? item == some markerSource with
  | some item => ((importSpecifiers item).findSome? renamedMarker?).getD markerName
  | none => markerName

/-- An exported name with the argument of its marker call. -/
structure AllowedItem where
  name : String
  value : Node
deriving Repr

/-- The allowed item that a declarator is, if its value is a call of the marker. The call has to
have one argument, which is not spread. -/
def allowedDeclarator (marker : String) : Node → Except BoundaryError (Option AllowedItem)
  | .mk (.stmt (.declarator _)) _ [.mk (.pattern (.binding name _)) _ _,
      .mk (.expr (.call false)) _ [.mk (.ident callee) _ _, .mk .group _ args, _]] =>
    if callee == marker then
      match args with
      | [arg] =>
        match arg.kind with
        | .expr .spread => .error .markerArguments
        | _ => .ok (some ⟨name, arg⟩)
      | _ => .error .markerArguments
    else .ok none
  | _ => .ok none

/-- The declarators of an exported variable declaration. -/
def exportedDeclarators : Node → List Node
  | .mk (.module .exportDecl) _ [.mk (.stmt (.variable_ _ _)) _ ds] => ds
  | _ => []

/-- The allowed items among some declarators. -/
def allowedAmong (marker : String) : List Node → Except BoundaryError (List AllowedItem)
  | [] => .ok []
  | d :: ds => do
    let found ← allowedDeclarator marker d
    let rest ← allowedAmong marker ds
    return found.toList ++ rest

/-- The allowed items of a module. -/
def allowedItems (marker : String) (items : List Node) : Except BoundaryError (List AllowedItem) :=
  allowedAmong marker (items.flatMap exportedDeclarators)

/-- What a statement of a module declares: each name with the part that declares it. -/
def topLevelDeclarations : Node → List (String × Node)
  | .mk (.stmt (.variable_ _ _)) _ ds => ds.filterMap fun d => (plainName? d).map (·, d)
  | .mk (.stmt (.function b)) sp (.mk (.ident name) isp ics :: cs) =>
    [(name, .mk (.stmt (.function b)) sp (.mk (.ident name) isp ics :: cs))]
  | .mk (.stmt (.class_ b)) sp (.mk (.ident name) isp ics :: cs) =>
    [(name, .mk (.stmt (.class_ b)) sp (.mk (.ident name) isp ics :: cs))]
  | _ => []

/-- The names that the declarations of a name use. -/
def usesOf (declarations : List (String × Node)) (name : String) : List String :=
  declarations.flatMap fun (n, d) => if n == name then d.identifiers else []

/-- Adds the names that may be added to those found, and to those still to be followed. -/
def addNames (excluded : List String) :
    List String → List String → List String → List String × List String
  | [], found, pending => (found, pending)
  | name :: names, found, pending =>
    if excluded.contains name || found.contains name then addNames excluded names found pending
    else addNames excluded names (found ++ [name]) (pending ++ [name])

/-- Follows the pending names through the declarations. The first argument bounds how many names
are followed. -/
def followNames (declarations : List (String × Node)) (excluded : List String) :
    Nat → List String → List String → List String
  | 0, found, _ => found
  | _ + 1, found, [] => found
  | n + 1, found, name :: pending =>
    let (found, pending) := addNames excluded (usesOf declarations name) found pending
    followNames declarations excluded n found pending

/-- The names reachable from some names through the top-level declarations of a module, without
those excluded, which are not entered either. -/
def reachableNames (items : List Node) (seeds excluded : List String) : List String :=
  let declarations := items.flatMap topLevelDeclarations
  let (found, pending) := addNames excluded seeds [] []
  let bound := seeds.length + (declarations.flatMap fun (_, d) => d.occurrences).length
  followNames declarations excluded bound found pending

/-- What is left of an item if only some names are kept. -/
def retainItem (kept : List String) (item : Node) : Option Node :=
  let keeps (name? : Option String) : Bool := name?.any kept.contains
  match item with
  | .mk (.module (.import_ t)) sp (.mk .group gsp specifiers :: rest) =>
    let left := specifiers.filter fun s => keeps (localName? s)
    if left.isEmpty then none else some (.mk (.module (.import_ t)) sp (.mk .group gsp left :: rest))
  | .mk (.stmt (.variable_ w b)) sp ds =>
    let left := ds.filter fun d => keeps (plainName? d)
    if left.isEmpty then none else some (.mk (.stmt (.variable_ w b)) sp left)
  | .mk (.stmt (.function _)) _ (.mk (.ident name) _ _ :: _) =>
    if kept.contains name then some item else none
  | .mk (.stmt (.class_ _)) _ (.mk (.ident name) _ _ :: _) =>
    if kept.contains name then some item else none
  | _ => none

/-- The items that are left if only some names are kept. -/
def retainItems (kept : List String) (items : List Node) : List Node :=
  items.filterMap (retainItem kept)

/-- The export of an allowed item: its value, registered as a client reference if there is an id. -/
def AllowedItem.export (id : Option String) (a : AllowedItem) : Node :=
  match id with
  | none => Build.exportConst a.name a.value
  | some id =>
    Build.exportConst a.name
      (Build.call registerClient [a.value, Build.string id, Build.string a.name])

/-- What the server graph keeps of a client module. -/
structure KeptClient where
  module : Node
  /-- The exported names that still need a stub. -/
  stubs : List String

/-- A client module cut down to its allowed items and what they need. With `bare` the items are
exported without being registered, and no id is needed. -/
def keepAllowed (id : ModuleId) (bare : Bool) (module : Node) :
    Except BoundaryError KeptClient := do
  let items := module.children
  let marker := markerIn items
  let allowed ← allowedItems marker items
  let names := allowed.map (·.name)
  let stubs := (exportNames module).filter fun n => !names.contains n
  let excluded := stubs ++ names ++ [marker]
  let seeds := allowed.flatMap fun a => a.value.identifiers
  let kept := retainItems (reachableNames items seeds excluded) items
  if allowed.isEmpty then return ⟨.mk module.kind module.span kept, stubs⟩
  else
    let used ← if bare then pure none else (requireId id).map some
    return ⟨.mk module.kind module.span (kept ++ allowed.map (·.export used)), stubs⟩

/-- The stub of a client reference. -/
def clientStub (id name : String) : Node :=
  let message :=
    "It is not possible to invoke a client function from the server: " ++ id ++ "#" ++ name
  Build.exportAs name
    (Build.call registerClient [Build.throwing message, Build.string id, Build.string name])

/-- The stubs of client references, one for each name. -/
def clientStubs (names : List String) (id : String) : List Node := names.map (clientStub id)

/-- The import of the function that registers a client reference. -/
def clientImport : Node := Build.importAs "registerClientReference" registerClient serverRuntime

/-- A client module as the server graph sees it. -/
def clientModule (id : ModuleId) (bare : Bool) (module : Node) : Except BoundaryError Node := do
  let kept ← keepAllowed id bare module
  let items := clientImport :: kept.module.children
  if kept.stubs.isEmpty then return .mk module.kind module.span items
  else
    let id ← requireId id
    return .mk module.kind module.span (items ++ clientStubs kept.stubs id)

end ServerBoundary.Boundary
