import ServerBoundary.Syntax.Build
import ServerBoundary.Boundary.Directive
import ServerBoundary.Boundary.ExportNames
import ServerBoundary.Boundary.Error

/-!
# Registering exported functions

In a module that runs on the server as a whole, every exported function is registered under the
module's id and its export name: right after its declaration, or in place where it is an expression.
-/

namespace ServerBoundary.Boundary

open Syntax

/-- The local name of the function that registers a server reference. -/
def registerServer : String := "__waku_registerServerReference"

/-- Whether an expression is a function. -/
def isFunctionExpr : Node → Bool
  | .mk (.expr .function) _ _ => true
  | .mk (.expr (.arrow _)) _ _ => true
  | _ => false

/-- A call that registers a value under an id and a name. -/
def registration (value : Node) (id name : String) : Node :=
  Build.call registerServer [value, Build.string id, Build.string name]

/-- A function, without its directives, in a call that registers it. -/
def registered (function : Node) (id name : String) : Node :=
  registration (stripFunction function) id name

/-- Whether a function has a body. -/
def hasBody : Node → Bool
  | .mk (.member (.function _)) _ (_ :: _ :: body :: _) => body.isPresent
  | _ => false

/-- A declarator whose value is registered if it is a plain name and a function, and whether it
is. -/
def registerDeclarator (id : ModuleId) (d : Node) : Except BoundaryError (Node × Bool) :=
  match d with
  | .mk (.stmt (.declarator definite)) sp [.mk (.pattern (.binding name o)) psp pcs, value] =>
    if isFunctionExpr value then do
      let id ← requireId id
      return (.mk (.stmt (.declarator definite)) sp
        [.mk (.pattern (.binding name o)) psp pcs, registered value id name], true)
    else return (d, false)
  | d => return (d, false)

/-- Declarators with the functions among their values registered, and whether there are any. -/
def registerDeclarators (id : ModuleId) : List Node → Except BoundaryError (List Node × Bool)
  | [] => .ok ([], false)
  | d :: ds => do
    let (d', changed) ← registerDeclarator id d
    let (ds', changes) ← registerDeclarators id ds
    return (d' :: ds', changed || changes)

/-- The items that take the place of an item, and whether a function was registered. -/
def registerItem (id : ModuleId) (item : Node) : Except BoundaryError (List Node × Bool) :=
  match item with
  | .mk (.module .exportDecl) sp [.mk (.stmt (.function false)) fsp [name, f]] =>
    match hasBody f, writtenName? name with
    | true, some text => do
      let id ← requireId id
      return ([.mk (.module .exportDecl) sp
          [.mk (.stmt (.function false)) fsp [name, stripFunction f]],
        Build.statement (registration name id text)], true)
    | _, _ => return ([item], false)
  | .mk (.module .exportDecl) sp [.mk (.stmt (.variable_ w isDeclare)) vsp ds] => do
    let (ds', changed) ← registerDeclarators id ds
    return ([.mk (.module .exportDecl) sp [.mk (.stmt (.variable_ w isDeclare)) vsp ds']], changed)
  | .mk (.module .exportDefaultFunction) _ [name, f] => do
    let id ← requireId id
    return ([Build.exportDefault
      (registered (.mk (.expr .function) f.span [name, f]) id defaultName)], true)
  | .mk (.module .exportDefaultExpr) sp [e] =>
    if isFunctionExpr e then do
      let id ← requireId id
      return ([.mk (.module .exportDefaultExpr) sp [registered e id defaultName]], true)
    else return ([item], false)
  | item => return ([item], false)

/-- Items with every exported function registered, and whether there is one. -/
def registerItems (id : ModuleId) : List Node → Except BoundaryError (List Node × Bool)
  | [] => .ok ([], false)
  | item :: items => do
    let (new, changed) ← registerItem id item
    let (rest, changes) ← registerItems id items
    return (new ++ rest, changed || changes)

/-- A module with other items. -/
def withItems (module : Node) (items : List Node) : Node := .mk module.kind module.span items

/-- A module with every exported function registered, and whether there is one. -/
def registerExports (id : ModuleId) (module : Node) : Except BoundaryError (Node × Bool) := do
  let (items, changed) ← registerItems id module.children
  return (withItems module items, changed)

end ServerBoundary.Boundary
