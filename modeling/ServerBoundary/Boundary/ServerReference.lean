import ServerBoundary.Syntax.Build
import ServerBoundary.Boundary.Directive
import ServerBoundary.Boundary.ExportNames
import ServerBoundary.Boundary.Error

/-!
# Server modules in the client graph

The body of a server module never reaches the browser. Each of its exports is replaced by a
reference that calls back into the server, or, while rendering on the server, by a function that
throws.
-/

namespace ServerBoundary.Boundary

open Syntax

/-- The module that makes references in the browser. -/
def clientRuntime : String := "react-server-dom-webpack/client"

/-- The module that calls the server from the browser. -/
def callerSource : String := "waku/minimal/client"

/-- The message of a server function called while rendering on the server. -/
def renderingMessage : String := "You cannot call server functions during SSR"

/-- Whether a module is a server module. -/
def isServerModule (module : Node) : Bool :=
  match moduleDirective module with
  | some (_, .useServer) => true
  | _ => false

/-- The imports of a module of server references. -/
def referenceImports : List Node := [
  Build.importAs "createServerReference" "createServerReference" clientRuntime,
  Build.importAs "unstable_callServerRsc" "callServerRsc" callerSource]

/-- The id of a reference: the module's id and the export's name. -/
def referenceId (id name : String) : String := id ++ "#" ++ name

/-- The export of a reference. -/
def serverReference (id name : String) : Node :=
  Build.exportAs name (Build.call "createServerReference"
    [Build.string (referenceId id name), Build.ident "callServerRsc"])

/-- The references that replace a server module in the browser; none for another module. The id is
needed if there is an export. -/
def serverReferences (id : ModuleId) (module : Node) : Except BoundaryError (Option Node) :=
  if isServerModule module then
    let names := exportNames module
    if names.isEmpty then .ok (some (Build.module referenceImports))
    else do
      let id ← requireId id
      return some (Build.module (referenceImports ++ names.map (serverReference id)))
  else .ok none

/-- The throwing functions that replace a server module while rendering; none for another module. -/
def renderingStubs (module : Node) : Option Node :=
  if isServerModule module then
    some (Build.module
      ((exportNames module).map fun name => Build.exportAs name (Build.throwing renderingMessage)))
  else none

end ServerBoundary.Boundary
