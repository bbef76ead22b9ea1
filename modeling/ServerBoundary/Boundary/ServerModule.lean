import ServerBoundary.Boundary.Extraction
import ServerBoundary.Boundary.ClientModule

/-!
# Modules in the server graph

`serverModule` gives a module the form it has in the server graph. A client module keeps what its
allow-server values need. In any other module the directive goes, exported functions are registered
if it was there, and server closures are extracted.
-/

namespace ServerBoundary.Boundary

open Syntax

/-- The import of the function that registers a server reference. -/
def serverImport : Node := Build.importAs "registerServerReference" registerServer serverRuntime

/-- The ids of a module on both sides, and whether allowed items are exported without being
registered. -/
structure ServerOptions where
  clientId : ModuleId
  serverId : ModuleId
  bare : Bool := false

/-- A module that is not a client module, after its directive was removed: with its exported
functions registered if `whole`, and its server closures extracted. -/
def serverSide (id : ModuleId) (whole : Bool) (module : Node) :
    Except BoundaryError (Node × Bool) := do
  let (module, registered) ← if whole then registerExports id module else pure (module, false)
  let (module, extracted) ← extractModule id module
  let changed := registered || extracted
  if changed then
    return (withItems module (insertAfterHead [serverImport] module.children), true)
  else return (module, false)

/-- A module as the server graph sees it, and whether it changed. -/
def serverModule (options : ServerOptions) (module : Node) :
    Except BoundaryError (Node × Bool) :=
  match moduleDirective module with
  | some (_, .useClient) => do
    let module ← clientModule options.clientId options.bare module
    return (module, true)
  | some (index, .useServer) =>
    serverSide options.serverId true (withItems module (module.children.eraseIdx index))
  | none => serverSide options.serverId false module

end ServerBoundary.Boundary
