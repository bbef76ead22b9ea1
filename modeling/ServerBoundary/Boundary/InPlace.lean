import ServerBoundary.Boundary.ServerModule

/-!
# The server pass on a module in place

A compiler hands the pass a module to change. The pass reads it, replaces its items step by step,
and stops at the first step that fails, and whatever the steps before it did to the module stays
done. The functions here do what those of the same names do that make a new module, in the order in
which the steps are taken.
-/

namespace ServerBoundary.Boundary

open Syntax

/-- A step on a module in place. What was done to the module stays done when the step fails. -/
abbrev InPlace (α : Type) := ExceptT BoundaryError (StateM Node) α

namespace InPlace

/-- What a step comes to, and the module that it leaves behind. -/
def outcome {α : Type} (step : InPlace α) (module : Node) : Except BoundaryError α × Node :=
  StateT.run (ExceptT.run step) module

/-- A step that may fail and does not touch the module. -/
def attempt {α : Type} : Except BoundaryError α → InPlace α
  | .ok a => pure a
  | .error e => throw e

/-- Changes the items of the module. -/
def modifyItems (f : List Node → List Node) : InPlace Unit :=
  modify fun module => withItems module (f module.children)

/-- Takes all items out of the module. -/
def takeItems : InPlace (List Node) := do
  let module ← get
  modifyItems fun _ => []
  return module.children

/-- Cuts a client module down to its allowed items and what they need, and says which exported names
still need a stub. -/
def keepAllowed (id : ModuleId) (bare : Bool) : InPlace (List String) := do
  let module ← get
  let marker := markerIn module.children
  let allowed ← attempt (allowedItems marker module.children)
  let names := allowed.map (·.name)
  let stubs := (exportNames module).filter fun n => !names.contains n
  let excluded := stubs ++ names ++ [marker]
  let seeds := allowed.flatMap fun a => a.value.identifiers
  modifyItems fun items => retainItems (reachableNames items seeds excluded) items
  if allowed.isEmpty then return stubs
  let used ← if bare then pure none else attempt ((requireId id).map some)
  modifyItems fun items => items ++ allowed.map (·.export used)
  return stubs

/-- Gives a client module its form in the server graph. -/
def clientModule (id : ModuleId) (bare : Bool) : InPlace Unit := do
  let stubs ← keepAllowed id bare
  modifyItems fun items => clientImport :: items
  if stubs.isEmpty then return
  let id ← attempt (requireId id)
  modifyItems fun items => items ++ clientStubs stubs id

/-- Registers the exported functions. The items are all taken out before the first of them is looked
at, and put back when the last one is done. -/
def registerExports (id : ModuleId) : InPlace Bool := do
  let items ← takeItems
  let (items, changed) ← attempt (registerItems id items)
  modifyItems fun _ => items
  return changed

/-- Extracts the server closures. They are replaced before the id is asked for. -/
def extractModule (id : ModuleId) : InPlace Bool := do
  let module ← get
  let (items, st) := extractAll module.children {}
  modifyItems fun _ => items
  if st.found.isEmpty then return false
  let id ← attempt (requireId id)
  modifyItems (insertAfterHead (st.found.flatMap (·.items id)))
  return true

/-- The first pass over a module that is not a client module, which only a server module needs. -/
def firstPass (id : ModuleId) (whole : Bool) : InPlace Bool :=
  if whole then registerExports id else pure false

/-- Both passes over a module that is not a client module. -/
def serverSide (id : ModuleId) (whole : Bool) : InPlace Bool := do
  let registered ← firstPass id whole
  let extracted ← extractModule id
  if registered || extracted then
    modifyItems (insertAfterHead [serverImport])
    return true
  return false

/-- Gives a module its form in the server graph, and says whether it changed. -/
def serverModule (options : ServerOptions) : InPlace Bool := do
  let module ← get
  match moduleDirective module with
  | some (_, .useClient) =>
    clientModule options.clientId options.bare
    return true
  | some (index, .useServer) =>
    modifyItems fun items => items.eraseIdx index
    serverSide options.serverId true
  | none => serverSide options.serverId false

/-- The pass over a module, with fixed ids: what it leaves of the module, and the errors that it
reports. -/
def pass (clientId serverId : String) (bare : Bool) (module : Node) : Node × List BoundaryError :=
  match outcome (serverModule ⟨.ok clientId, .ok serverId, bare⟩) module with
  | (.ok _, left) => (left, [])
  | (.error e, left) => (left, [e])

end InPlace

end ServerBoundary.Boundary
