import ServerBoundary.Grammar.Module
import ServerBoundary.Layout.Module
import ServerBoundary.Boundary.ServerModule
import ServerBoundary.Boundary.ServerReference

/-!
# From source to source

The transforms as functions on source texts. A text that does not contain a directive at all is left
alone without being read.
-/

namespace ServerBoundary.Boundary

open Syntax Source

/-- Why a source cannot be transformed. -/
inductive TransformError where
  | parse (file : String) (faults : List SyntaxError)
  | boundary (e : BoundaryError)
deriving DecidableEq, Repr

/-- The wording of an error. -/
def TransformError.message : TransformError → String
  | parse file faults =>
    "Failed to parse " ++ file ++ ": " ++ ", ".intercalate (faults.map SyntaxError.message)
  | boundary e => e.message

/-- Reads a source in the dialect of its file. -/
def parseFile (file source : String) : Except TransformError Grammar.Parsed :=
  match Grammar.parseModule (Grammar.Dialect.ofFile file) source with
  | .ok parsed => .ok parsed
  | .error faults => .error (.parse file faults)

/-- A step whose error is one of the boundary. -/
def atBoundary {α : Type} : Except BoundaryError α → Except TransformError α
  | .ok a => .ok a
  | .error e => .error (.boundary e)

/-- Whether a source mentions a directive at all. -/
def mentions (d : Directive) (source : String) : Bool :=
  Text.contains d.text.toList source.toList

/-- A source as the server graph sees it, or nothing if it is left alone. -/
def transformServer (options : ServerOptions) (file source : String) :
    Except TransformError (Option String) := do
  if !mentions .useClient source && !mentions .useServer source then return none
  let parsed ← parseFile file source
  let (module, changed) ← atBoundary (serverModule options parsed.module)
  if changed then return some (Layout.print module parsed.comments) else return none

/-- A source as the browser sees it, or nothing if it is left alone. -/
def transformClient (id : ModuleId) (file source : String) :
    Except TransformError (Option String) := do
  if !mentions .useServer source then return none
  let parsed ← parseFile file source
  let references ← atBoundary (serverReferences id parsed.module)
  return references.map fun module => Layout.print module []

/-- A source as the client graph sees it while rendering on the server, or nothing if it is left
alone. -/
def transformRendering (file source : String) : Except TransformError (Option String) := do
  if !mentions .useServer source then return none
  let parsed ← parseFile file source
  return (renderingStubs parsed.module).map fun module => Layout.print module []

/-- A module after the server pass with fixed ids, and the error it reports. A module with an error
stays as it is. -/
def serverPass (options : ServerOptions) (module : Node) : Node × Option BoundaryError :=
  match serverModule options module with
  | .ok (module, _) => (module, none)
  | .error e => (module, some e)

end ServerBoundary.Boundary
