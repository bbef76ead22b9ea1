import ServerBoundary.Syntax.Names

/-!
# The names a module exports

`exportNames` lists them in the order of the declarations. Patterns, enumerations, namespaces and
re-exports of everything add no name.
-/

namespace ServerBoundary.Boundary

open Syntax

/-- The name of the default export. -/
def defaultName : String := "default"

/-- A name written as an identifier or as a string. -/
def writtenName? : Node → Option String
  | .mk (.ident name) _ _ => some name
  | .mk (.literal (.string value _)) _ _ => some value
  | _ => none

/-- The name of a declarator that is a plain name. -/
def plainName? : Node → Option String
  | .mk (.stmt (.declarator _)) _ (.mk (.pattern (.binding name _)) _ _ :: _) => some name
  | _ => none

/-- The names under which an exported declaration is known. -/
def declarationNames : Node → List String
  | .mk (.stmt (.function _)) _ (name :: _) => (writtenName? name).toList
  | .mk (.stmt (.class_ _)) _ (name :: _) => (writtenName? name).toList
  | .mk (.stmt (.variable_ _ _)) _ ds => ds.filterMap plainName?
  | _ => []

/-- The name that an export specifier exports. -/
def specifierName? : Node → Option String
  | .mk (.module (.exportSpecifier _)) _ [own, exported] =>
    if exported.isPresent then writtenName? exported else writtenName? own
  | .mk (.module .exportNamespace) _ [name] => writtenName? name
  | _ => none

/-- The names that an item of a module exports. -/
def itemExports : Node → List String
  | .mk (.module .exportDecl) _ [d] => declarationNames d
  | .mk (.module (.exportNamed _)) _ (.mk .group _ specifiers :: _) =>
    specifiers.filterMap specifierName?
  | .mk (.module .exportDefaultFunction) _ _ => [defaultName]
  | .mk (.module .exportDefaultClass) _ _ => [defaultName]
  | .mk (.module .exportDefaultInterface) _ _ => [defaultName]
  | .mk (.module .exportDefaultExpr) _ _ => [defaultName]
  | _ => []

/-- The names that a module exports, each once, in order. -/
def exportNames (module : Node) : List String := distinct (module.children.flatMap itemExports)

end ServerBoundary.Boundary
