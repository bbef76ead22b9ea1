import ServerBoundary.Syntax.Node

/-!
# Making nodes

The statements, calls and imports that the boundary transforms put into a module. None of them has a
place in a source.
-/

namespace ServerBoundary.Syntax.Build

/-- A node that was not read from a source. -/
def node (k : Kind) (cs : List Node) : Node := .mk k .generated cs

/-- An identifier. -/
def ident (name : String) : Node := node (.ident name) []

/-- A string literal. -/
def string (value : String) : Node := node (.literal (.string value none)) []

/-- A name in a place that binds it. -/
def binding (name : String) : Node := node (.pattern (.binding name false)) [.absent]

/-- An expression. -/
def expr (k : ExprKind) (cs : List Node) : Node := node (.expr k) cs

/-- A call of a function by its name. -/
def call (callee : String) (args : List Node) : Node :=
  expr (.call false) [ident callee, .group args, .absent]

/-- A call of `bind` on a function, with `null` and the values of some names. -/
def bindNull (target : String) (bound : List String) : Node :=
  expr (.call false) [
    expr (.member false) [ident target, node (.word "bind") []],
    .group (node (.literal .null) [] :: bound.map ident),
    .absent]

/-- A constant. -/
def constant (name value : Node) : Node :=
  node (.stmt (.variable_ .const_ false)) [node (.stmt (.declarator false)) [name, value]]

/-- An exported constant. -/
def exportConst (name : String) (value : Node) : Node :=
  node (.module .exportDecl) [constant (binding name) value]

/-- A default export of an expression. -/
def exportDefault (value : Node) : Node := node (.module .exportDefaultExpr) [value]

/-- An export of an expression under a name, which may be `default`. -/
def exportAs (name : String) (value : Node) : Node :=
  if name == "default" then exportDefault value else exportConst name value

/-- An expression as a statement. -/
def statement (e : Node) : Node := node (.stmt .expression) [e]

/-- A function without parameters that throws an error. -/
def throwing (message : String) : Node :=
  expr (.arrow false) [
    .group [],
    node (.stmt .block) [
      node (.stmt .throw) [expr .new_ [ident "Error", .group [string message], .absent]]],
    .absent, .absent]

/-- An import of one name under a local name. -/
def importAs (imported localName source : String) : Node :=
  node (.module (.import_ false)) [
    .group [node (.module (.importNamed false)) [
      ident localName,
      if imported == localName then .absent else ident imported]],
    string source,
    .absent]

/-- A module with some items. -/
def module (items : List Node) : Node := node (.module (.module_ none)) items

end ServerBoundary.Syntax.Build
