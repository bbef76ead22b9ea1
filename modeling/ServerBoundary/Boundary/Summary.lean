import ServerBoundary.Boundary.Directive
import ServerBoundary.Boundary.ExportNames

/-!
# What the analyses see of a module

Every function of a module, outermost first, with its names and whether it runs on the server, and
the facts about the module as a whole.
-/

namespace ServerBoundary.Boundary

open Syntax

mutual
/-- The nodes of a tree that open a scope, outermost first. -/
def scopeNodes : Node → List Node
  | .mk k sp cs =>
    if k.isType then []
    else
      let inner := scopeNodesIn cs
      if (Node.mk k sp cs).scopeParts?.isSome then .mk k sp cs :: inner else inner
/-- The nodes that open a scope in a list of trees. -/
def scopeNodesIn : List Node → List Node
  | [] => []
  | n :: ns => scopeNodes n ++ scopeNodesIn ns
end

/-- What the analyses see of a function. -/
structure FunctionSummary where
  isArrow : Bool
  locals : List String
  identifiers : List String
  onServer : Bool

/-- What the analyses see of a function. -/
def FunctionSummary.ofNode (n : Node) : FunctionSummary where
  isArrow := match n.kind with
    | .expr (.arrow _) => true
    | _ => false
  locals := n.localNames
  identifiers := n.identifiers
  onServer := isServerFunction n

/-- What the analyses see of a module. -/
structure ModuleSummary where
  items : Nat
  directive : Option (Nat × Directive)
  head : Nat
  exports : List String
  identifiers : List String
  functions : List FunctionSummary

/-- What the analyses see of a module. -/
def ModuleSummary.ofModule (m : Node) : ModuleSummary where
  items := m.children.length
  directive := moduleDirective m
  head := headLength m.children
  exports := exportNames m
  identifiers := m.identifiers
  functions := (scopeNodes m).map FunctionSummary.ofNode

end ServerBoundary.Boundary
