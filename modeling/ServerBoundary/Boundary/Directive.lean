import ServerBoundary.Syntax.Names

/-!
# Directives

A string on its own at the head of a module or of a function body marks on which side of the
boundary it runs. It is compared by what it stands for, not by how it is written.
-/

namespace ServerBoundary.Boundary

open Syntax

/-- The two directives. -/
inductive Directive where
  | useClient
  | useServer
deriving DecidableEq, Repr

/-- The text of a directive. -/
def Directive.text : Directive → String
  | .useClient => "use client"
  | .useServer => "use server"

/-- The value of a statement that is a string on its own. -/
def directiveValue? : Node → Option String
  | .mk (.stmt .expression) _ [.mk (.literal (.string value _)) _ _] => some value
  | _ => none

/-- Whether a statement is the `use server` directive. -/
def isUseServer (s : Node) : Bool := directiveValue? s == some Directive.useServer.text

/-- Whether the leading run of strings of a body holds `use server`. -/
def opensWithUseServer : List Node → Bool
  | [] => false
  | s :: ss =>
    match directiveValue? s with
    | some value => value == Directive.useServer.text || opensWithUseServer ss
    | none => false

/-- Whether a function, or an arrow function with a block, runs on the server by its own
directive. -/
def isServerFunction (n : Node) : Bool :=
  match n.scopeParts? with
  | some (_, body) => opensWithUseServer body.statements
  | none => false

/-- A block without its `use server` statements, wherever they stand in it. -/
def stripUseServer : Node → Node
  | .mk (.stmt .block) sp ss => .mk (.stmt .block) sp (ss.filter fun s => !isUseServer s)
  | n => n

/-- A function, arrow function or function expression without its `use server` statements. -/
def stripFunction : Node → Node
  | .mk (.member (.function m)) sp (params :: ds :: body :: rest) =>
    .mk (.member (.function m)) sp (params :: ds :: stripUseServer body :: rest)
  | .mk (.expr (.arrow a)) sp (params :: body :: rest) =>
    .mk (.expr (.arrow a)) sp (params :: stripUseServer body :: rest)
  | .mk (.expr .function) sp
      (name :: .mk (.member (.function m)) fsp (params :: ds :: body :: rest) :: more) =>
    .mk (.expr .function) sp
      (name :: .mk (.member (.function m)) fsp (params :: ds :: stripUseServer body :: rest) :: more)
  | n => n

/-- Whether an item is an import. -/
def isImport : Node → Bool
  | .mk (.module (.import_ _)) _ _ => true
  | _ => false

/-- The directive of a module and its place, when `index` items were passed. Imports may stand
before it. -/
def directiveFrom (index : Nat) : List Node → Option (Nat × Directive)
  | [] => none
  | item :: items =>
    if isImport item then directiveFrom (index + 1) items
    else
      match directiveValue? item with
      | none => none
      | some value =>
        if value == Directive.useClient.text then some (index, .useClient)
        else if value == Directive.useServer.text then some (index, .useServer)
        else directiveFrom (index + 1) items

/-- The directive of a module and its place. -/
def moduleDirective (module : Node) : Option (Nat × Directive) := directiveFrom 0 module.children

/-- Whether an item belongs to the head of a module: an import or a string on its own. -/
def isHead (item : Node) : Bool := isImport item || (directiveValue? item).isSome

/-- The number of items in the leading run of imports and strings. -/
def headLength (items : List Node) : Nat := (items.takeWhile isHead).length

/-- Items with some more put after the leading run of imports and strings. -/
def insertAfterHead (new items : List Node) : List Node :=
  items.takeWhile isHead ++ new ++ items.dropWhile isHead

end ServerBoundary.Boundary
