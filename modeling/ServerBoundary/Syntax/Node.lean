/-!
# Syntax trees

A module of JavaScript, with JSX and types, is one kind of tree: a `Node` has a `Kind`, which says
what it is and carries its own words, a `Span` of the source, and its parts as children. The
children of each kind are listed beside it and stand in the order in which the analyses visit them,
so that "every name in this function" or "every closure, innermost first" is one recursion over the
tree and not one case per construct.

A part that may be missing is always there as a child: `absent` stands for "not written". A part
that is a list is one `group` child.
-/

namespace ServerBoundary.Syntax

/-- The half-open range of source positions a node was read from. Positions count from one. -/
structure Span where
  start : Nat
  stop : Nat
deriving DecidableEq, Repr, Inhabited

/-- The span of a node that was not read from a source. -/
def Span.generated : Span := ⟨0, 0⟩

/-- The words that open a variable declaration. -/
inductive VarWord where
  | var | let_ | const_
deriving DecidableEq, Repr

/-- The text of the word. -/
def VarWord.text : VarWord → String
  | .var => "var"
  | .let_ => "let"
  | .const_ => "const"

/-- Whether a function is `async`, and whether it is a generator. -/
structure FunctionMode where
  isAsync : Bool := false
  isGenerator : Bool := false
deriving DecidableEq, Repr, Inhabited

/-- The accessibility word of a class member. -/
inductive Access where
  | unmarked | publicly | protectedly | privately
deriving DecidableEq, Repr, Inhabited

/-- The words before a class member or a parameter property, and the mark after its name. -/
structure Modifiers where
  access : Access := .unmarked
  isStatic : Bool := false
  isAbstract : Bool := false
  isOverride : Bool := false
  isReadonly : Bool := false
  isDeclare : Bool := false
  isAccessor : Bool := false
  isOptional : Bool := false
  isDefinite : Bool := false
deriving DecidableEq, Repr, Inhabited

/-- The three ways a member can have a function. -/
inductive MethodWord where
  | method | getter | setter
deriving DecidableEq, Repr, Inhabited

/-- Literals keep the text they were written with; one that was made has only its value. -/
inductive Literal where
  | string (value : String) (raw : Option String)
  | number (raw : String)
  | bigint (raw : String)
  | regex (raw : String)
  | boolean (value : Bool)
  | null
deriving DecidableEq, Repr

/-- Expressions. -/
inductive ExprKind where
  | this
  | superRef
  | newTarget
  | importMeta
  /-- The callee of `import(x)`. -/
  | importRef
  /-- Elements; a hole is `absent`. -/
  | array
  /-- Properties. -/
  | object
  /-- Name or `absent`, function. -/
  | function
  /-- Parameters, body, type parameters, return type. The body is a block or an expression. -/
  | arrow (isAsync : Bool)
  /-- Name or `absent`, class. -/
  | class_
  | unary (op : String)
  | update (op : String) (before : Bool)
  | binary (op : String)
  | assign (op : String)
  /-- Test, consequent, alternative. -/
  | conditional
  | sequence
  | paren
  /-- Object, name. -/
  | member (optional : Bool)
  /-- Object, expression in brackets. -/
  | index (optional : Bool)
  /-- Callee, arguments, type arguments. -/
  | call (optional : Bool)
  /-- Callee, arguments or `absent`, type arguments. -/
  | new_
  | spread
  | await
  | yield (delegates : Bool)
  /-- Expressions, chunks: one chunk more than expressions. -/
  | template
  /-- Tag, type arguments, template. -/
  | tagged
  /-- Expression, type. -/
  | asType
  | satisfiesType
  /-- Type assertion in angle brackets: expression, type. -/
  | assertion
  | asConst
  | nonNull
  /-- Expression, type arguments. -/
  | instantiation
deriving DecidableEq, Repr

/-- Object literal properties. A shorthand property is its identifier, a spread one a `spread`. -/
inductive PropertyKind where
  /-- Key, value. -/
  | keyed
  /-- Key, return type, body. -/
  | getter
  /-- Key, parameter, body. -/
  | setter
  /-- Key, function. -/
  | method
  /-- Identifier, value: `a = 1` between braces, legal only where a pattern is meant. -/
  | initialized
deriving DecidableEq, Repr

/-- Binding and assignment patterns. An expression may stand where an assignment target does. -/
inductive PatternKind where
  /-- Type. -/
  | binding (name : String) (optional : Bool)
  /-- Elements, type. -/
  | array (optional : Bool)
  /-- Properties, type. -/
  | object (optional : Bool)
  /-- Key, pattern. -/
  | keyed
  /-- Binding, default value. -/
  | shorthand
  /-- Pattern, type. -/
  | rest
  /-- Pattern, default value. -/
  | defaulted
deriving DecidableEq, Repr

/-- Functions, classes and their members. -/
inductive MemberKind where
  /-- Parameters, decorators, body, type parameters, return type. -/
  | function (mode : FunctionMode)
  /-- Decorators, pattern. -/
  | param
  /-- Decorators, pattern. -/
  | paramProperty (modifiers : Modifiers)
  | decorator
  /-- Decorators, members, superclass, type parameters, type arguments of the superclass,
  implemented types. -/
  | class_ (isAbstract : Bool)
  /-- Key, parameters, body. -/
  | constructor_ (modifiers : Modifiers)
  /-- Key, function. -/
  | method (word : MethodWord) (modifiers : Modifiers)
  /-- Key, value, type, decorators. -/
  | field (modifiers : Modifiers)
  | staticBlock
  | empty
deriving DecidableEq, Repr

/-- Statements and declarations. -/
inductive StmtKind where
  | expression
  | block
  | empty
  | debugger
  /-- Declarators. -/
  | variable_ (word : VarWord) (isDeclare : Bool)
  /-- Pattern, initial value. -/
  | declarator (definite : Bool)
  /-- Name, function. -/
  | function (isDeclare : Bool)
  /-- Name, class. -/
  | class_ (isDeclare : Bool)
  /-- Test, consequent, alternative. -/
  | if_
  /-- Initialisation, test, update, body. -/
  | for_
  /-- Target, object, body. -/
  | forIn
  | forOf (awaits : Bool)
  /-- Test, body. -/
  | while_
  | doWhile
  /-- Discriminant, cases. -/
  | switch
  /-- Test or `absent`, statements. -/
  | case
  /-- Block, handler, finalizer. -/
  | try_
  /-- Parameter, body. -/
  | catch_
  | throw
  | return_
  | break_
  | continue_
  /-- Label, statement. -/
  | labeled
  /-- Object, statement. -/
  | with_
  /-- Name, members. -/
  | enum (isDeclare isConst : Bool)
  /-- Name, value. -/
  | enumMember
  /-- Name, body. -/
  | namespace_ (isDeclare isGlobal : Bool)
  /-- Name, body: the rest of a namespace with a dotted name. -/
  | innerNamespace
  /-- Items. -/
  | namespaceBody
deriving DecidableEq, Repr

/-- Modules and their import and export items. -/
inductive ModuleKind where
  /-- Items. -/
  | module_ (shebang : Option String)
  /-- Specifiers, source, attributes. -/
  | import_ (typeOnly : Bool)
  /-- Local name, imported name. -/
  | importNamed (typeOnly : Bool)
  | importDefault
  | importNamespace
  /-- Declaration. -/
  | exportDecl
  /-- Specifiers, source, attributes. -/
  | exportNamed (typeOnly : Bool)
  /-- Name, exported name. -/
  | exportSpecifier (typeOnly : Bool)
  | exportNamespace
  /-- Name or `absent`, function. -/
  | exportDefaultFunction
  /-- Name or `absent`, class. -/
  | exportDefaultClass
  /-- An interface. -/
  | exportDefaultInterface
  | exportDefaultExpr
  /-- Source, attributes. -/
  | exportAll (typeOnly : Bool)
  /-- Name, reference. -/
  | importEquals (isExport typeOnly : Bool)
  | exportEquals
  | exportAsNamespace
deriving DecidableEq, Repr

/-- Markup. -/
inductive MarkupKind where
  /-- Name, attributes, type arguments, children, closing name or `absent`. -/
  | element
  | fragment
  /-- Name, value. -/
  | attribute
  | spreadAttribute
  /-- Object, name. -/
  | memberName
  | namespacedName (text : String)
  /-- An expression in braces. -/
  | container
  | emptyExpr
  | spreadChild
  | text (raw : String)
deriving DecidableEq, Repr

/-- Types, and what belongs to types only. The analyses never look inside. -/
inductive TypeKind where
  /-- The type after a colon. -/
  | ascription
  | keyword (text : String)
  /-- Name, type arguments. -/
  | reference
  /-- Left name, right name. -/
  | qualified
  | arguments
  | parameters
  /-- Name, constraint, default. -/
  | parameter (isIn isOut isConst : Bool)
  /-- Members. -/
  | literalType
  /-- Key, type. -/
  | propertySignature (isReadonly isOptional : Bool)
  /-- Key, type parameters, parameters, type. -/
  | methodSignature (isOptional : Bool)
  /-- Key, type. -/
  | getterSignature
  /-- Key, parameter. -/
  | setterSignature
  /-- Type parameters, parameters, type. -/
  | callSignature
  | constructSignature
  /-- Parameter, type. -/
  | indexSignature (modifiers : Modifiers)
  | array
  | tuple
  /-- Label, type. -/
  | labelled (isOptional : Bool)
  | optional
  | rest
  | union
  | intersection
  /-- Checked type, constraint, then, else. -/
  | conditional
  | infer
  | paren
  | operator (word : String)
  /-- Object type, index type. -/
  | indexed
  /-- Parameter name, constraint, renaming, type. -/
  | mapped (readonlyMark optionalMark : String)
  /-- A literal. -/
  | literal
  /-- Types, chunks. -/
  | template
  /-- Queried name, type arguments. -/
  | query
  /-- Module name, qualifier, type arguments. -/
  | imported
  /-- Type parameters, parameters, result. -/
  | function
  | constructor_ (isAbstract : Bool)
  /-- Parameter name, type. -/
  | predicate (asserts : Bool)
  /-- Expression, type arguments. -/
  | heritage
  /-- Name, type parameters, extended types, members. -/
  | interface_ (isDeclare : Bool)
  /-- Name, type parameters, type. -/
  | alias (isDeclare : Bool)
  /-- The module name of `require`. -/
  | require
deriving DecidableEq, Repr

/-- What a node is. -/
inductive Kind where
  /-- A part that is not written. -/
  | absent
  /-- A part that is a list. -/
  | group
  /-- An identifier: a reference, a label, or the name of a declaration. -/
  | ident (name : String)
  /-- A name that refers to nothing: a property, an object key, the name of a type. -/
  | word (text : String)
  /-- A `#name`. -/
  | privateName (text : String)
  /-- An expression in brackets as a key. -/
  | computed
  | literal (l : Literal)
  /-- The text between the expressions of a template. -/
  | chunk (raw : String)
  | expr (e : ExprKind)
  | property (p : PropertyKind)
  | pattern (p : PatternKind)
  | member (m : MemberKind)
  | stmt (s : StmtKind)
  | module (m : ModuleKind)
  | markup (m : MarkupKind)
  | type (t : TypeKind)
deriving DecidableEq, Repr

/-- A syntax tree. -/
inductive Node where
  | mk (kind : Kind) (span : Span) (children : List Node)
deriving Repr

namespace Node

/-- What the node is. -/
def kind : Node → Kind
  | mk k _ _ => k

/-- Where the node was read. -/
def span : Node → Span
  | mk _ s _ => s

/-- The parts of the node. -/
def children : Node → List Node
  | mk _ _ cs => cs

@[simp] theorem kind_mk (k : Kind) (s : Span) (cs : List Node) : (mk k s cs).kind = k := rfl
@[simp] theorem span_mk (k : Kind) (s : Span) (cs : List Node) : (mk k s cs).span = s := rfl
@[simp] theorem children_mk (k : Kind) (s : Span) (cs : List Node) :
    (mk k s cs).children = cs := rfl

/-- A part that is not written. -/
def absent : Node := mk .absent .generated []

instance : Inhabited Node := ⟨absent⟩

/-- A part that is a list. -/
@[match_pattern] abbrev group (items : List Node) : Node := mk .group ⟨0, 0⟩ items

/-- Whether the part is written. -/
def isPresent (n : Node) : Bool :=
  match n.kind with
  | .absent => false
  | _ => true

/-- Whether the node is a type or belongs to one. -/
def isType (n : Node) : Bool :=
  match n.kind with
  | .type _ => true
  | _ => false

/-- The child at a place; a place past the last child is not written. -/
def part (n : Node) (i : Nat) : Node := n.children.getD i absent

mutual
/-- Computes a value for every node from its kind, its span and the values of its children. -/
def fold {α : Type} (f : Kind → Span → List α → α) : Node → α
  | mk k s cs => f k s (foldAll f cs)
/-- The values that `fold` computes for the nodes of a list. -/
def foldAll {α : Type} (f : Kind → Span → List α → α) : List Node → List α
  | [] => []
  | c :: cs => fold f c :: foldAll f cs
end

theorem foldAll_eq_map {α : Type} (f : Kind → Span → List α → α) (cs : List Node) :
    foldAll f cs = cs.map (fold f) := by
  induction cs with
  | nil => rfl
  | cons c cs ih => simp [foldAll, ih]

mutual
/-- What holds of a node if it holds of its parts holds of every node. -/
theorem of_parts {P : Node → Prop}
    (h : ∀ (k : Kind) (sp : Span) (cs : List Node), (∀ c ∈ cs, P c) → P (.mk k sp cs)) :
    ∀ n : Node, P n
  | .mk k sp cs => h k sp cs (of_parts_all h cs)
/-- The same for the nodes of a list. -/
theorem of_parts_all {P : Node → Prop}
    (h : ∀ (k : Kind) (sp : Span) (cs : List Node), (∀ c ∈ cs, P c) → P (.mk k sp cs)) :
    ∀ cs : List Node, ∀ c ∈ cs, P c
  | [] => fun _ hc => absurd hc List.not_mem_nil
  | c :: cs => List.forall_mem_cons.mpr ⟨of_parts h c, of_parts_all h cs⟩
end

end Node

end ServerBoundary.Syntax
