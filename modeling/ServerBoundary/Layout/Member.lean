import ServerBoundary.Layout.Type

/-!
# The layout of functions and classes

A function is laid out from its parameters on, because what stands before them depends on where the
function is: a declaration, a method, a getter.
-/

namespace ServerBoundary.Layout

open Syntax Source

/-- Whether a piece is a block. -/
def isBlock (p : Piece) : Bool :=
  match p.kind with
  | .stmt .block => true
  | _ => false

/-- A statement as one of a list or as a body: with its end and the comments after it. A block ends
no line. -/
def asStatement (p : Piece) : Doc :=
  let ends := Doc.trailing p.span.stop ++ Doc.line
  match p.kind with
  | .stmt .block => p.doc
  | .stmt (.variable_ ..) => p.doc ++ ";" ++ ends
  | _ => p.doc ++ ends

/-- A block of statements. The comments before its closing brace are printed in front of it. -/
def blockLayout (sp : Span) (ps : List Piece) : Doc :=
  let last := sp.stop - 1
  let broken := Doc.text "\x7b" ++ Doc.lines (ps.map asStatement) ++ Doc.leading last ++ "\x7d"
  if ps.isEmpty then Doc.choose (Doc.hasLeading last) broken (Doc.text "\x7b\x7d") else broken

/-- The words before a function of that mode. -/
def asyncWord (m : FunctionMode) : Doc := word m.isAsync "async "

/-- The mode of a function. -/
def modeOf (p : Piece) : FunctionMode :=
  match p.kind with
  | .member (.function m) => m
  | _ => {}

/-- A function with its word and its name, which may be missing. -/
def namedFunction (name f : Piece) (declaration : Bool) : Doc :=
  let m := modeOf f
  asyncWord m ++ "function" ++ word m.isGenerator "*" ++
  word (declaration || name.isPresent) " " ++ name.doc ++ f.doc

/-- A class from its type parameters on. -/
def classBody (c : Piece) : Doc :=
  let superclass := c.part 2
  let types := (c.part 5).docs
  (c.part 3).doc ++ superclass.after " extends " ++ (c.part 4).doc ++
  (if types.isEmpty then Doc.empty else Doc.text " implements " ++ Doc.commas types) ++
  " " ++ inBraces ((c.part 1).docs)

/-- The decorators of a class, a line each. -/
def classDecorators (c : Piece) : Doc := Doc.concat (c.part 0).docs

/-- A class declaration without its decorators. -/
def classDeclaration (name c : Piece) : Doc :=
  let isAbstract := match c.kind with
    | .member (.class_ a) => a
    | _ => false
  word isAbstract "abstract " ++ "class" ++ name.after " " ++ classBody c

/-- A class with its word and its name, which may be missing. -/
def namedClass (name c : Piece) : Doc := classDecorators c ++ classDeclaration name c

/-- The modifiers of a member. -/
def modifierWords (m : Modifiers) : Doc :=
  word m.isDeclare "declare " ++ Doc.text (accessText m.access) ++ word m.isStatic "static " ++
  word m.isAbstract "abstract " ++ word m.isOverride "override " ++ word m.isReadonly "readonly " ++
  word m.isAccessor "accessor "

/-- The layout of functions, parameters and class members. -/
def memberLayout (k : MemberKind) (sp : Span) (ps : List Piece) : Doc :=
  let at_ (i : Nat) : Piece := ps.getD i Piece.absent
  let d (i : Nat) : Doc := (at_ i).doc
  let decorators (p : Piece) : Doc :=
    if p.parts.isEmpty then Doc.empty else Doc.line ++ Doc.concat p.docs
  match k with
  | .function _ =>
    d 3 ++ inParens (at_ 0) ++ typed (at_ 4) ++
    (if (at_ 2).isPresent then Doc.text " " ++ d 2 else Doc.text ";")
  | .param => decorators (at_ 0) ++ d 1
  | .paramProperty m => decorators (at_ 0) ++ modifierWords m ++ d 1
  | .decorator => Doc.text "@" ++ d 0 ++ Doc.line
  | .class_ _ => classBody (.mk (.member k) sp Doc.empty ps)
  | .constructor_ m =>
    modifierWords m ++ "constructor" ++ inParens (at_ 1) ++
    (if (at_ 2).isPresent then d 2 else Doc.text ";")
  | .method w m =>
    let f := at_ 1
    let mode := modeOf f
    let before := match w with
      | .method => asyncWord mode ++ word mode.isGenerator "*"
      | .getter => Doc.text "get "
      | .setter => Doc.text "set "
    Doc.concat (f.part 1).docs ++ modifierWords m ++ before ++ d 0 ++ word m.isOptional "?" ++ f.doc
  | .field m =>
    Doc.concat (at_ 3).docs ++ modifierWords m ++ d 0 ++ word m.isOptional "?" ++
    word m.isDefinite "!" ++ typed (at_ 2) ++ (at_ 1).after " = " ++ ";"
  | .staticBlock => Doc.text "static" ++ d 0
  | .empty => Doc.text ";"

end ServerBoundary.Layout
