import ServerBoundary.Layout.Expression

/-!
# The layout of statements and modules

`print` lays a module out. Every statement stands on a line of its own, except that nothing ends the
line of a block that is an item of a module.
-/

namespace ServerBoundary.Layout

open Syntax Source

/-- What stands after a namespace's name: the rest of a dotted name, or the body. -/
def namespaceTail (p : Piece) : Doc :=
  match p.kind with
  | .stmt .innerNamespace => p.doc
  | _ => p.after " "

/-- The layout of a statement without its end. -/
def stmtLayout (k : StmtKind) (sp : Span) (ps : List Piece) : Doc :=
  let at_ (i : Nat) : Piece := ps.getD i Piece.absent
  let d (i : Nat) : Doc := (at_ i).doc
  let bodyOf (i : Nat) : Doc := asStatement (at_ i)
  match k with
  | .expression => d 0 ++ ";"
  | .block => blockLayout sp ps
  | .empty => Doc.text ";"
  | .debugger => Doc.text "debugger;"
  | .variable_ w isDeclare =>
    word isDeclare "declare " ++ Doc.text (w.text ++ " ") ++ Doc.commas (ps.map Piece.doc)
  | .declarator definite =>
    -- the mark stands between the name and its type
    let name := match definite, (at_ 0).kind with
      | true, .pattern (.binding n _) => Doc.text (n ++ "!") ++ typed ((at_ 0).part 0)
      | _, _ => d 0
    name ++ (at_ 1).after " = "
  | .function isDeclare => word isDeclare "declare " ++ namedFunction (at_ 0) (at_ 1) true
  | .class_ isDeclare => word isDeclare "declare " ++ namedClass (at_ 0) (at_ 1)
  | .if_ =>
    Doc.text "if (" ++ d 0 ++ ") " ++ bodyOf 1 ++
    (if (at_ 2).isPresent then
      word (isBlock (at_ 1)) " " ++ "else " ++ bodyOf 2
     else Doc.empty)
  | .for_ =>
    Doc.text "for(" ++ d 0 ++ ";" ++ (at_ 1).after " " ++ ";" ++ (at_ 2).after " " ++ ")" ++ bodyOf 3
  | .forIn => Doc.text "for(" ++ d 0 ++ " in " ++ d 1 ++ ")" ++ bodyOf 2
  | .forOf awaits =>
    Doc.text "for " ++ word awaits "await " ++ "(" ++ d 0 ++ " of " ++ d 1 ++ ")" ++ bodyOf 2
  | .while_ => Doc.text "while(" ++ d 0 ++ ")" ++ bodyOf 1
  | .doWhile => Doc.text "do " ++ bodyOf 1 ++ "while (" ++ d 0 ++ ")"
  | .switch =>
    Doc.text "switch(" ++ d 0 ++ ")" ++ inBraces ((ps.drop 1).map Piece.doc)
  | .case =>
    let statements := (at_ 1).parts.map asStatement
    (if (at_ 0).isPresent then Doc.text "case " ++ d 0 else Doc.text "default") ++ ":" ++
    (if statements.isEmpty then Doc.empty
     else Doc.line ++ Doc.deeper (Doc.separated Doc.line statements) ++ Doc.line)
  | .try_ =>
    Doc.text "try " ++ d 0 ++ (at_ 1).after " " ++ (at_ 2).after " finally"
  | .catch_ =>
    Doc.text "catch " ++
    (if (at_ 0).isPresent then Doc.text "(" ++ d 0 ++ ")" else Doc.empty) ++ " " ++ d 1
  | .throw => Doc.text "throw " ++ d 0 ++ ";"
  | .return_ => Doc.text "return" ++ (at_ 0).after " " ++ ";"
  | .break_ => Doc.text "break" ++ (at_ 0).after " " ++ ";"
  | .continue_ => Doc.text "continue" ++ (at_ 0).after " " ++ ";"
  | .labeled => d 0 ++ ": " ++ bodyOf 1
  | .with_ => Doc.text "with(" ++ d 0 ++ ")" ++ bodyOf 1
  | .enum isDeclare isConst =>
    let ms := (ps.drop 1).map Piece.doc
    word isDeclare "declare " ++ word isConst "const " ++ "enum " ++ d 0 ++ " \x7b" ++ Doc.line ++
    Doc.deeper (Doc.separated (Doc.text "," ++ Doc.line) ms) ++ Doc.line ++ "\x7d"
  | .enumMember => d 0 ++ (at_ 1).after " = "
  | .namespace_ isDeclare isGlobal =>
    let keyword := match (at_ 0).kind with
      | .literal _ => "module "
      | _ => "namespace "
    word isDeclare "declare " ++ Doc.text (if isGlobal then "" else keyword) ++ d 0 ++
    namespaceTail (at_ 1)
  | .innerNamespace => Doc.text "." ++ d 0 ++ namespaceTail (at_ 1)
  | .namespaceBody => inBraces (ps.map asStatement)

/-- A list of specifiers in braces. -/
def specifierList (ds : List Doc) : Doc :=
  Doc.text "\x7b " ++ Doc.commas ds ++ (if ds.isEmpty then Doc.text "\x7d" else Doc.text " \x7d")

/-- Whether a piece is a specifier in braces. -/
def isNamedSpecifier (p : Piece) : Bool :=
  match p.kind with
  | .module (.importNamed _) => true
  | .module (.exportSpecifier _) => true
  | _ => false

/-- The source of an import or export with its attributes. -/
def sourceDoc (source attrs : Piece) : Doc := source.doc ++ attrs.after " with "

/-- The specifiers of an import or export, those without braces first. -/
def specifiers (ps : List Piece) (emptyList : Bool) : Doc :=
  let plain := ps.filter fun p => !isNamedSpecifier p
  let named := ps.filter isNamedSpecifier
  let list := if named.isEmpty && !emptyList then [] else [specifierList (named.map Piece.doc)]
  Doc.commas (plain.map Piece.doc ++ list)

/-- The layout of a module and of its import and export items. -/
def moduleLayout (k : ModuleKind) (sp : Span) (ps : List Piece) : Doc :=
  let at_ (i : Nat) : Piece := ps.getD i Piece.absent
  let d (i : Nat) : Doc := (at_ i).doc
  match k with
  | .module_ shebang =>
    let head := match shebang with
      | some t => Doc.text ("#!" ++ t) ++ Doc.line
      | none => Doc.empty
    let item (p : Piece) : Doc := asStatement p ++ Doc.trailing p.span.stop
    head ++ Doc.leading sp.start ++ Doc.concat (ps.map item) ++ Doc.trailing sp.stop
  | .import_ typeOnly =>
    let names := (at_ 0).parts
    Doc.text "import " ++ word typeOnly "type " ++
    (if names.isEmpty then Doc.empty else specifiers names false ++ " from ") ++
    sourceDoc (at_ 1) (at_ 2) ++ ";"
  | .importNamed typeOnly =>
    word typeOnly "type " ++
    (if (at_ 1).isPresent then d 1 ++ " as " ++ d 0 else d 0)
  | .importDefault => d 0
  | .importNamespace => Doc.text "* as " ++ d 0
  | .exportDecl =>
    match (at_ 0).kind with
    | .stmt (.class_ isDeclare) =>
      let name := (at_ 0).part 0
      let c := (at_ 0).part 1
      classDecorators c ++ "export " ++ Doc.leading (at_ 0).span.start ++
        word isDeclare "declare " ++ classDeclaration name c
    | .stmt (.variable_ ..) => Doc.text "export " ++ d 0 ++ ";"
    | _ => Doc.text "export " ++ d 0
  | .exportNamed typeOnly =>
    let names := (at_ 0).parts
    Doc.text "export " ++ word typeOnly "type " ++ specifiers names names.isEmpty ++
    (if (at_ 1).isPresent then Doc.text " from " ++ sourceDoc (at_ 1) (at_ 2) else Doc.empty) ++ ";"
  | .exportSpecifier typeOnly => word typeOnly "type " ++ d 0 ++ (at_ 1).after " as "
  | .exportNamespace => Doc.text "* as " ++ d 0
  | .exportDefaultFunction =>
    Doc.text "export default " ++ Doc.leading (at_ 1).span.start ++
    namedFunction (at_ 0) (at_ 1) false
  | .exportDefaultClass =>
    Doc.text "export default " ++ Doc.leading (at_ 1).span.start ++ namedClass (at_ 0) (at_ 1)
  | .exportDefaultInterface => Doc.text "export default " ++ d 0
  | .exportDefaultExpr => Doc.text "export default " ++ d 0 ++ ";"
  | .exportAll typeOnly =>
    Doc.text "export " ++ word typeOnly "type " ++ "* from " ++ sourceDoc (at_ 0) (at_ 1) ++ ";"
  | .importEquals isExport typeOnly =>
    word isExport "export " ++ "import " ++ word typeOnly "type " ++ d 0 ++ " = " ++ d 1 ++ ";"
  | .exportEquals => Doc.text "export = " ++ d 0
  | .exportAsNamespace => Doc.text "export = " ++ d 0

/-- The layout of a node, given its parts, without comments. -/
def bareLayout (k : Kind) (sp : Span) (ps : List Piece) : Doc :=
  match k with
  | .absent => Doc.empty
  | .group => Doc.commas (ps.map Piece.doc)
  | .ident name => Doc.text name
  | .word t => Doc.text t
  | .privateName t => Doc.text ("#" ++ t)
  | .computed => Doc.text "[" ++ Doc.concat (ps.map Piece.doc) ++ "]"
  | .literal l => Doc.text (literalText l)
  | .chunk raw => Doc.text raw
  | .expr e => exprLayout e ps
  | .property p => propertyLayout p ps
  | .pattern p => patternLayout p ps
  | .member m => memberLayout m sp ps
  | .stmt s => stmtLayout s sp ps
  | .module m => moduleLayout m sp ps
  | .markup m => markupLayout m sp ps
  | .type t => typeLayout t ps

/-- Whether the comments at the end of a node are printed with it. -/
def takesTrailing : Kind → Bool
  | .expr _ | .literal _ | .ident _ | .pattern _ => true
  | .member (.method ..) | .member (.field _) | .member (.constructor_ _) => true
  | .markup .element | .markup .fragment => true
  | _ => false

/-- The layout of a node with its comments. -/
def layout (k : Kind) (sp : Span) (ps : List Piece) : Piece :=
  let bare := bareLayout k sp ps
  let d := match k with
    | .absent | .group => bare
    | .module (.module_ _) => bare
    | k =>
      if takesTrailing k then Doc.leading sp.start ++ bare ++ Doc.trailing sp.stop
      else Doc.leading sp.start ++ bare
  .mk k sp d ps

/-- The text of a module with its comments. -/
def print (module : Node) (comments : Comments) : String :=
  ((module.fold layout).doc.run { comments := comments }).out

end ServerBoundary.Layout
