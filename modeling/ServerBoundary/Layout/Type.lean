import ServerBoundary.Layout.Doc

/-!
# The layout of types

Members of interfaces and type literals stand on lines of their own, all else on one line.
-/

namespace ServerBoundary.Layout

open Syntax Source

/-- The text of a flag. -/
def word (written : Bool) (text : String) : Doc := if written then Doc.text text else Doc.empty

/-- The type of a pattern, a parameter or a member, after its colon. -/
def typed (t : Piece) : Doc := t.after ": "

/-- Parts with commas between them, in parentheses. -/
def inParens (p : Piece) : Doc := Doc.text "(" ++ Doc.commas p.docs ++ Doc.text ")"

/-- Documents on lines of their own, in braces. -/
def inBraces (ds : List Doc) : Doc :=
  if ds.isEmpty then Doc.text "\x7b" ++ Doc.line ++ Doc.text "\x7d"
  else Doc.text "\x7b" ++ Doc.lines ds ++ Doc.text "\x7d"

/-- The words for an accessibility. -/
def accessText : Access → String
  | .unmarked => ""
  | .publicly => "public "
  | .protectedly => "protected "
  | .privately => "private "

/-- The mark of a mapped type. -/
def mappedSign : String → String
  | "=" => ""
  | s => s

/-- The layout of a type. -/
def typeLayout (k : TypeKind) (ps : List Piece) : Doc :=
  let at_ (i : Nat) : Piece := ps.getD i Piece.absent
  let d (i : Nat) : Doc := (at_ i).doc
  let docs := ps.map Piece.doc
  match k with
  | .ascription => d 0
  | .keyword t => Doc.text t
  | .reference => d 0 ++ d 1
  | .qualified => d 0 ++ "." ++ d 1
  | .arguments => Doc.text "<" ++ Doc.commas docs ++ ">"
  | .parameters => Doc.text "<" ++ Doc.commas docs ++ ">"
  | .parameter isIn isOut isConst =>
    word isConst "const " ++ word isIn "in " ++ word isOut "out " ++ d 0 ++
    (at_ 1).after " extends " ++ (at_ 2).after " = "
  | .literalType => inBraces (docs.map (· ++ ";"))
  | .propertySignature isReadonly isOptional =>
    word isReadonly "readonly " ++ d 0 ++ word isOptional "?" ++ typed (at_ 1)
  | .methodSignature isOptional =>
    d 0 ++ word isOptional "?" ++ d 1 ++ inParens (at_ 2) ++ typed (at_ 3)
  | .getterSignature => Doc.text "get " ++ d 0 ++ "()" ++ typed (at_ 1)
  | .setterSignature => Doc.text "set " ++ d 0 ++ inParens (at_ 1)
  | .callSignature => d 0 ++ inParens (at_ 1) ++ (at_ 2).after " : "
  | .constructSignature => Doc.text "new" ++ d 0 ++ inParens (at_ 1) ++ typed (at_ 2)
  | .indexSignature m =>
    Doc.text (accessText m.access) ++ word m.isStatic "static " ++ word m.isReadonly "readonly " ++
    "[" ++ d 0 ++ "]" ++ typed (at_ 1)
  | .array => d 0 ++ "[]"
  | .tuple => Doc.text "[" ++ Doc.commas docs ++ "]"
  | .labelled isOptional => d 0 ++ word isOptional "?" ++ ": " ++ d 1
  | .optional => d 0 ++ "?"
  | .rest => Doc.text "..." ++ d 0
  | .union => Doc.separated " | " docs
  | .intersection => Doc.separated " & " docs
  | .conditional => d 0 ++ " extends " ++ d 1 ++ " ? " ++ d 2 ++ " : " ++ d 3
  | .infer => Doc.text "infer " ++ d 0
  | .paren => Doc.text "(" ++ d 0 ++ ")"
  | .operator w => Doc.text (w ++ " ") ++ d 0
  | .indexed => d 0 ++ "[" ++ d 1 ++ "]"
  | .mapped readonlyMark optionalMark =>
    let entry :=
      word (readonlyMark != "") (mappedSign readonlyMark ++ "readonly ") ++ "[" ++ d 0 ++ " in " ++
      d 1 ++ (at_ 2).after " as " ++ "]" ++
      word (optionalMark != "") (mappedSign optionalMark ++ "?") ++ typed (at_ 3) ++ ";"
    Doc.text "\x7b" ++ Doc.lines [entry] ++ "\x7d"
  | .literal => d 0
  | .template => templateDoc (at_ 0) (at_ 1)
  | .query => Doc.text "typeof " ++ d 0 ++ d 1
  | .imported => Doc.text "import(" ++ d 0 ++ ")" ++ (at_ 1).after "." ++ d 2
  | .function => d 0 ++ inParens (at_ 1) ++ " => " ++ d 2
  | .constructor_ isAbstract =>
    word isAbstract "abstract " ++ "new" ++ d 0 ++ inParens (at_ 1) ++ " => " ++ d 2
  | .predicate asserts => word asserts "asserts " ++ d 0 ++ (at_ 1).after " is "
  | .heritage => d 0 ++ d 1
  | .interface_ isDeclare =>
    let bases := (at_ 2).docs
    word isDeclare "declare " ++ "interface " ++ d 0 ++ d 1 ++
    (if bases.isEmpty then Doc.empty else Doc.text " extends " ++ Doc.commas bases) ++
    " " ++ inBraces ((at_ 3).docs.map (· ++ ";"))
  | .alias isDeclare => word isDeclare "declare " ++ "type " ++ d 0 ++ d 1 ++ " = " ++ d 2 ++ ";"
  | .require => Doc.text "require(" ++ d 0 ++ ")"
where
  /-- Expressions or types between the chunks of a template. -/
  templateDoc (es chunks : Piece) : Doc :=
    let rec weave : List Doc → List Doc → Doc
      | c :: cs, e :: es => c ++ "$\x7b" ++ e ++ "\x7d" ++ weave cs es
      | [c], [] => c
      | _, _ => Doc.empty
    Doc.text "`" ++ weave chunks.docs es.docs ++ "`"

end ServerBoundary.Layout
