import ServerBoundary.Layout.Member

/-!
# The layout of expressions, patterns and markup

Elements of arrays and properties of objects stand on lines of their own; all other lists are on one
line. Parentheses are nodes, so none are added.
-/

namespace ServerBoundary.Layout

open Syntax Source

/-- The text of a literal. -/
def literalText : Literal → String
  | .string _ (some raw) => raw
  | .string value none => Quoted.encode value
  | .number raw => raw
  | .bigint raw => raw
  | .regex raw => raw
  | .boolean b => if b then "true" else "false"
  | .null => "null"

/-- Whether a dot right after the literal would belong to it. -/
def takesDot (p : Piece) : Bool :=
  match p.kind with
  | .literal (.number raw) =>
    let cs := raw.toList
    cs.all Char.isDigit && !(cs.length ≥ 2 && cs.head? == some '0')
  | _ => false

/-- Elements on lines of their own. A hole has nothing but its comma; one at the end keeps it. -/
def arrayLayout (ps : List Piece) : Doc :=
  match ps.getLast? with
  | none => Doc.text "[]"
  | some last =>
    let elements := Doc.separated (Doc.text "," ++ Doc.line) (ps.map Piece.doc)
    let close := if last.isPresent then Doc.empty else Doc.text ", "
    Doc.text "[" ++ Doc.line ++ Doc.deeper (elements ++ close) ++ Doc.line ++ "]"

/-- Properties on lines of their own. -/
def objectLayout (ps : List Piece) : Doc :=
  if ps.isEmpty then Doc.text "\x7b\x7d"
  else
    Doc.text "\x7b" ++ Doc.line ++
    Doc.deeper (Doc.separated (Doc.text "," ++ Doc.line) (ps.map Piece.doc)) ++ Doc.line ++ "\x7d"

/-- Whether a blank has to stand between an operator and the operator its operand starts with. -/
def needsBlank (op : String) (operand : Piece) : Bool :=
  match operand.kind with
  | .expr (.unary o) => (op == "+" || op == "-") && o == op
  | .expr (.update o true) => (op == "+" && o == "++") || (op == "-" && o == "--")
  | _ => false

/-- The layout of an expression. -/
def exprLayout (k : ExprKind) (ps : List Piece) : Doc :=
  let at_ (i : Nat) : Piece := ps.getD i Piece.absent
  let d (i : Nat) : Doc := (at_ i).doc
  match k with
  | .this => Doc.text "this"
  | .superRef => Doc.text "super"
  | .newTarget => Doc.text "new.target"
  | .importMeta => Doc.text "import.meta"
  | .importRef => Doc.text "import"
  | .array => arrayLayout ps
  | .object => objectLayout ps
  | .function => namedFunction (at_ 0) (at_ 1) false
  | .arrow isAsync =>
    word isAsync "async " ++ d 2 ++ inParens (at_ 0) ++
    (if (at_ 3).isPresent then Doc.text ": " ++ d 3 ++ " " else Doc.empty) ++ "=>" ++
    (if isBlock (at_ 1) then d 1 else Doc.deeper (d 1))
  | .class_ => namedClass (at_ 0) (at_ 1)
  | .unary op =>
    let isWord := op == "delete" || op == "void" || op == "typeof"
    Doc.text op ++ word (isWord || needsBlank op (at_ 0)) " " ++ d 0
  | .update op before => if before then Doc.text op ++ d 0 else d 0 ++ Doc.text op
  | .binary op => d 0 ++ Doc.text (" " ++ op ++ " ") ++ d 1
  | .assign op => d 0 ++ Doc.text (" " ++ op ++ " ") ++ d 1
  | .conditional => d 0 ++ " ? " ++ d 1 ++ " : " ++ d 2
  | .sequence => Doc.commas (ps.map Piece.doc)
  | .paren => Doc.text "(" ++ d 0 ++ ")"
  | .member optional =>
    d 0 ++ (if optional then Doc.text "?." else word (takesDot (at_ 0)) "." ++ ".") ++ d 1
  | .index optional => d 0 ++ word optional "?." ++ "[" ++ d 1 ++ "]"
  | .call optional => d 0 ++ word optional "?." ++ d 2 ++ inParens (at_ 1)
  | .new_ =>
    Doc.text "new " ++ d 0 ++ d 2 ++ (if (at_ 1).isPresent then inParens (at_ 1) else Doc.empty)
  | .spread => Doc.text "..." ++ d 0
  | .await => Doc.text "await " ++ d 0
  | .yield delegates => Doc.text "yield" ++ word delegates "*" ++ (at_ 0).after " "
  | .template => typeLayout .template ps
  | .tagged => d 0 ++ d 1 ++ d 2
  | .asType => d 0 ++ " as " ++ d 1
  | .satisfiesType => d 0 ++ " satisfies " ++ d 1
  | .assertion => Doc.text "<" ++ d 1 ++ ">" ++ d 0
  | .asConst => d 0 ++ " as const"
  | .nonNull => d 0 ++ "!"
  | .instantiation => d 0 ++ d 1

/-- The layout of a property of an object literal. -/
def propertyLayout (k : PropertyKind) (ps : List Piece) : Doc :=
  let at_ (i : Nat) : Piece := ps.getD i Piece.absent
  let d (i : Nat) : Doc := (at_ i).doc
  match k with
  | .keyed => d 0 ++ ": " ++ d 1
  | .getter => Doc.text "get " ++ d 0 ++ " ()" ++ typed (at_ 1) ++ " " ++ d 2
  | .setter => Doc.text "set " ++ d 0 ++ " (" ++ d 1 ++ ")" ++ d 2
  | .method =>
    let m := modeOf (at_ 1)
    asyncWord m ++ word m.isGenerator "*" ++ d 0 ++ " " ++ d 1
  | .initialized => d 0 ++ " = " ++ d 1

/-- The layout of a pattern. -/
def patternLayout (k : PatternKind) (ps : List Piece) : Doc :=
  let at_ (i : Nat) : Piece := ps.getD i Piece.absent
  let d (i : Nat) : Doc := (at_ i).doc
  match k with
  | .binding name optional => Doc.text name ++ word optional "?" ++ typed (at_ 0)
  | .array optional =>
    Doc.text "[" ++ Doc.commas (at_ 0).docs ++ "]" ++ word optional "?" ++ typed (at_ 1)
  | .object optional =>
    (if (at_ 0).parts.isEmpty then Doc.text "\x7b\x7d"
     else Doc.text "\x7b " ++ Doc.commas (at_ 0).docs ++ " \x7d") ++
    word optional "?" ++ typed (at_ 1)
  | .keyed => d 0 ++ ": " ++ d 1
  | .shorthand => d 0 ++ (at_ 1).after " = "
  | .rest => Doc.text "..." ++ d 0 ++ typed (at_ 1)
  | .defaulted => d 0 ++ " = " ++ d 1

/-- The layout of markup. -/
def markupLayout (k : MarkupKind) (sp : Span) (ps : List Piece) : Doc :=
  let at_ (i : Nat) : Piece := ps.getD i Piece.absent
  let d (i : Nat) : Doc := (at_ i).doc
  match k with
  | .element =>
    let attrs := (at_ 1).docs
    let head := Doc.text "<" ++ d 0 ++ d 2 ++
      (if attrs.isEmpty then Doc.empty else Doc.text " " ++ Doc.separated " " attrs)
    if (at_ 4).isPresent then head ++ ">" ++ Doc.concat (at_ 3).docs ++ "</" ++ d 4 ++ ">"
    else head ++ "/>"
  | .fragment => Doc.text "<>" ++ Doc.concat (at_ 0).docs ++ "</>"
  | .attribute => d 0 ++ (at_ 1).after "="
  | .spreadAttribute => Doc.text "\x7b..." ++ d 0 ++ "\x7d"
  | .memberName => d 0 ++ "." ++ d 1
  | .namespacedName t => Doc.text t
  | .container => Doc.text "\x7b" ++ d 0 ++ "\x7d"
  | .emptyExpr => Doc.trailing sp.start
  | .spreadChild => Doc.text "\x7b..." ++ d 0 ++ "\x7d"
  | .text raw => Doc.text raw

end ServerBoundary.Layout
