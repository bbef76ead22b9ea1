import ServerBoundary.Syntax.Node
import ServerBoundary.Source.Comment
import ServerBoundary.Source.Quoted

/-!
# Documents

A `Doc` writes a piece of text: it knows how deep it is indented, whether a line has been started,
and which comments are still to be printed. An indentation is written with the first text of its
line, and a line that was not started is not ended, so no document leaves blank lines.
-/

namespace ServerBoundary.Layout

open Syntax Source

/-- What has been written, and how to go on. -/
structure Writer where
  out : String := ""
  depth : Nat := 0
  lineStart : Bool := true
  comments : Comments := []

/-- A piece of text to be written. -/
structure Doc where
  run : Writer → Writer

namespace Doc

/-- Nothing. -/
def empty : Doc := ⟨id⟩

instance : Inhabited Doc := ⟨empty⟩

instance : Append Doc := ⟨fun a b => ⟨fun w => b.run (a.run w)⟩⟩

/-- A text without layout of its own. -/
def text (s : String) : Doc := ⟨fun w =>
  if s.isEmpty then w
  else
    let indent := if w.lineStart then String.ofList (List.replicate (4 * w.depth) ' ') else ""
    { w with out := w.out ++ indent ++ s, lineStart := false }⟩

instance : Coe String Doc := ⟨text⟩

/-- The end of a line that was started. -/
def line : Doc := ⟨fun w =>
  if w.lineStart then w else { w with out := w.out ++ "\n", lineStart := true }⟩

/-- A document one level deeper. -/
def deeper (d : Doc) : Doc := ⟨fun w =>
  let w' := d.run { w with depth := w.depth + 1 }
  { w' with depth := w.depth }⟩

/-- Documents one after the other. -/
def concat (ds : List Doc) : Doc := ds.foldl (· ++ ·) empty

/-- Documents with a separator between them. -/
def separated (separator : Doc) : List Doc → Doc
  | [] => empty
  | [d] => d
  | d :: ds => d ++ separator ++ separated separator ds

/-- Documents with commas between them on one line. -/
def commas (ds : List Doc) : Doc := separated (text ", ") ds

/-- Documents on a line each, one level deeper, between braces. -/
def lines (ds : List Doc) : Doc := line ++ deeper (separated line ds) ++ line

/-- One of two documents, as the state of the writing has it. -/
def choose (test : Writer → Bool) (yes no : Doc) : Doc := ⟨fun w =>
  if test w then yes.run w else no.run w⟩

/-- A comment; a line comment ends its line, a block comment is followed by a blank. -/
def comment (c : Comment) : Doc :=
  match c.style with
  | .line => text ("//" ++ c.text) ++ line
  | .block => text ("/*" ++ c.text ++ "*/ ")

/-- The comments of a token's start that are still to be printed. -/
def leading (position : Nat) : Doc := ⟨fun w =>
  if position == 0 || w.comments.isEmpty then w
  else
    let found := w.comments.find .leading position
    if found.isEmpty then w
    else (concat (found.map comment)).run { w with comments := w.comments.drop .leading position }⟩

/-- The comments of a token's end that are still to be printed, each after a blank. -/
def trailing (position : Nat) : Doc := ⟨fun w =>
  if position == 0 || w.comments.isEmpty then w
  else
    let found := w.comments.find .trailing position
    if found.isEmpty then w
    else (concat (found.map fun c => text " " ++ comment c)).run
      { w with comments := w.comments.drop .trailing position }⟩

/-- Whether comments are to be printed before a closing brace. -/
def hasLeading (position : Nat) (w : Writer) : Bool :=
  position != 0 && !(w.comments.find .leading position).isEmpty

end Doc

/-- A laid out node with its parts. -/
inductive Piece where
  | mk (kind : Kind) (span : Span) (doc : Doc) (parts : List Piece)

namespace Piece

/-- What the node is. -/
def kind : Piece → Kind
  | mk k _ _ _ => k

/-- Where the node was read. -/
def span : Piece → Span
  | mk _ s _ _ => s

/-- The text of the node. -/
def doc : Piece → Doc
  | mk _ _ d _ => d

/-- The parts of the node. -/
def parts : Piece → List Piece
  | mk _ _ _ ps => ps

/-- Nothing. -/
def absent : Piece := mk .absent .generated Doc.empty []

instance : Inhabited Piece := ⟨absent⟩

/-- The part at a place. -/
def part (p : Piece) (i : Nat) : Piece := p.parts.getD i absent

/-- Whether the node is written. -/
def isPresent (p : Piece) : Bool :=
  match p.kind with
  | .absent => false
  | _ => true

/-- The texts of the parts. -/
def docs (p : Piece) : List Doc := p.parts.map Piece.doc

/-- A text and the node, if the node is written. -/
def after (before : String) (p : Piece) : Doc :=
  if p.isPresent then Doc.text before ++ p.doc else Doc.empty

end Piece

end ServerBoundary.Layout
