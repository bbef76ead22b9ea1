/-!
# Comments and where they belong

A comment is not part of the tree. It is attached to a position: as a *leading* comment to the start
of the token after it, or as a *trailing* comment to the end of the token before it. Whatever node
is printed first at that position takes it, so a comment is printed once, and one whose position no
printed node has is not printed at all.
-/

namespace ServerBoundary.Source

/-- The two spellings of a comment. -/
inductive CommentStyle where
  | line | block
deriving DecidableEq, Repr

/-- A comment, without its delimiters. -/
structure Comment where
  style : CommentStyle
  text : String
deriving DecidableEq, Repr

/-- Which end of a token a comment belongs to. -/
inductive CommentSide where
  | leading | trailing
deriving DecidableEq, Repr

/-- A comment with the side and the position it is attached to. -/
structure AttachedComment where
  side : CommentSide
  position : Nat
  comment : Comment
deriving DecidableEq, Repr

/-- Attached comments, in the order of the source. -/
abbrev Comments := List AttachedComment

namespace Comments

/-- Whether an attached comment is on that side of that position. -/
def isAt (side : CommentSide) (position : Nat) (a : AttachedComment) : Bool :=
  a.side == side && a.position == position

/-- The comments on one side of a position. -/
def find (cs : Comments) (side : CommentSide) (position : Nat) : List Comment :=
  (cs.filter (isAt side position)).map (·.comment)

/-- All other comments. -/
def drop (cs : Comments) (side : CommentSide) (position : Nat) : Comments :=
  cs.filter (fun a => !isAt side position a)

end Comments

end ServerBoundary.Source
