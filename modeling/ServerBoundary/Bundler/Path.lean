import ServerBoundary.Text.Part

/-!
# Module paths

Module ids are paths with `/` between segments; a query may follow after `?`. `joinPath` puts paths
together and leaves no empty segment and no `.`, and a `..` only where there is nothing it could
remove.
-/

namespace ServerBoundary.Bundler

/-- A module id without its query. -/
def stripQuery (id : String) : String := String.ofList (id.toList.takeWhile (· != '?'))

/-- The extension of a path with its dot: what follows the last dot of the last segment, unless
the segment starts with that dot. -/
def extension (path : String) : String :=
  let last := (Text.splitAll '/' path.toList).getLastD []
  match (Text.splitAll '.' last).reverse with
  | [] | [_] => ""
  | _ :: [[]] => ""
  | e :: _ => String.ofList ('.' :: e)

/-- Puts a segment on a stack of segments, last segment first. -/
def pushSegment (absolute : Bool) (stack : List (List Char)) (segment : List Char) :
    List (List Char) :=
  if segment == [] || segment == ['.'] then stack
  else if segment == ['.', '.'] then
    match stack with
    | [] => if absolute then [] else [segment]
    | top :: below => if top == ['.', '.'] then (if absolute then stack else segment :: stack) else below
  else segment :: stack

/-- The segments of a path, last first, put on a stack of segments. -/
def pushPath (absolute : Bool) (stack : List (List Char)) (path : String) : List (List Char) :=
  (Text.splitAll '/' path.toList).foldl (pushSegment absolute) stack

/-- Whether a path starts at the root. -/
def isAbsolute (path : String) : Bool := path.toList.head? == some '/'

/-- The path that leads along some paths, one after the other. The first one says whether it starts
at the root. -/
def joinPath (paths : List String) : String :=
  let absolute := (paths.head?.map isAbsolute).getD false
  let segments := (paths.foldl (pushPath absolute) []).reverse
  String.ofList ((if absolute then ['/'] else []) ++ List.intercalate ['/'] segments)

end ServerBoundary.Bundler
