import ServerBoundary.Text.Part

/-!
# Paths of requests

A path names what a client asks for; it may be empty and may start or end with a slash. On the wire
these cases are marked with `_`, which is why a path neither starts nor ends with `_`, and every
encoded path ends with `.txt`. A server function is named by its file and its name, and its id has a
path of its own.
-/

namespace ServerBoundary.Client

/-- Why a path has no encoding, or a text is no encoded path. -/
inductive PathFault where
  | startsWithMark (path : String)
  | endsWithMark (path : String)
  | notEncoded (text : String)
deriving DecidableEq, Repr

/-- The wording of a fault. -/
def PathFault.message : PathFault → String
  | startsWithMark path => "rscPath must not start with `_`: " ++ path
  | endsWithMark path => "rscPath must not end with `_`: " ++ path
  | notEncoded text => "Invalid encoded rscPath: " ++ text

/-- Why a function id has no path. -/
inductive FunctionIdFault where
  | noSeparator (id : String)
  | slashInName (name : String)
  | markedFile (file : String)
deriving DecidableEq, Repr

/-- The wording of a fault. -/
def FunctionIdFault.message : FunctionIdFault → String
  | noSeparator id => "Function id must contain `#`: " ++ id
  | slashInName name => "Function name must not include `/`: " ++ name
  | markedFile file => "File must not start with `_`: " ++ file

namespace RscPath

/-- How every encoded path ends. -/
def ending : List Char := ['.', 't', 'x', 't']

/-- How the path of every server function starts. -/
def functionStart : List Char := ['F', '/']

/-- A path in which the empty path and slashes at the start and the end are marked. -/
def mark (path : List Char) : List Char :=
  let filled := if path.isEmpty then ['_'] else path
  let opened := if filled.head? == some '/' then '_' :: filled else filled
  if opened.getLast? == some '/' then opened ++ ['_'] else opened

/-- A path without a mark at its start and at its end. -/
def unmark (marked : List Char) : List Char :=
  let opened := (Text.dropStart? ['_'] marked).getD marked
  (Text.dropEnd? ['_'] opened).getD opened

/-- The encoding of a path. -/
def encode (path : String) : Except PathFault String :=
  let cs := path.toList
  if cs.head? == some '_' then .error (.startsWithMark path)
  else if cs.getLast? == some '_' then .error (.endsWithMark path)
  else .ok (String.ofList (mark cs ++ ending))

/-- The path that a text encodes. -/
def decode (encoded : String) : Except PathFault String :=
  match Text.dropEnd? ending encoded.toList with
  | none => .error (.notEncoded encoded)
  | some marked => .ok (String.ofList (unmark marked))

/-- The path of a server function. The file of an absolute id keeps its slash behind a mark. -/
def ofFunctionId (id : String) : Except FunctionIdFault String :=
  match Text.splitFirst? '#' id.toList with
  | none => .error (.noSeparator id)
  | some (file, name) =>
    if name.contains '/' then .error (.slashInName (String.ofList name))
    else if file.head? == some '_' then .error (.markedFile (String.ofList file))
    else
      let marked := if file.head? == some '/' then '_' :: file else file
      .ok (String.ofList (functionStart ++ marked ++ '/' :: name))

/-- The server function whose path a text is. -/
def toFunctionId? (path : String) : Option String := do
  let rest ← Text.dropStart? functionStart path.toList
  let (marked, name) ← Text.splitLast? '/' rest
  let file := (Text.dropStart? ['_'] marked).getD marked
  return String.ofList (file ++ '#' :: name)

end RscPath

end ServerBoundary.Client
