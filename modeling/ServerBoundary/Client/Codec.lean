import ServerBoundary.Client.Elements
import ServerBoundary.Client.Error

/-!
# Replies and payloads

Texts that start with `$` are reserved on the wire: `$T<n>` stands for a value that is kept on this
side while a request may refer to it, `$undefined` for a missing element, and any other `$` at the
start of a text is doubled. `encodeReply` writes the body of a request and `decodeElements` reads
that of a response.
-/

namespace ServerBoundary.Client

/-- Values that are kept while a request may refer to them, in the order of their numbers. -/
structure ReferenceSet where
  /-- Tells one set from another with the same values. -/
  serial : Nat := 0
  values : List Json := []

namespace ReferenceSet

/-- What every reference starts with. -/
def markerStart : List Char := ['$', 'T']

/-- The reference to the value with a number. -/
def marker (n : Nat) : String := String.ofList markerStart ++ Nat.repr n

/-- Keeps a value and gives the reference to it. -/
def register (s : ReferenceSet) (value : Json) : ReferenceSet × String :=
  ({ s with values := s.values ++ [value] }, marker s.values.length)

/-- The number of values. -/
def size (s : ReferenceSet) : Nat := s.values.length

/-- Whether two are the same set. -/
def isSame (s t : ReferenceSet) : Bool := s.serial == t.serial

/-- Numbers of references go up to here. -/
def maxIndex : Nat := UInt64.size - 1

/-- The number that digits are, if it is one: a plus sign may stand before it. -/
def index? (digits : List Char) : Option Nat :=
  let ds := (Text.dropStart? ['+'] digits).getD digits
  if !ds.isEmpty && ds.all Char.isDigit then
    let n := ds.foldl (fun n d => 10 * n + (d.toNat - 48)) 0
    if n ≤ maxIndex then some n else none
  else none

/-- The value that a text refers to. -/
def find? (s : ReferenceSet) (text : String) : Option Json := do
  let digits ← Text.dropStart? markerStart text.toList
  let n ← index? digits
  s.values[n]?

/-- Whether a text refers to a value. -/
def resolves (s : ReferenceSet) (text : String) : Bool := (s.find? text).isSome

end ReferenceSet

/-- How a text is written. -/
def encodeText (refs : ReferenceSet) (s : String) : String :=
  if s.toList.head? == some '$' && !refs.resolves s then "$" ++ s else s

mutual
/-- How a value is written. -/
def encodeValue (refs : ReferenceSet) : Json → Json
  | .string s => .string (encodeText refs s)
  | .array items => .array (encodeItems refs items)
  | .object fields => .object (encodeFields refs fields)
  | v => v
/-- How values are written. -/
def encodeItems (refs : ReferenceSet) : List Json → List Json
  | [] => []
  | v :: vs => encodeValue refs v :: encodeItems refs vs
/-- How fields are written. -/
def encodeFields (refs : ReferenceSet) : List (String × Json) → List (String × Json)
  | [] => []
  | (k, v) :: fs => (k, encodeValue refs v) :: encodeFields refs fs
end

/-- The body of a request. -/
def encodeReply (refs : ReferenceSet) (v : Json) : List UInt8 := (encodeValue refs v).toBytes

/-- What a written text stands for. -/
def decodeText (refs : ReferenceSet) (s : String) : Json :=
  match s.toList with
  | '$' :: '$' :: rest => .string (String.ofList ('$' :: rest))
  | _ => (refs.find? s).getD (.string s)

mutual
/-- What a written value stands for. -/
def decodeValue (refs : ReferenceSet) : Json → Json
  | .string s => decodeText refs s
  | .array items => .array (decodeItems refs items)
  | .object fields => .object (decodeFields refs fields)
  | v => v
/-- What written values stand for. -/
def decodeItems (refs : ReferenceSet) : List Json → List Json
  | [] => []
  | v :: vs => decodeValue refs v :: decodeItems refs vs
/-- What written fields stand for. -/
def decodeFields (refs : ReferenceSet) : List (String × Json) → List (String × Json)
  | [] => []
  | (k, v) :: fs => (k, decodeValue refs v) :: decodeFields refs fs
end

/-- The text that stands for an undefined element. -/
def undefinedText : String := "$undefined"

/-- The element that a written value stands for. -/
def decodeElement (refs : ReferenceSet) (v : Json) : Option Json :=
  match v with
  | .string s => if s == undefinedText then none else some (decodeText refs s)
  | v => some (decodeValue refs v)

/-- The elements of a payload. -/
def decodeElements (refs : ReferenceSet) (bytes : List UInt8) : Except PayloadFault Elements :=
  match Json.read bytes with
  | .error e => .error (.notJson e)
  | .ok (.object fields) =>
    .ok (.ofList (fields.map fun (id, v) => (id, decodeElement refs v)))
  | .ok _ => .error .notObject

end ServerBoundary.Client
