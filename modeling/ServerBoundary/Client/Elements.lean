import ServerBoundary.Json.Value

/-!
# Elements

What a server renders: values by the id of the slot they fill. An element may be there and undefined,
which slots refuse. `Elements.merge` lays one set of elements over another.
-/

namespace ServerBoundary.Client

/-- Elements by slot id; `none` is an element that is there but undefined. -/
abbrev Elements := OrderedMap (Option Json)

namespace Elements

/-- The id that carries the result of a server function. -/
def valueKey : String := "_value"

/-- Some elements with a patch over them. The result of a server function does not stay. -/
def merge (elements patch : Elements) : Elements :=
  (elements.insertAll patch.entries).erase valueKey

/-- The result of a server function, if it is there and defined, and the other elements. -/
def splitValue (elements : Elements) : Option Json × Elements :=
  ((elements.get? valueKey).join, elements.erase valueKey)

/-- Whether two elements are equal, or both undefined. -/
def sameElement : Option Json → Option Json → Bool
  | none, none => true
  | some a, some b => a.same b
  | _, _ => false

/-- Whether two sets hold the same elements under the same ids, in whatever order. -/
def same (a b : Elements) : Bool :=
  a.size == b.size && a.entries.all fun (id, e) =>
    match b.get? id with
    | some e' => sameElement e e'
    | none => false

end Elements

end ServerBoundary.Client
