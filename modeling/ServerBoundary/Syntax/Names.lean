import ServerBoundary.Syntax.Node

/-!
# Names in a tree

`occurrences` are the identifiers of a tree in the order in which they are visited, `boundNames`
those a pattern binds, and `localNames?` those a function binds directly: its parameters and the
variables declared at the top level of its body.
-/

namespace ServerBoundary.Syntax

/-- A list without repetitions: each element where it first stands. -/
def distinct : List String → List String
  | [] => []
  | x :: xs => x :: (distinct xs).filter (· != x)

@[simp] theorem mem_distinct {x : String} {xs : List String} : x ∈ distinct xs ↔ x ∈ xs := by
  induction xs with
  | nil => rfl
  | cons y ys ih =>
    rw [distinct, List.mem_cons, List.mem_cons, List.mem_filter, ih, bne_iff_ne]
    by_cases h : x = y
    · simp [h]
    · simp [h]

theorem nodup_distinct (xs : List String) : (distinct xs).Nodup := by
  induction xs with
  | nil => exact List.nodup_nil
  | cons y ys ih =>
    rw [distinct, List.nodup_cons]
    exact ⟨by simp, ih.filter _⟩

/-- The identifier that a kind of node is by itself. -/
def Kind.identifier? : Kind → Option String
  | .ident name => some name
  | .pattern (.binding name _) => some name
  | _ => none

/-- Whether a kind of node is a type, where no identifiers are looked for. -/
def Kind.isType : Kind → Bool
  | .type _ => true
  | _ => false

namespace Node

mutual
/-- The identifiers of a tree, each as often as it stands there. Types have none. -/
def occurrences : Node → List String
  | .mk k _ cs => if k.isType then [] else k.identifier?.toList ++ occurrencesIn cs
/-- The identifiers of a list of trees. -/
def occurrencesIn : List Node → List String
  | [] => []
  | n :: ns => occurrences n ++ occurrencesIn ns
end

/-- The identifiers of a tree in first-seen order. -/
def identifiers (n : Node) : List String := distinct n.occurrences

mutual
/-- The names that a pattern binds. -/
def boundNames : Node → List String
  | .mk .group _ ps => boundNamesIn ps
  | .mk (.pattern (.binding name _)) _ _ => [name]
  | .mk (.pattern (.array _)) _ (elements :: _) => boundNames elements
  | .mk (.pattern (.object _)) _ (properties :: _) => boundNames properties
  | .mk (.pattern .keyed) _ [_, p] => boundNames p
  | .mk (.pattern .shorthand) _ (p :: _) => boundNames p
  | .mk (.pattern .rest) _ (p :: _) => boundNames p
  | .mk (.pattern .defaulted) _ (p :: _) => boundNames p
  | .mk (.member .param) _ [_, p] => boundNames p
  | _ => []
/-- The names that a list of patterns binds. -/
def boundNamesIn : List Node → List String
  | [] => []
  | p :: ps => boundNames p ++ boundNamesIn ps
end

/-- The names that a variable declaration binds; any other statement binds none here. -/
def variableNames : Node → List String
  | .mk (.stmt (.variable_ _ _)) _ ds => ds.flatMap fun d => boundNames (d.part 0)
  | _ => []

/-- The statements of a block. -/
def statements : Node → List Node
  | .mk (.stmt .block) _ ss => ss
  | _ => []

/-- The parameters and the body of a node that opens a scope: a function or an arrow function. -/
def scopeParts? : Node → Option (List Node × Node)
  | .mk (.member (.function _)) _ (.mk .group _ params :: _ :: body :: _) => some (params, body)
  | .mk (.expr (.arrow _)) _ (.mk .group _ params :: body :: _) => some (params, body)
  | _ => none

/-- The names that a function binds directly, in order. -/
def localNames? (n : Node) : Option (List String) :=
  n.scopeParts?.map fun (params, body) =>
    distinct (boundNamesIn params ++ body.statements.flatMap variableNames)

/-- The names that a node binds directly; none if it opens no scope. -/
def localNames (n : Node) : List String := n.localNames?.getD []

/-- A function binds no name twice. -/
theorem nodup_localNames (n : Node) : n.localNames.Nodup := by
  unfold localNames localNames?
  cases n.scopeParts? with
  | none => exact List.nodup_nil
  | some parts => exact nodup_distinct _

end Node

end ServerBoundary.Syntax
