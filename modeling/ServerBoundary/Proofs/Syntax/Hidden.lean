import ServerBoundary.Proofs.Syntax.Scope

/-!
# Names that stand in a tree without being used

A name can stand in a tree where it uses nothing that the tree does not declare itself: as a binding
of a function, a block, a loop or a `catch` inside it, as a use of such a binding, as a label, as the
own name of a function or class expression, or as a plain tag. `hiddenNames` are the names for which
there is such a place. A name may have places of both sorts.

> `mem_freeNames_or_mem_hiddenNames`: a name that stands in a tree is used by it, or it is hidden
> somewhere in it.
-/

namespace ServerBoundary.Syntax.Node

/-! ## Where names use nothing -/

/-- The parts of a node whose names use nothing, whatever they are: labels, the own name of a function
expression, and parts that belong to no use of the node, such as types. The decorators of a function
are used by the method that it belongs to, if there is one. -/
def silentParts : Node → List Node
  | .mk (.ident _) _ cs => cs
  | .mk (.pattern (.binding _ _)) _ type => type
  | .mk (.literal _) _ cs => cs
  | .mk (.stmt .labeled) _ (label :: _) => [label]
  | .mk (.stmt .break_) _ label => label
  | .mk (.stmt .continue_) _ label => label
  | .mk (.member (.function _)) _ (_ :: decorators :: _ :: types) => decorators :: types
  | .mk (.expr (.arrow _)) _ (_ :: _ :: types) => types
  | .mk (.expr .function) _ (name :: _ :: rest) => name :: rest
  | .mk (.member (.constructor_ _)) _ (_ :: _ :: _ :: rest) => rest
  | .mk (.property .getter) _ (_ :: type :: _ :: rest) => type :: rest
  | .mk (.property .setter) _ (_ :: _ :: _ :: rest) => rest
  | _ => []

/-- The names that a tag uses; a plain tag stands for itself. -/
def tagNames (tag : Node) : List String := if isPlainTag tag then [] else freeNames tag

mutual
/-- The names that are hidden somewhere in a tree: a node brings them into scope for its parts, or
they stand where names use nothing. -/
def hiddenNames : Node → List String
  | .mk (.type _) _ _ => []
  -- The decorators of the function stand outside it and are uses.
  | .mk (.member (.method _ _)) _ (key :: f :: rest) =>
    hiddenNames key ++ without (decoratorNames f) (hiddenNames f) ++ occurrencesIn rest
  -- The closing tag says again what the opening tag says.
  | .mk (.markup .element) _ (name :: attributes :: types :: children :: closing) =>
    without (tagNames name) (occurrences name ++ occurrencesIn (types :: closing)) ++
      hiddenNames attributes ++ hiddenNames children
  | .mk k sp cs =>
    introduced (.mk k sp cs) ++ occurrencesIn (silentParts (.mk k sp cs)) ++ hiddenNamesIn cs
/-- The names that are hidden somewhere in a list of trees. -/
def hiddenNamesIn : List Node → List String
  | [] => []
  | n :: ns => hiddenNames n ++ hiddenNamesIn ns
end

theorem mem_hiddenNamesIn {x : String} {cs : List Node} :
    x ∈ hiddenNamesIn cs ↔ ∃ c ∈ cs, x ∈ hiddenNames c := by
  induction cs with
  | nil => simp [hiddenNamesIn]
  | cons c cs ih => simp [hiddenNamesIn, ih]

variable {n c : Node} {x : String}

/-- What a node brings into scope is hidden in it. -/
theorem mem_hiddenNames_of_mem_introduced (ht : n.kind.isType = false) (h : x ∈ n.introduced) :
    x ∈ n.hiddenNames := by
  unfold hiddenNames
  split
  next => exact absurd ht (by simp [Kind.isType])
  next => exact absurd h List.not_mem_nil
  next => exact absurd h List.not_mem_nil
  next => exact List.mem_append_left _ (List.mem_append_left _ h)

/-- What stands in a part whose names use nothing is hidden in the node. -/
theorem mem_hiddenNames_of_mem_silentParts (ht : n.kind.isType = false) (hc : c ∈ n.silentParts)
    (h : x ∈ c.occurrences) : x ∈ n.hiddenNames := by
  unfold hiddenNames
  split
  next => exact absurd ht (by simp [Kind.isType])
  next => exact absurd hc List.not_mem_nil
  next => exact absurd hc List.not_mem_nil
  next =>
    exact List.mem_append_left _ (List.mem_append_right _ (mem_occurrencesIn.mpr ⟨c, hc, h⟩))

/-! ## Used or hidden -/

/-- A name that stands in a node is its own or stands in a part. -/
theorem mem_occurrences_cases (h : x ∈ n.occurrences) :
    n.kind.isType = false ∧
      (n.kind.identifier? = some x ∨ ∃ c ∈ n.children, x ∈ c.occurrences) := by
  obtain ⟨k, sp, cs⟩ := n
  rw [occurrences] at h
  split at h
  next => exact absurd h List.not_mem_nil
  next ht =>
    refine ⟨by simpa using ht, ?_⟩
    rcases List.mem_append.mp h with hown | hpart
    · exact .inl (by simpa using hown)
    · exact .inr (mem_occurrencesIn.mp hpart)

/-- The name that a node is by itself is used by it. -/
theorem mem_freeNames_of_identifier? (h : n.kind.identifier? = some x) : x ∈ n.freeNames := by
  obtain ⟨k, sp, cs⟩ := n
  rw [kind_mk] at h
  unfold Kind.identifier? at h
  split at h
  next =>
    cases h
    exact List.mem_singleton_self x
  next =>
    cases h
    exact List.mem_singleton_self x
  next => exact absurd h (by simp)

/-- What a part of a node uses, the node uses, or it hides it. -/
theorem used_or_hidden_of_used (ht : n.kind.isType = false) (hc : c ∈ n.children)
    (h : x ∈ c.freeNames) : x ∈ n.freeNames ∨ x ∈ n.hiddenNames := by
  have hstands : x ∈ c.occurrences := mem_occurrences_of_mem_freeNames h
  have hsilent : c ∈ n.silentParts → x ∈ n.hiddenNames := fun hs =>
    mem_hiddenNames_of_mem_silentParts ht hs hstands
  have hintroduced : x ∈ n.introduced → x ∈ n.hiddenNames := mem_hiddenNames_of_mem_introduced ht
  unfold freeNames
  split
  case h_4 => exact absurd ht (by simp [Kind.isType])
  -- A method and an element hide no scope and no silent part, but names of some of their parts.
  case h_12 =>
    rw [hiddenNames]
    simp only [children_mk, List.mem_cons, List.mem_append, mem_without, mem_occurrencesIn] at hc ⊢
    grind
  case h_16 =>
    rw [hiddenNames, tagNames]
    simp only [children_mk, List.mem_cons, List.mem_append, mem_without, mem_occurrencesIn] at hc ⊢
    grind
  all_goals
    simp only [children_mk, List.mem_cons, List.mem_append, mem_without, mem_freeNamesIn] at hc ⊢
    simp only [silentParts] at hsilent
    grind [introduced]

/-- What is hidden in a part of a node is hidden in the node, or the node uses it elsewhere. -/
theorem used_or_hidden_of_hidden (ht : n.kind.isType = false) (hc : c ∈ n.children)
    (h : x ∈ c.hiddenNames) (hstands : x ∈ c.occurrences) :
    x ∈ n.freeNames ∨ x ∈ n.hiddenNames := by
  unfold hiddenNames
  split
  next => exact absurd ht (by simp [Kind.isType])
  next =>
    rw [freeNames]
    simp only [children_mk, List.mem_cons, List.mem_append, mem_without, mem_occurrencesIn] at hc ⊢
    grind
  next =>
    rw [freeNames, ← tagNames]
    simp only [children_mk, List.mem_cons, List.mem_append, mem_without, mem_occurrencesIn] at hc ⊢
    grind
  next => exact .inr (List.mem_append_right _ (mem_hiddenNamesIn.mpr ⟨c, hc, h⟩))

/-- **A name that stands in a tree is used by it or hidden in it.** -/
theorem mem_freeNames_or_mem_hiddenNames (n : Node) (x : String) (h : x ∈ n.occurrences) :
    x ∈ n.freeNames ∨ x ∈ n.hiddenNames := by
  induction n using of_parts with
  | h k sp cs ih =>
    obtain ⟨ht, hown | ⟨c, hc, hstands⟩⟩ := mem_occurrences_cases h
    · exact .inl (mem_freeNames_of_identifier? hown)
    · rcases ih c hc hstands with hused | hhidden
      · exact used_or_hidden_of_used ht hc hused
      · exact used_or_hidden_of_hidden ht hc hhidden hstands

end ServerBoundary.Syntax.Node
