import ServerBoundary.Syntax.Names

/-!
# Paths in a tree

A place in a tree is a path of child numbers from its root. `at?` is the node it leads to and
`above` are the nodes it passes, innermost first; both look at the tree only, not at what is done to
it. The function around a place is the first node of `above` that opens a scope.
-/

namespace ServerBoundary.Syntax.Node

/-- The node that a path leads to. -/
def at? : Node → List Nat → Option Node
  | n, [] => some n
  | n, i :: p =>
    match n.children[i]? with
    | some c => at? c p
    | none => none

/-- The nodes above the end of a path, innermost first. -/
def above : Node → List Nat → List Node
  | _, [] => []
  | n, i :: p =>
    match n.children[i]? with
    | some c => above c p ++ [n]
    | none => []

/-- The function or arrow function around a place. -/
def enclosingFunction? (n : Node) (p : List Nat) : Option Node :=
  (n.above p).find? fun a => a.scopeParts?.isSome

/-- The names that the function around a place binds directly; none if there is no function. -/
def enclosingNames (n : Node) (p : List Nat) : List String :=
  match n.enclosingFunction? p with
  | some f => f.localNames
  | none => []

@[simp] theorem at?_nil (n : Node) : n.at? [] = some n := rfl

@[simp] theorem above_nil (n : Node) : n.above [] = [] := rfl

theorem at?_cons {n c : Node} {i : Nat} (h : n.children[i]? = some c) (p : List Nat) :
    n.at? (i :: p) = c.at? p := by
  rw [at?, h]

theorem above_cons {n c : Node} {i : Nat} (h : n.children[i]? = some c) (p : List Nat) :
    n.above (i :: p) = c.above p ++ [n] := by
  rw [above, h]

/-- A path that leads somewhere starts with a child. -/
theorem exists_child_of_at? {n m : Node} {i : Nat} {p : List Nat} (h : n.at? (i :: p) = some m) :
    ∃ c, n.children[i]? = some c ∧ c.at? p = some m := by
  rw [at?] at h
  cases hc : n.children[i]? with
  | none =>
    rw [hc] at h
    exact absurd h (by simp)
  | some c =>
    rw [hc] at h
    exact ⟨c, rfl, h⟩

/-- A path to a node goes on to a part of it. -/
theorem at?_concat {d c : Node} {i : Nat} (hc : d.children[i]? = some c) :
    ∀ {n : Node} {p : List Nat}, n.at? p = some d → n.at? (p ++ [i]) = some c
  | n, [], h => by
    cases h
    exact at?_cons hc []
  | n, j :: p, h => by
    obtain ⟨m, hm, hd⟩ := exists_child_of_at? h
    rw [List.cons_append, at?_cons hm]
    exact at?_concat hc hd

/-- On the way to a part of a node the node is passed last. -/
theorem above_concat {d c : Node} {i : Nat} (hc : d.children[i]? = some c) :
    ∀ {n : Node} {p : List Nat}, n.at? p = some d → n.above (p ++ [i]) = d :: n.above p
  | n, [], h => by
    cases h
    exact above_cons hc []
  | n, j :: p, h => by
    obtain ⟨m, hm, hd⟩ := exists_child_of_at? h
    rw [List.cons_append, above_cons hm, above_cons hm, above_concat hc hd]
    rfl

/-- The names of the innermost function are those of the first node that has any. -/
theorem headD_filterMap_localNames? (as : List Node) :
    (as.filterMap localNames?).headD [] =
      match as.find? (fun a => a.scopeParts?.isSome) with
      | some f => f.localNames
      | none => [] := by
  induction as with
  | nil => rfl
  | cons a as ih =>
    cases ha : a.scopeParts? with
    | none =>
      rw [List.filterMap_cons_none (by rw [localNames?, ha]; rfl),
        List.find?_cons_of_neg (by rw [ha]; simp), ih]
    | some parts =>
      have hnames : a.localNames? = some a.localNames := by
        rw [localNames, localNames?, ha]
        rfl
      rw [List.filterMap_cons_some hnames, List.find?_cons_of_pos (by rw [ha]; rfl)]
      rfl

theorem nodup_enclosingNames (n : Node) (p : List Nat) : (n.enclosingNames p).Nodup := by
  unfold enclosingNames
  cases n.enclosingFunction? p with
  | none => exact List.nodup_nil
  | some f => exact nodup_localNames f

end ServerBoundary.Syntax.Node
