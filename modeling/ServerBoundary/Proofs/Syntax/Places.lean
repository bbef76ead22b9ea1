import ServerBoundary.Proofs.Syntax.Path

/-!
# Places in a tree

`places` lists the paths to the nodes of a tree that satisfy a condition, and `substitute` puts
other nodes at some places. Neither depends on why a node is looked for or replaced.

> `mem_places`: the places are the paths to such nodes that enter no type.

> `pairwise_places`: no place is listed twice, and a place comes after every place inside it.
-/

namespace ServerBoundary.Syntax.Node

/-! ## Listing places -/

mutual
/-- The places of the nodes that satisfy a condition, those inside a node before its own. Types are
not entered. -/
def places (holds : Node → Bool) : Node → List (List Nat)
  | .mk k sp cs =>
    if k.isType then []
    else placesFrom holds 0 cs ++ if holds (.mk k sp cs) then [[]] else []
/-- The places in a list of trees, the first of which is the part with a given number. -/
def placesFrom (holds : Node → Bool) : Nat → List Node → List (List Nat)
  | _, [] => []
  | i, c :: cs => (places holds c).map (i :: ·) ++ placesFrom holds (i + 1) cs
end

variable {holds : Node → Bool}

theorem places_of_isType {n : Node} (h : n.kind.isType = true) : n.places holds = [] := by
  cases n with
  | mk k sp cs =>
    rw [places]
    exact if_pos h

theorem places_of_not_isType {n : Node} (h : n.kind.isType = false) :
    n.places holds = placesFrom holds 0 n.children ++ if holds n then [[]] else [] := by
  cases n with
  | mk k sp cs =>
    rw [Node.kind_mk] at h
    rw [places, h]
    rfl

theorem placesFrom_eq_nil_iff {cs : List Node} {i : Nat} :
    placesFrom holds i cs = [] ↔ ∀ c ∈ cs, c.places holds = [] := by
  induction cs generalizing i with
  | nil => simp [placesFrom]
  | cons c cs ih => simp [placesFrom, ih]

/-- A tree has no such place if neither its parts have one nor its root is one. -/
theorem places_eq_nil_iff {n : Node} (h : n.kind.isType = false) :
    n.places holds = [] ↔ (∀ c ∈ n.children, c.places holds = []) ∧ holds n = false := by
  rw [places_of_not_isType h, List.append_eq_nil_iff, placesFrom_eq_nil_iff]
  cases holds n <;> simp

/-- A place in a list of trees is a place in one of them. -/
theorem mem_placesFrom {cs : List Node} {i : Nat} {p : List Nat} :
    p ∈ placesFrom holds i cs ↔
      ∃ j c q, cs[j]? = some c ∧ p = (i + j) :: q ∧ q ∈ c.places holds := by
  induction cs generalizing i with
  | nil => simp [placesFrom]
  | cons c cs ih =>
    rw [placesFrom, List.mem_append, List.mem_map, ih]
    constructor
    · rintro (⟨q, hq, rfl⟩ | ⟨j, d, q, hd, rfl, hq⟩)
      · exact ⟨0, c, q, rfl, rfl, hq⟩
      · exact ⟨j + 1, d, q, hd, by rw [Nat.add_assoc, Nat.add_comm 1], hq⟩
    · rintro ⟨j, d, q, hd, rfl, hq⟩
      cases j with
      | zero =>
        cases hd
        exact .inl ⟨q, hq, rfl⟩
      | succ j => exact .inr ⟨j, d, q, hd, by rw [Nat.add_assoc, Nat.add_comm 1], hq⟩

/-- The places are the paths to the nodes that satisfy the condition, as far as they enter no
type. -/
theorem mem_places {n : Node} {p : List Nat} : p ∈ n.places holds ↔
    ∃ m, n.at? p = some m ∧ (∀ a ∈ n.above p, a.kind.isType = false) ∧
      m.kind.isType = false ∧ holds m = true := by
  induction p generalizing n with
  | nil =>
    cases ht : n.kind.isType with
    | true =>
      rw [places_of_isType ht]
      simp [ht]
    | false =>
      rw [places_of_not_isType ht, List.mem_append, mem_placesFrom]
      cases hn : holds n <;> simp [ht, hn]
  | cons i p ih =>
    cases ht : n.kind.isType with
    | true =>
      rw [places_of_isType ht]
      constructor
      · exact fun h => absurd h List.not_mem_nil
      · rintro ⟨m, hm, habove, -⟩
        -- The path would enter the type that `n` is.
        obtain ⟨c, hc, _⟩ := exists_child_of_at? hm
        rw [above_cons hc] at habove
        have := habove n (List.mem_append_right _ (List.mem_singleton_self n))
        rw [ht] at this
        exact absurd this (by simp)
    | false =>
      have hself : i :: p ∉ (if holds n then [[]] else [] : List (List Nat)) := by
        split <;> simp
      rw [places_of_not_isType ht, List.mem_append, or_iff_left hself, mem_placesFrom]
      constructor
      · rintro ⟨j, c, q, hc, heq, hq⟩
        rw [Nat.zero_add, List.cons.injEq] at heq
        obtain ⟨rfl, rfl⟩ := heq
        obtain ⟨m, hm, habove, hholds⟩ := ih.mp hq
        refine ⟨m, by rw [at?_cons hc, hm], ?_, hholds⟩
        rw [above_cons hc]
        intro a ha
        rcases List.mem_append.mp ha with hbelow | hn
        · exact habove a hbelow
        · rw [List.mem_singleton.mp hn]
          exact ht
      · rintro ⟨m, hm, habove, hholds⟩
        obtain ⟨c, hc, hmc⟩ := exists_child_of_at? hm
        rw [above_cons hc] at habove
        exact ⟨i, c, p, hc, by rw [Nat.zero_add],
          ih.mpr ⟨m, hmc, fun a ha => habove a (List.mem_append_left _ ha), hholds⟩⟩

mutual
/-- A place comes after every place inside it, and is listed once. -/
theorem pairwise_places (holds : Node → Bool) :
    ∀ n : Node, (n.places holds).Pairwise fun p q => ¬p <+: q
  | .mk k sp cs => by
    cases ht : k.isType with
    | true =>
      rw [places_of_isType (n := .mk k sp cs) ht]
      exact List.Pairwise.nil
    | false =>
      rw [places_of_not_isType (n := .mk k sp cs) ht, List.pairwise_append]
      refine ⟨pairwise_placesFrom holds 0 cs, by split <;> simp, ?_⟩
      -- Only the root comes after places below it, and no path below it is a prefix of its own.
      intro p hp q hq hprefix
      obtain ⟨j, c, r, -, rfl, -⟩ := mem_placesFrom.mp hp
      split at hq
      next =>
        rw [List.mem_singleton.mp hq] at hprefix
        exact absurd (List.prefix_nil.mp hprefix) (by simp)
      next => exact absurd hq List.not_mem_nil
/-- The same for the places in a list of trees. -/
theorem pairwise_placesFrom (holds : Node → Bool) :
    ∀ (i : Nat) (cs : List Node), (placesFrom holds i cs).Pairwise fun p q => ¬p <+: q
  | _, [] => List.Pairwise.nil
  | i, c :: cs => by
    rw [placesFrom, List.pairwise_append]
    refine ⟨?_, pairwise_placesFrom holds (i + 1) cs, ?_⟩
    · rw [List.pairwise_map]
      refine (pairwise_places holds c).imp fun {p q} hpq hprefix => hpq ?_
      exact (List.cons_prefix_cons.mp hprefix).2
    · -- A path into this tree and one into a later tree part at their first step.
      intro p hp q hq hprefix
      obtain ⟨p, _, rfl⟩ := List.mem_map.mp hp
      obtain ⟨j, d, q, -, rfl, -⟩ := mem_placesFrom.mp hq
      have := (List.cons_prefix_cons.mp hprefix).1
      omega
end

/-! ## Replacing nodes -/

mutual
/-- A tree with other nodes at some places. What stood inside a node that is replaced goes with
it. -/
def substitute : (List Nat → Option Node) → Node → Node
  | f, .mk k sp cs =>
    match f [] with
    | some new => new
    | none => .mk k sp (substituteFrom f 0 cs)
/-- The same for a list of trees, the first of which is the part with a given number. -/
def substituteFrom : (List Nat → Option Node) → Nat → List Node → List Node
  | _, _, [] => []
  | f, i, c :: cs => substitute (fun p => f (i :: p)) c :: substituteFrom f (i + 1) cs
end

/-- A tree with other nodes at some places below its root. -/
def substituteBelow (f : List Nat → Option Node) (n : Node) : Node :=
  .mk n.kind n.span (substituteFrom f 0 n.children)

theorem substitute_of_some {f : List Nat → Option Node} {new : Node} (h : f [] = some new)
    (n : Node) : n.substitute f = new := by
  cases n with
  | mk k sp cs => rw [substitute, h]

theorem substitute_of_none {f : List Nat → Option Node} (h : f [] = none) (n : Node) :
    n.substitute f = n.substituteBelow f := by
  cases n with
  | mk k sp cs =>
    rw [substitute, h]
    rfl

mutual
/-- Without anything to replace a tree stays as it is. -/
theorem substitute_eq_self : ∀ (f : List Nat → Option Node) (n : Node), (∀ p, f p = none) →
    n.substitute f = n
  | f, .mk k sp cs, h => by
    rw [substitute_of_none (h []), substituteBelow, children_mk, substituteFrom_eq_self f 0 cs h]
    rfl
/-- The same for a list of trees. -/
theorem substituteFrom_eq_self : ∀ (f : List Nat → Option Node) (i : Nat) (cs : List Node),
    (∀ p, f p = none) → substituteFrom f i cs = cs
  | _, _, [], _ => rfl
  | f, i, c :: cs, h => by
    rw [substituteFrom, substitute_eq_self _ c fun p => h (i :: p),
      substituteFrom_eq_self f (i + 1) cs h]
end

end ServerBoundary.Syntax.Node
