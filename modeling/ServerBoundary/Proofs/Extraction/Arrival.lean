import ServerBoundary.Proofs.Extraction.Replacement
import ServerBoundary.Proofs.Syntax.Path

/-!
# Where the extraction stands when it comes to a node

`arrival` is the state in which the extraction of a tree comes to the node at a path. Three laws say
all that later proofs need of it:

> `arrival_scopes`: the stack holds the names of the functions above the node, innermost first.

> `found_prefix_arrival`: what has been found after the node stays found, in the same places.

> `at?_rewriteParts_of_arrival`: what the node becomes is found again under the next closure above
> it, or under the root if there is none, at the end of the same path.

Each is an induction on the path, with one step of the traversal for each child number. Conversely
`exists_arrival_of_found` says that every closure was found at some path.
-/

namespace ServerBoundary.Boundary

open Syntax

/-- The node at a path, and the state in which the extraction comes to it. Types are not entered. -/
def arrival : Node → Extraction → List Nat → Option (Node × Extraction)
  | n, st, [] => some (n, st)
  | n, st, i :: p =>
    match n.children[i]? with
    | some c =>
      if n.kind.isType then none
      else arrival c (extractAll (n.children.take i) (st.enter n.localNames?)).2 p
    | none => none

@[simp] theorem arrival_nil (n : Node) (st : Extraction) : arrival n st [] = some (n, st) := rfl

theorem arrival_cons {n c : Node} {i : Nat} (hc : n.children[i]? = some c)
    (ht : n.kind.isType = false) (st : Extraction) (p : List Nat) :
    arrival n st (i :: p) =
      arrival c (extractAll (n.children.take i) (st.enter n.localNames?)).2 p := by
  rw [arrival, hc, ht]
  rfl

/-- The first step of an extraction that comes to a place below the root. -/
theorem exists_step_of_arrival {n m : Node} {st st' : Extraction} {i : Nat} {p : List Nat}
    (h : arrival n st (i :: p) = some (m, st')) :
    ∃ c, n.children[i]? = some c ∧ n.kind.isType = false ∧
      arrival c (extractAll (n.children.take i) (st.enter n.localNames?)).2 p = some (m, st') := by
  rw [arrival] at h
  cases hc : n.children[i]? with
  | none =>
    rw [hc] at h
    exact absurd h (by simp)
  | some c =>
    rw [hc] at h
    cases ht : n.kind.isType with
    | true =>
      rw [ht] at h
      exact absurd h (by simp)
    | false =>
      rw [ht] at h
      exact ⟨c, rfl, rfl, h⟩

/-- The extraction comes to every node that is not below a type. -/
theorem exists_arrival {p : List Nat} : ∀ {n m : Node} (st : Extraction), n.at? p = some m →
    (∀ a ∈ n.above p, a.kind.isType = false) → ∃ st', arrival n st p = some (m, st') := by
  induction p with
  | nil =>
    intro n m st h _
    rw [Node.at?_nil, Option.some.injEq] at h
    exact ⟨st, by rw [arrival_nil, h]⟩
  | cons i p ih =>
    intro n m st h ha
    obtain ⟨c, hc, hm⟩ := Node.exists_child_of_at? h
    rw [Node.above_cons hc] at ha
    have hn : n.kind.isType = false := ha n (List.mem_append_right _ (List.mem_singleton_self n))
    rw [arrival_cons hc hn]
    exact ih _ hm fun a hmem => ha a (List.mem_append_left _ hmem)

/-- An extraction that comes to a place goes on from there as if it had started there. -/
theorem arrival_append {q : List Nat} (r : List Nat) :
    ∀ {n m : Node} {st st' : Extraction}, arrival n st q = some (m, st') →
      arrival n st (q ++ r) = arrival m st' r := by
  induction q with
  | nil =>
    intro n m st st' h
    rw [arrival_nil, Option.some.injEq, Prod.mk.injEq] at h
    rw [List.nil_append, h.1, h.2]
  | cons i q ih =>
    intro n m st st' h
    obtain ⟨c, hc, ht, hstep⟩ := exists_step_of_arrival h
    rw [List.cons_append, arrival_cons hc ht]
    exact ih hstep

/-- The stack holds the names of the functions above a node, innermost first. -/
theorem arrival_scopes {p : List Nat} :
    ∀ {n m : Node} {st st' : Extraction}, arrival n st p = some (m, st') →
      st'.scopes = (n.above p).filterMap Node.localNames? ++ st.scopes := by
  induction p with
  | nil =>
    intro n m st st' h
    rw [arrival_nil, Option.some.injEq, Prod.mk.injEq] at h
    rw [← h.2]
    rfl
  | cons i p ih =>
    intro n m st st' h
    obtain ⟨c, hc, _, hstep⟩ := exists_step_of_arrival h
    -- The parts before `c` leave the stack as it was, so it starts with the names of `n`.
    rw [ih hstep, extractAll_scopes, Extraction.enter_scopes, Node.above_cons hc,
      List.filterMap_append, List.append_assoc]
    cases hnames : n.localNames? with
    | none => rw [List.filterMap_cons_none hnames]; rfl
    | some names => rw [List.filterMap_cons_some hnames]; rfl

/-- The names in scope at a place are those of the function around it. -/
theorem arrival_scope {n m : Node} {st : Extraction} {p : List Nat}
    (h : arrival n {} p = some (m, st)) : st.scope = n.enclosingNames p := by
  rw [Extraction.scope, arrival_scopes h, List.append_nil, Node.headD_filterMap_localNames?]
  rfl

/-- What was found before and inside a node stays found, in the same places. -/
theorem found_prefix_arrival {p : List Nat} :
    ∀ {n m : Node} {st st' : Extraction}, arrival n st p = some (m, st') →
      (extract m st').2.found <+: (extract n st).2.found := by
  induction p with
  | nil =>
    intro n m st st' h
    rw [arrival_nil, Option.some.injEq, Prod.mk.injEq] at h
    obtain ⟨rfl, rfl⟩ := h
    exact List.prefix_refl _
  | cons i p ih =>
    intro n m st st' h
    obtain ⟨c, hc, ht, hstep⟩ := exists_step_of_arrival h
    -- What `c` leaves behind, then what the parts after it add, then what `n` itself adds.
    refine (ih hstep).trans ?_
    refine (found_prefix_extractAll_of_getElem? hc _).trans ?_
    rw [extract_of_not_isType ht]
    refine List.IsPrefix.trans ?_ (found_prefix_extractSite _ _)
    exact ⟨[], by rw [rewriteParts, Extraction.leave_found, List.append_nil]⟩

/-- **Where a replacement is found.** As long as no node between the two is itself a closure, what
the node at the end of a path becomes stands at the end of the same path below the node at its
start, once the parts of that node are rewritten. -/
theorem at?_rewriteParts_of_arrival {r : List Nat} :
    ∀ {n m : Node} {st st' : Extraction}, r ≠ [] → arrival n st r = some (m, st') →
      (∀ b ∈ (n.above r).dropLast, serverSite? b = none) →
      (rewriteParts n st).1.at? r = some (extract m st').1 := by
  induction r with
  | nil =>
    intro n m st st' hr
    exact absurd rfl hr
  | cons i r ih =>
    intro n m st st' _ h hb
    obtain ⟨c, hc, _, hstep⟩ := exists_step_of_arrival h
    have hchild : (rewriteParts n st).1.children[i]? =
        some (extract c (extractAll (n.children.take i) (st.enter n.localNames?)).2).1 :=
      getElem?_extractAll hc _
    rw [Node.at?_cons hchild]
    rw [Node.above_cons hc, List.dropLast_concat] at hb
    cases r with
    | nil =>
      rw [arrival_nil, Option.some.injEq, Prod.mk.injEq] at hstep
      rw [hstep.1, hstep.2, Node.at?_nil]
    | cons j r =>
      -- The path goes on below `c`, which is therefore no closure and keeps its parts.
      obtain ⟨d, hd, ht, _⟩ := exists_step_of_arrival hstep
      have habove := Node.above_cons hd r
      have hsite : serverSite? c = none := by
        apply hb
        rw [habove]
        exact List.mem_append_right _ (List.mem_singleton_self c)
      rw [extract_of_not_isType ht, extractSite_of_none (by rw [serverSite?_rewriteParts, hsite])]
      refine ih (by simp) hstep fun b hmem => hb b ?_
      exact (List.dropLast_sublist _).subset hmem

/-! ## Every closure was found somewhere -/

theorem found_extractSite_of_some {n : Node} {site : Site} (h : serverSite? n = some site)
    (st : Extraction) :
    (extractSite n st).2.found = st.found ++ [site.moved st.nextName
      (prependParams (st.captured (site.closure n)) (stripFunction (site.closure n)))] := by
  rw [extractSite_of_some h]
  rfl

mutual
/-- Each closure that a tree adds was found at a path of the tree, where it was the next one. -/
theorem exists_arrival_of_found :
    ∀ (n : Node) (st : Extraction) (k : Nat), st.found.length ≤ k →
      k < (extract n st).2.found.length →
      ∃ p m st' site, arrival n st p = some (m, st') ∧ serverSite? m = some site ∧
        (rewriteParts m st').2.found.length = k
  | .mk kind sp cs, st, k, hge, hlt => by
    cases ht : kind.isType with
    | true =>
      rw [extract_of_isType (n := .mk kind sp cs) ht] at hlt
      exact absurd hlt (Nat.not_lt.mpr hge)
    | false =>
      rw [extract_of_not_isType (n := .mk kind sp cs) ht] at hlt
      by_cases hin : k < (rewriteParts (.mk kind sp cs) st).2.found.length
      · -- Found among the parts.
        rw [rewriteParts, Extraction.leave_found] at hin
        obtain ⟨i, c, hc, p, m, st', site, ha, hm⟩ :=
          exists_arrival_of_found_among cs (st.enter (Node.mk kind sp cs).localNames?) k
            (by rw [Extraction.enter_found]; exact hge) hin
        refine ⟨i :: p, m, st', site, ?_, hm⟩
        rw [arrival_cons (n := .mk kind sp cs) hc ht]
        exact ha
      · -- The node itself.
        cases hs : serverSite? (rewriteParts (.mk kind sp cs) st).1 with
        | none =>
          rw [extractSite_of_none hs] at hlt
          exact absurd hlt hin
        | some site =>
          rw [found_extractSite_of_some hs, List.length_append, List.length_singleton] at hlt
          rw [serverSite?_rewriteParts] at hs
          exact ⟨[], _, st, site, rfl, hs, by omega⟩
/-- Each closure that a list of trees adds was found at a path of one of them. -/
theorem exists_arrival_of_found_among :
    ∀ (ns : List Node) (st : Extraction) (k : Nat), st.found.length ≤ k →
      k < (extractAll ns st).2.found.length →
      ∃ (i : Nat) (c : Node), ns[i]? = some c ∧ ∃ p m st' site,
        arrival c (extractAll (ns.take i) st).2 p = some (m, st') ∧
        serverSite? m = some site ∧ (rewriteParts m st').2.found.length = k
  | [], _, _, hge, hlt => absurd hlt (Nat.not_lt.mpr hge)
  | n :: ns, st, k, hge, hlt => by
    rw [extractAll_cons] at hlt
    by_cases hfirst : k < (extract n st).2.found.length
    · exact ⟨0, n, rfl, exists_arrival_of_found n st k hge hfirst⟩
    · obtain ⟨i, c, hc, p, m, st', site, ha, hm⟩ :=
        exists_arrival_of_found_among ns (extract n st).2 k (Nat.not_lt.mp hfirst) hlt
      refine ⟨i + 1, c, hc, p, m, st', site, ?_, hm⟩
      rw [List.take_succ_cons, extractAll_cons]
      exact ha
end

end ServerBoundary.Boundary
