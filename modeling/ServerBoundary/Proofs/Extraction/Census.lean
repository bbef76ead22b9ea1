import ServerBoundary.Proofs.Extraction.Capture
import ServerBoundary.Proofs.Syntax.Every
import ServerBoundary.Proofs.Syntax.Places

/-!
# Counting the closures of a tree

The server closures of a tree can be counted before anything is extracted: `closurePlaces` lists
where they stand, those inside a closure before it. The extraction finds exactly these, in this
order, and changes nothing else:

> `exists_arrival_of_getElem?_closurePlaces`: the closure at the `k`-th place is the `k`-th that is
> found.

> `extract_eq_substitute`: the tree that is left is the tree that there was, with calls in the
> places of its closures.
-/

namespace ServerBoundary.Boundary

open Syntax

/-- Whether a node is a closure that runs on the server by its own directive. -/
def isServerClosure (n : Node) : Bool := (serverSite? n).isSome

/-- The places of the server closures of a tree, those inside a closure before its own. -/
def closurePlaces (n : Node) : List (List Nat) := n.places isServerClosure

/-- The places of the server closures of a list of trees, the first of which is the part with a
given number. -/
def closurePlacesFrom (i : Nat) (ns : List Node) : List (List Nat) :=
  Node.placesFrom isServerClosure i ns

theorem closurePlacesFrom_cons (i : Nat) (n : Node) (ns : List Node) :
    closurePlacesFrom i (n :: ns) =
      (closurePlaces n).map (i :: ·) ++ closurePlacesFrom (i + 1) ns := by
  rw [closurePlacesFrom, Node.placesFrom]
  rfl

theorem closurePlaces_of_not_isType {n : Node} (h : n.kind.isType = false) :
    closurePlaces n =
      closurePlacesFrom 0 n.children ++ if isServerClosure n then [[]] else [] :=
  Node.places_of_not_isType h

/-! ## Numbers -/

theorem length_found_extractSite (n : Node) (st : Extraction) :
    (extractSite n st).2.found.length =
      st.found.length + if isServerClosure n then 1 else 0 := by
  rw [extractSite, isServerClosure]
  cases serverSite? n with
  | none => rfl
  | some site =>
    show (st.found ++ [_]).length = _
    rw [List.length_append]
    rfl

mutual
/-- A tree adds as many closures as it has places of closures. -/
theorem length_found_extract : ∀ (n : Node) (st : Extraction),
    (extract n st).2.found.length = st.found.length + (closurePlaces n).length
  | .mk k sp cs, st => by
    cases hk : k.isType with
    | true =>
      rw [extract_of_isType (n := .mk k sp cs) hk, closurePlaces,
        Node.places_of_isType (n := .mk k sp cs) hk]
      rfl
    | false =>
      have hparts := length_found_extractAll 0 cs (st.enter (Node.mk k sp cs).localNames?)
      rw [Extraction.enter_found] at hparts
      have hsame : isServerClosure (rewriteParts (.mk k sp cs) st).1 =
          isServerClosure (.mk k sp cs) := by
        rw [isServerClosure, serverSite?_rewriteParts, isServerClosure]
      rw [extract_of_not_isType (n := .mk k sp cs) hk, length_found_extractSite, hsame,
        closurePlaces_of_not_isType (n := .mk k sp cs) hk, List.length_append, ← Nat.add_assoc,
        rewriteParts, Extraction.leave_found, Node.children_mk, hparts]
      split <;> rfl
/-- The same for a list of trees. -/
theorem length_found_extractAll : ∀ (i : Nat) (ns : List Node) (st : Extraction),
    (extractAll ns st).2.found.length = st.found.length + (closurePlacesFrom i ns).length
  | _, [], _ => rfl
  | i, n :: ns, st => by
    rw [extractAll_cons, length_found_extractAll (i + 1) ns, length_found_extract n,
      closurePlacesFrom_cons, List.length_append, List.length_map, Nat.add_assoc]
end

/-- Before a node is looked at, the closures below it have been added. -/
theorem length_found_rewriteParts (n : Node) (st : Extraction) :
    (rewriteParts n st).2.found.length =
      st.found.length + (closurePlacesFrom 0 n.children).length := by
  rw [rewriteParts, Extraction.leave_found, length_found_extractAll 0, Extraction.enter_found]

mutual
/-- **Places are numbers.** The extraction comes to the closure at the `k`-th place, and has found
`k` others by then. -/
theorem exists_arrival_of_getElem?_closurePlaces :
    ∀ (n : Node) (st : Extraction) (k : Nat) (p : List Nat), (closurePlaces n)[k]? = some p →
      ∃ c st' site, arrival n st p = some (c, st') ∧ serverSite? c = some site ∧
        (rewriteParts c st').2.found.length = st.found.length + k
  | .mk kind sp cs, st, k, p, h => by
    cases hk : kind.isType with
    | true =>
      rw [closurePlaces, Node.places_of_isType (n := .mk kind sp cs) hk] at h
      exact absurd h (by simp)
    | false =>
      rw [closurePlaces_of_not_isType (n := .mk kind sp cs) hk, Node.children_mk] at h
      rcases Nat.lt_or_ge k (closurePlacesFrom 0 cs).length with hlt | hge
      · -- A place below the root.
        rw [List.getElem?_append_left hlt] at h
        obtain ⟨j, d, q, rfl, hd, c, st', site, ha, hs, hfound⟩ :=
          exists_arrival_of_getElem?_closurePlacesFrom 0 cs
            (st.enter (Node.mk kind sp cs).localNames?) k p h
        refine ⟨c, st', site, ?_, hs, by rw [hfound, Extraction.enter_found]⟩
        rw [Nat.zero_add, arrival_cons (n := .mk kind sp cs) hd hk]
        exact ha
      · -- The root itself, after all places below it.
        rw [List.getElem?_append_right hge] at h
        cases hs : serverSite? (.mk kind sp cs) with
        | none =>
          rw [isServerClosure, hs] at h
          exact absurd h (by simp)
        | some site =>
          rw [isServerClosure, hs, Option.isSome_some, if_pos rfl, List.getElem?_singleton] at h
          split at h
          next hzero =>
            cases h
            refine ⟨_, st, site, rfl, hs, ?_⟩
            rw [length_found_rewriteParts, Node.children_mk]
            omega
          next => exact absurd h (by simp)
/-- The same for a list of trees. -/
theorem exists_arrival_of_getElem?_closurePlacesFrom :
    ∀ (i : Nat) (ns : List Node) (st : Extraction) (k : Nat) (p : List Nat),
      (closurePlacesFrom i ns)[k]? = some p →
      ∃ j d q, p = (i + j) :: q ∧ ns[j]? = some d ∧ ∃ c st' site,
        arrival d (extractAll (ns.take j) st).2 q = some (c, st') ∧ serverSite? c = some site ∧
        (rewriteParts c st').2.found.length = st.found.length + k
  | _, [], _, _, _, h => absurd h (by simp [closurePlacesFrom, Node.placesFrom])
  | i, n :: ns, st, k, p, h => by
    rw [closurePlacesFrom_cons] at h
    rcases Nat.lt_or_ge k (closurePlaces n).length with hlt | hge
    · rw [List.getElem?_append_left (by rw [List.length_map]; exact hlt), List.getElem?_map,
        Option.map_eq_some_iff] at h
      obtain ⟨q, hq, rfl⟩ := h
      exact ⟨0, n, q, rfl, rfl, exists_arrival_of_getElem?_closurePlaces n st k q hq⟩
    · rw [List.getElem?_append_right (by rw [List.length_map]; exact hge), List.length_map] at h
      obtain ⟨j, d, q, rfl, hd, c, st', site, ha, hs, hfound⟩ :=
        exists_arrival_of_getElem?_closurePlacesFrom (i + 1) ns (extract n st).2 _ p h
      refine ⟨j + 1, d, q, by rw [Nat.add_assoc, Nat.add_comm 1], hd, c, st', site, ?_, hs, ?_⟩
      · rw [List.take_succ_cons, extractAll_cons]
        exact ha
      · rw [hfound, length_found_extract]
        omega
end

/-! ## Replacements -/

theorem at?_of_arrival {p : List Nat} : ∀ {n c : Node} {st st' : Extraction},
    arrival n st p = some (c, st') → n.at? p = some c := by
  induction p with
  | nil =>
    intro n c st st' h
    rw [arrival_nil, Option.some.injEq, Prod.mk.injEq] at h
    rw [Node.at?_nil, h.1]
  | cons i p ih =>
    intro n c st st' h
    obtain ⟨d, hd, _, hstep⟩ := exists_step_of_arrival h
    rw [Node.at?_cons hd]
    exact ih hstep

/-- What takes the place of the closure at a path. -/
def replacement (n : Node) (st : Extraction) (p : List Nat) : Option Node :=
  match arrival n st p with
  | some (c, st') => if isServerClosure c then some (extract c st').1 else none
  | none => none

theorem replacement_of_arrival {n c : Node} {st st' : Extraction} {p : List Nat}
    (h : arrival n st p = some (c, st')) (hc : isServerClosure c = true) :
    replacement n st p = some (extract c st').1 := by
  rw [replacement, h]
  exact if_pos hc

/-- Below a place the replacements are those of the node that stands there. -/
theorem replacement_append {n c : Node} {st st' : Extraction} {p : List Nat}
    (h : arrival n st p = some (c, st')) (q : List Nat) :
    replacement n st (p ++ q) = replacement c st' q := by
  rw [replacement, arrival_append q h]
  rfl

theorem mem_closurePlaces_of_arrival {p : List Nat} : ∀ {n c : Node} {st st' : Extraction},
    arrival n st p = some (c, st') → isServerClosure c = true → p ∈ closurePlaces n := by
  induction p with
  | nil =>
    intro n c st st' h hc
    rw [arrival_nil, Option.some.injEq, Prod.mk.injEq] at h
    obtain ⟨rfl, rfl⟩ := h
    obtain ⟨site, hs⟩ := Option.isSome_iff_exists.mp hc
    rw [closurePlaces_of_not_isType (isType_of_serverSite? hs), hc]
    exact List.mem_append_right _ (List.mem_singleton_self _)
  | cons i p ih =>
    intro n c st st' h hc
    obtain ⟨d, hd, ht, hstep⟩ := exists_step_of_arrival h
    rw [closurePlaces_of_not_isType ht]
    exact List.mem_append_left _
      (Node.mem_placesFrom.mpr ⟨i, d, p, hd, by rw [Nat.zero_add], ih hstep hc⟩)

/-- Nothing else is replaced. -/
theorem replacement_eq_none {n : Node} {p : List Nat} (h : p ∉ closurePlaces n)
    (st : Extraction) : replacement n st p = none := by
  rw [replacement]
  split
  next c st' ha =>
    split
    next hc => exact absurd (mem_closurePlaces_of_arrival ha hc) h
    next => rfl
  next => rfl

/-- In a type nothing is replaced. -/
theorem replacement_of_isType {n : Node} (h : n.kind.isType = true) (st : Extraction)
    (p : List Nat) : replacement n st p = none := by
  refine replacement_eq_none ?_ st
  rw [closurePlaces, Node.places_of_isType h]
  exact List.not_mem_nil

theorem replacement_cons {n c : Node} {i : Nat} (hc : n.children[i]? = some c)
    (ht : n.kind.isType = false) (st : Extraction) (p : List Nat) :
    replacement n st (i :: p) =
      replacement c (extractAll (n.children.take i) (st.enter n.localNames?)).2 p := by
  rw [replacement, arrival_cons hc ht]
  rfl

mutual
/-- **Nothing else changes.** The tree that is left is the tree that there was, with what takes the
places of its closures. -/
theorem extract_eq_substitute : ∀ (n : Node) (st : Extraction),
    (extract n st).1 = n.substitute (replacement n st)
  | .mk k sp cs, st => by
    cases hk : k.isType with
    | true =>
      rw [extract_of_isType (n := .mk k sp cs) hk]
      exact (Node.substitute_eq_self _ _ (replacement_of_isType (n := .mk k sp cs) hk st)).symm
    | false =>
      cases hs : isServerClosure (.mk k sp cs) with
      | true => rw [Node.substitute_of_some (replacement_of_arrival (arrival_nil _ _) hs)]
      | false =>
        have hsite : serverSite? (.mk k sp cs) = none := Option.not_isSome_iff_eq_none.mp (by
          rw [isServerClosure] at hs
          rw [hs]
          exact Bool.false_ne_true)
        have hroot : replacement (.mk k sp cs) st [] = none := by
          rw [replacement, arrival_nil]
          exact if_neg (by rw [hs]; simp)
        rw [extract_of_not_isType (n := .mk k sp cs) hk,
          extractSite_of_none (by rw [serverSite?_rewriteParts, hsite]),
          Node.substitute_of_none hroot, rewriteParts, Node.substituteBelow, Node.children_mk,
          extractAll_eq_substituteFrom 0 cs _ (replacement (.mk k sp cs) st)]
        intro j c hc p
        rw [Nat.zero_add, replacement_cons (n := .mk k sp cs) hc hk]
        rfl
/-- The same for a list of trees. -/
theorem extractAll_eq_substituteFrom : ∀ (i : Nat) (ns : List Node) (st : Extraction)
    (f : List Nat → Option Node),
    (∀ j n, ns[j]? = some n → ∀ p,
      f ((i + j) :: p) = replacement n (extractAll (ns.take j) st).2 p) →
    (extractAll ns st).1 = Node.substituteFrom f i ns
  | _, [], _, _, _ => rfl
  | i, n :: ns, st, f, h => by
    have hhead : (fun p => f (i :: p)) = replacement n st := funext fun p => h 0 n rfl p
    rw [extractAll_cons, Node.substituteFrom, hhead, extract_eq_substitute n st,
      extractAll_eq_substituteFrom (i + 1) ns (extract n st).2 f]
    intro j d hd p
    have hshift := h (j + 1) d hd p
    rw [List.take_succ_cons, extractAll_cons] at hshift
    rw [Nat.add_assoc, Nat.add_comm 1]
    exact hshift
end

/-- Below its root a node is changed in the places of the closures there. -/
theorem rewriteParts_eq_substituteBelow {n : Node} (h : n.kind.isType = false) (st : Extraction) :
    (rewriteParts n st).1 = n.substituteBelow (replacement n st) := by
  rw [rewriteParts, Node.substituteBelow,
    extractAll_eq_substituteFrom 0 n.children _ (replacement n st)]
  intro j c hc p
  rw [Nat.zero_add, replacement_cons hc h]

/-! ## Conditions on every node -/

/-- The extraction keeps a condition on every node, perhaps as a weaker one: rewriting the parts of
a node keeps it, and the calls that take the places of closures have it. -/
structure ExtractionKeeps (ok ok' : Node → Bool) : Prop where
  mono : ∀ n, ok n = true → ok' n = true
  parts : ∀ n st, ok n = true → ok' (rewriteParts n st).1 = true
  fill : ∀ n site target bound, serverSite? n = some site → n.every ok = true →
    (site.fill (Build.bindNull target bound)).every ok' = true

mutual
/-- Every node of the tree that is left satisfies what every node of the tree did. -/
theorem every_extract {ok ok' : Node → Bool} (hkeeps : ExtractionKeeps ok ok') :
    ∀ (n : Node) (st : Extraction), n.every ok = true → (extract n st).1.every ok' = true
  | .mk k sp cs, st, h => by
    cases hk : k.isType with
    | true =>
      rw [extract_of_isType (n := .mk k sp cs) hk]
      exact Node.every_mono hkeeps.mono _ h
    | false =>
      rw [extract_of_not_isType (n := .mk k sp cs) hk]
      cases hs : serverSite? (rewriteParts (.mk k sp cs) st).1 with
      | none =>
        rw [extractSite_of_none hs]
        exact Node.every_iff.mpr ⟨hkeeps.parts _ st (Node.every_iff.mp h).1,
          every_extractAll hkeeps cs _ (Node.every_iff.mp h).2⟩
      | some site =>
        rw [extractSite_of_some hs]
        rw [serverSite?_rewriteParts] at hs
        exact hkeeps.fill _ site _ _ hs h
/-- The same for a list of trees. -/
theorem every_extractAll {ok ok' : Node → Bool} (hkeeps : ExtractionKeeps ok ok') :
    ∀ (ns : List Node) (st : Extraction), (∀ n ∈ ns, n.every ok = true) →
      ∀ m ∈ (extractAll ns st).1, m.every ok' = true
  | [], _, _ => fun _ hm => absurd hm List.not_mem_nil
  | n :: ns, st, h => by
    rw [List.forall_mem_cons] at h
    rw [extractAll_cons, List.forall_mem_cons]
    exact ⟨every_extract hkeeps n st h.1, every_extractAll hkeeps ns _ h.2⟩
end

end ServerBoundary.Boundary
