import ServerBoundary.Boundary.Extraction

/-!
# The traversal of the extraction

`extract` rewrites the parts of a node, with the names of the node on the stack, and then looks at
the node itself. `rewriteParts` is the first half and `extractSite` the second, so every law below
is proved for the two halves and carried through a tree by recursion.

Main statements: `extract_scopes` (the stack of scopes is the same after every node as before it)
and `found_prefix_extract` (closures are only added, after those found before).
-/

namespace ServerBoundary.Boundary

open Syntax

/-! ## The two halves of a visit -/

/-- A node with its parts rewritten, before the node itself is looked at. -/
def rewriteParts (n : Node) (st : Extraction) : Node × Extraction :=
  let below := extractAll n.children (st.enter n.localNames?)
  (.mk n.kind n.span below.1, below.2.leave n.localNames?)

/-- A type is left as it is, and so is everything in it. -/
theorem extract_of_isType {n : Node} (h : n.kind.isType = true) (st : Extraction) :
    extract n st = (n, st) := by
  cases n with
  | mk k sp cs =>
    rw [extract]
    exact if_pos h

theorem extract_of_not_isType {n : Node} (h : n.kind.isType = false) (st : Extraction) :
    extract n st = extractSite (rewriteParts n st).1 (rewriteParts n st).2 := by
  cases n with
  | mk k sp cs =>
    rw [Node.kind_mk] at h
    rw [extract, h]
    rfl

theorem extractAll_cons (n : Node) (ns : List Node) (st : Extraction) :
    extractAll (n :: ns) st =
      ((extract n st).1 :: (extractAll ns (extract n st).2).1,
        (extractAll ns (extract n st).2).2) := by
  rw [extractAll]

theorem extractAll_append (ns ms : List Node) (st : Extraction) :
    extractAll (ns ++ ms) st =
      ((extractAll ns st).1 ++ (extractAll ms (extractAll ns st).2).1,
        (extractAll ms (extractAll ns st).2).2) := by
  induction ns generalizing st with
  | nil => rfl
  | cons n ns ih =>
    rw [List.cons_append, extractAll_cons, ih, extractAll_cons]
    rfl

/-- Every tree of a list stays in its place. -/
@[simp] theorem length_extractAll (ns : List Node) (st : Extraction) :
    (extractAll ns st).1.length = ns.length := by
  induction ns generalizing st with
  | nil => rfl
  | cons n ns ih =>
    rw [extractAll_cons, List.length_cons, List.length_cons, ih]

/-- A tree of a list is rewritten in the state that the trees before it leave behind. -/
theorem getElem?_extractAll {ns : List Node} {i : Nat} {n : Node} (h : ns[i]? = some n)
    (st : Extraction) :
    (extractAll ns st).1[i]? = some (extract n (extractAll (ns.take i) st).2).1 := by
  obtain ⟨hi, hn⟩ := List.getElem?_eq_some_iff.mp h
  -- The list is cut at the tree; what is rewritten before it has the length it had.
  have hsplit : extractAll ns st = extractAll (ns.take i ++ n :: ns.drop (i + 1)) st := by
    rw [← hn, List.getElem_cons_drop, List.take_append_drop]
  have hlen : (extractAll (ns.take i) st).1.length = i := by
    rw [length_extractAll, List.length_take]
    omega
  rw [hsplit, extractAll_append, extractAll_cons]
  dsimp only
  rw [List.getElem?_append_right (by omega), hlen, Nat.sub_self]
  rfl

/-! ## The stack of scopes -/

namespace Extraction

@[simp] theorem enter_found (names : Option (List String)) (st : Extraction) :
    (st.enter names).found = st.found := by
  cases names <;> rfl

@[simp] theorem leave_found (names : Option (List String)) (st : Extraction) :
    (st.leave names).found = st.found := by
  cases names <;> rfl

theorem enter_scopes (names : Option (List String)) (st : Extraction) :
    (st.enter names).scopes = names.toList ++ st.scopes := by
  cases names <;> rfl

/-- What `enter` put on the stack, `leave` takes off again. -/
theorem leave_scopes_of_enter {names : Option (List String)} {st st' : Extraction}
    (h : st'.scopes = (st.enter names).scopes) : (st'.leave names).scopes = st.scopes := by
  cases names with
  | none => exact h
  | some names =>
    show st'.scopes.tail = st.scopes
    rw [h]
    rfl

@[simp] theorem leave_enter (names : Option (List String)) (st : Extraction) :
    (st.enter names).leave names = st := by
  cases names <;> rfl

end Extraction

@[simp] theorem extractSite_scopes (n : Node) (st : Extraction) :
    (extractSite n st).2.scopes = st.scopes := by
  rw [extractSite]
  cases serverSite? n with
  | none => rfl
  | some site => rfl

mutual
/-- The stack of scopes is the same after a node as before it. -/
theorem extract_scopes : ∀ (n : Node) (st : Extraction), (extract n st).2.scopes = st.scopes
  | .mk k sp cs, st => by
    cases hk : k.isType with
    | true => rw [extract_of_isType (n := .mk k sp cs) hk]
    | false =>
      -- After the parts the names pushed for the node are on top again, and are taken off.
      rw [extract_of_not_isType (n := .mk k sp cs) hk, extractSite_scopes]
      exact Extraction.leave_scopes_of_enter (extractAll_scopes cs _)
/-- The stack of scopes is the same after a list of nodes as before it. -/
theorem extractAll_scopes :
    ∀ (ns : List Node) (st : Extraction), (extractAll ns st).2.scopes = st.scopes
  | [], _ => rfl
  | n :: ns, st => by
    rw [extractAll_cons]
    exact (extractAll_scopes ns _).trans (extract_scopes n st)
end

/-- The stack of scopes is the same after the parts of a node as before them. -/
theorem rewriteParts_scopes (n : Node) (st : Extraction) :
    (rewriteParts n st).2.scopes = st.scopes :=
  Extraction.leave_scopes_of_enter (extractAll_scopes n.children _)

/-! ## The closures moved out -/

theorem found_prefix_extractSite (n : Node) (st : Extraction) :
    st.found <+: (extractSite n st).2.found := by
  rw [extractSite]
  cases serverSite? n with
  | none => exact List.prefix_refl _
  | some site => exact List.prefix_append _ _

mutual
/-- A node only adds closures, after those found before it. -/
theorem found_prefix_extract :
    ∀ (n : Node) (st : Extraction), st.found <+: (extract n st).2.found
  | .mk k sp cs, st => by
    cases hk : k.isType with
    | true => exact ⟨[], by rw [extract_of_isType (n := .mk k sp cs) hk, List.append_nil]⟩
    | false =>
      rw [extract_of_not_isType (n := .mk k sp cs) hk]
      refine List.IsPrefix.trans ?_ (found_prefix_extractSite _ _)
      have hbelow := found_prefix_extractAll cs (st.enter (Node.mk k sp cs).localNames?)
      rw [Extraction.enter_found] at hbelow
      rw [rewriteParts, Extraction.leave_found]
      exact hbelow
/-- A list of nodes only adds closures, after those found before it. -/
theorem found_prefix_extractAll :
    ∀ (ns : List Node) (st : Extraction), st.found <+: (extractAll ns st).2.found
  | [], _ => List.prefix_refl _
  | n :: ns, st => by
    rw [extractAll_cons]
    exact (found_prefix_extract n st).trans (found_prefix_extractAll ns _)
end

/-- What the first trees of a list add stays at the front of what the whole list adds. -/
theorem found_prefix_extractAll_take (ns : List Node) (i : Nat) (st : Extraction) :
    (extractAll (ns.take i) st).2.found <+: (extractAll ns st).2.found := by
  have h : extractAll ns st = extractAll (ns.take i ++ ns.drop i) st := by
    rw [List.take_append_drop]
  rw [h, extractAll_append]
  exact found_prefix_extractAll _ _

/-- A tree of a list adds its closures where the trees before it stopped. -/
theorem found_prefix_extractAll_of_getElem? {ns : List Node} {i : Nat} {n : Node}
    (h : ns[i]? = some n) (st : Extraction) :
    (extract n (extractAll (ns.take i) st).2).2.found <+: (extractAll ns st).2.found := by
  have htake : ns.take (i + 1) = ns.take i ++ [n] := by
    rw [List.take_add_one, h]
    rfl
  have hpre := found_prefix_extractAll_take ns (i + 1) st
  rw [htake, extractAll_append] at hpre
  exact hpre

end ServerBoundary.Boundary
