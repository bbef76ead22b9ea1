import ServerBoundary.Proofs.Extraction.Capture
import ServerBoundary.Proofs.Extraction.GeneratedNames

/-!
# Names that are read where a statement stands

A function is not run where it stands, so a name inside it is read later, if at all. `outerNames`
are the names of a tree outside its functions. Moving closures out changes them in one way: the
`bind` call in place of a closure reads what the closure is given.

> `mem_outerNames_extract`: outside its functions a rewritten tree has the names that it had, those
> that are given to the closures that stood there, and names that are generated.
-/

namespace ServerBoundary.Boundary

open Syntax

/-! ## Outside functions -/

/-- Whether the part of a node with a number belongs to what is evaluated where the node stands, by
the kind of the node. Of functions these are the name of a declaration, the key of an accessor and
the decorators. Types, labels, and parts of what has no parts do not count. -/
def isOuterPart : Kind → Nat → Bool
  | .type _, _ => false
  | .ident _, _ => false
  | .literal _, _ => false
  | .expr .function, _ => false
  | .expr (.arrow _), _ => false
  | .stmt (.function _), i => i == 0
  | .module .exportDefaultFunction, _ => false
  | .member (.function _), i => i == 1
  | .member (.constructor_ _), i => i == 0
  | .property .getter, i => i == 0
  | .property .setter, i => i == 0
  | .stmt .labeled, i => i != 0
  | .stmt .break_, _ => false
  | .stmt .continue_, _ => false
  | _, _ => true

mutual
/-- The names in a tree outside its functions. -/
def outerNames : Node → List String
  | .mk k _ cs => k.identifier?.toList ++ outerNamesFrom k 0 cs
/-- The same for the parts of a node of a kind, from a number on. -/
def outerNamesFrom (k : Kind) (i : Nat) : List Node → List String
  | [] => []
  | c :: cs => (if isOuterPart k i then outerNames c else []) ++ outerNamesFrom k (i + 1) cs
end

/-- Whether a path stays outside the functions of a tree. -/
def isOuter : Node → List Nat → Bool
  | _, [] => true
  | n, i :: q =>
    match n.children[i]? with
    | some c => isOuterPart n.kind i && isOuter c q
    | none => false

/-- What is given to the closure at a path, if there is a closure. -/
def givenNames (n : Node) (st : Extraction) (q : List Nat) : List String :=
  match arrival n st q with
  | some (c, st') =>
    match serverSite? c with
    | some site => (rewriteParts c st').2.captured (site.closure (rewriteParts c st').1)
    | none => []
  | none => []

/-- A closure of a tree that stands outside its functions is given a name. -/
def GivenOutside (n : Node) (st : Extraction) (x : String) : Prop :=
  ∃ q, isOuter n q = true ∧ x ∈ givenNames n st q

variable {x : String}

theorem mem_outerNamesFrom {k : Kind} {cs : List Node} {i : Nat} :
    x ∈ outerNamesFrom k i cs ↔
      ∃ j c, cs[j]? = some c ∧ isOuterPart k (i + j) = true ∧ x ∈ outerNames c := by
  induction cs generalizing i with
  | nil => simp [outerNamesFrom]
  | cons c cs ih =>
    rw [outerNamesFrom, List.mem_append, ih]
    constructor
    · rintro (hhead | ⟨j, c', hc', houter, hx⟩)
      · split at hhead
        next houter => exact ⟨0, c, rfl, houter, hhead⟩
        next => exact absurd hhead List.not_mem_nil
      · exact ⟨j + 1, c', hc', by rwa [Nat.add_right_comm] at houter, hx⟩
    · rintro ⟨j, c', hc', houter, hx⟩
      cases j with
      | zero =>
        cases hc'
        rw [Nat.add_zero] at houter
        exact .inl (by rwa [if_pos houter])
      | succ j => exact .inr ⟨j, c', hc', by rwa [Nat.add_right_comm], hx⟩

theorem mem_outerNames {n : Node} :
    x ∈ outerNames n ↔ n.kind.identifier? = some x ∨
      ∃ i c, n.children[i]? = some c ∧ isOuterPart n.kind i = true ∧ x ∈ outerNames c := by
  obtain ⟨k, sp, cs⟩ := n
  rw [outerNames, List.mem_append, Option.mem_toList, mem_outerNamesFrom]
  simp only [Nat.zero_add, Node.kind_mk, Node.children_mk]

/-- A node of a kind without outer parts has its own name only. -/
theorem outerNames_of_no_parts {n : Node} {k : Kind} (hk : n.kind = k)
    (h : ∀ i, isOuterPart k i = false) : outerNames n = k.identifier?.toList := by
  obtain ⟨k', sp, cs⟩ := n
  obtain rfl : k' = k := hk
  have hnone : outerNamesFrom k' 0 cs = [] := by
    refine List.eq_nil_iff_forall_not_mem.mpr fun x hx => ?_
    obtain ⟨j, c, -, houter, -⟩ := mem_outerNamesFrom.mp hx
    exact absurd (houter.symm.trans (h (0 + j))) (by simp)
  rw [outerNames, hnone, List.append_nil]

/-! ## What is given -/

variable {n c : Node} {st : Extraction}

/-- Where there is no closure at the root, what is given is given in the parts. -/
theorem givenOutside_iff_parts (hs : serverSite? n = none) (ht : n.kind.isType = false) :
    GivenOutside n st x ↔ ∃ i c, n.children[i]? = some c ∧ isOuterPart n.kind i = true ∧
      GivenOutside c (extractAll (n.children.take i) (st.enter n.localNames?)).2 x := by
  constructor
  · rintro ⟨q, houter, hx⟩
    cases q with
    | nil =>
      rw [givenNames, arrival_nil] at hx
      dsimp only at hx
      rw [hs] at hx
      exact absurd hx List.not_mem_nil
    | cons i q =>
      cases hc : n.children[i]? with
      | none =>
        rw [isOuter, hc] at houter
        exact absurd houter Bool.false_ne_true
      | some c =>
        rw [isOuter, hc] at houter
        obtain ⟨hpart, hq⟩ := Bool.and_eq_true_iff.mp houter
        rw [givenNames, arrival_cons hc ht] at hx
        exact ⟨i, c, hc, hpart, q, hq, hx⟩
  · rintro ⟨i, c, hc, hpart, q, hq, hx⟩
    refine ⟨i :: q, ?_, ?_⟩
    · rw [isOuter, hc]
      exact Bool.and_eq_true_iff.mpr ⟨hpart, hq⟩
    · rw [givenNames, arrival_cons hc ht]
      exact hx

/-- No closure stands in a closure outside functions, so a closure is given what it is given. -/
theorem givenOutside_of_site {site : Site} (hs : serverSite? n = some site) :
    GivenOutside n st x ↔
      x ∈ (rewriteParts n st).2.captured (site.closure (rewriteParts n st).1) := by
  have hroot : givenNames n st [] =
      (rewriteParts n st).2.captured (site.closure (rewriteParts n st).1) := by
    rw [givenNames, arrival_nil]
    dsimp only
    rw [hs]
  refine ⟨?_, fun hx => ⟨[], rfl, hroot ▸ hx⟩⟩
  rintro ⟨q, houter, hx⟩
  cases q with
  | nil => rwa [hroot] at hx
  | cons i q =>
    cases hc : n.children[i]? with
    | none =>
      rw [isOuter, hc] at houter
      exact absurd houter Bool.false_ne_true
    | some c =>
      rw [isOuter, hc] at houter
      obtain ⟨hpart, hq⟩ := Bool.and_eq_true_iff.mp houter
      cases standsAt_of_serverSite? hs with
      | function hk _ =>
        rw [hk] at hpart
        exact absurd hpart Bool.false_ne_true
      | arrow hk _ =>
        rw [hk] at hpart
        exact absurd hpart Bool.false_ne_true
      | defaultExport hk _ =>
        rw [hk] at hpart
        exact absurd hpart Bool.false_ne_true
      | @declaration _ name hk hname _ =>
        -- Only the name of a declaration stands outside it, and a name has no parts.
        rw [hk] at hpart
        obtain rfl : i = 0 := beq_iff_eq.mp hpart
        have hident : c.kind = .ident name := by
          rw [Node.part, List.getD_eq_getElem?_getD, hc] at hname
          exact hname
        rw [givenNames, arrival_cons hc (isType_of_serverSite? hs)] at hx
        cases q with
        | nil =>
          rw [arrival_nil] at hx
          dsimp only at hx
          rw [serverSite?, hident] at hx
          exact absurd hx List.not_mem_nil
        | cons j q =>
          rw [isOuter] at hq
          split at hq
          next =>
            rw [hident] at hq
            exact absurd hq Bool.false_ne_true
          next => exact absurd hq Bool.false_ne_true

/-! ## What takes the place of a closure -/

theorem outerNamesFrom_map_ident (names : List String) (i : Nat) :
    outerNamesFrom .group i (names.map Build.ident) = names := by
  induction names generalizing i with
  | nil => rfl
  | cons name names ih =>
    rw [List.map_cons, outerNamesFrom, ih]
    rfl

/-- A `bind` call reads the function and what it is given. -/
theorem outerNames_bindNull (target : String) (bound : List String) :
    outerNames (Build.bindNull target bound) = target :: bound := by
  have hargs : outerNames (.group (Build.node (.literal .null) [] :: bound.map Build.ident)) =
      bound := by
    rw [outerNames, outerNamesFrom, outerNamesFrom_map_ident]
    rfl
  change target :: (outerNames (.group (Build.node (.literal .null) [] :: bound.map Build.ident)) ++
    ([] ++ [])) = target :: bound
  rw [hargs, List.append_nil, List.append_nil]

/-- A declaration of a function reads nothing but its own name. -/
theorem outerNames_of_declaration {isDeclare : Bool} {name : String}
    (hk : n.kind = .stmt (.function isDeclare)) (hname : (n.part 0).kind = .ident name) :
    x ∈ outerNames n ↔ x = name := by
  have hident : ∀ c : Node, c.kind = .ident name → (x ∈ outerNames c ↔ x = name) := by
    intro c hc
    rw [outerNames_of_no_parts hc fun _ => rfl]
    exact List.mem_singleton
  rw [mem_outerNames, hk]
  constructor
  · rintro (hself | ⟨i, c, hc, hpart, hx⟩)
    · cases hself
    · obtain rfl : i = 0 := beq_iff_eq.mp hpart
      rw [Node.part, List.getD_eq_getElem?_getD, hc] at hname
      exact (hident c hname).mp hx
  · intro hx
    cases hc : n.children[0]? with
    | none =>
      rw [Node.part, List.getD_eq_getElem?_getD, hc] at hname
      cases hname
    | some c =>
      rw [Node.part, List.getD_eq_getElem?_getD, hc] at hname
      exact .inr ⟨0, c, hc, rfl, (hident c hname).mpr hx⟩

/-- A name that is not generated is read in the place of a closure if it was there, which it was as
the name of a declaration, or if it is given to the closure. -/
theorem mem_outerNames_fill {site : Site} {target : String} {bound : List String}
    (hs : serverSite? n = some site) (htarget : x ≠ target) :
    x ∈ outerNames (site.fill (Build.bindNull target bound)) ↔ x ∈ outerNames n ∨ x ∈ bound := by
  have hcall : x ∈ outerNames (Build.bindNull target bound) ↔ x ∈ bound := by
    rw [outerNames_bindNull, List.mem_cons, or_iff_right htarget]
  cases standsAt_of_serverSite? hs with
  | function hk _ =>
    rw [outerNames_of_no_parts hk fun _ => rfl]
    exact hcall.trans (or_iff_right List.not_mem_nil).symm
  | arrow hk _ =>
    rw [outerNames_of_no_parts hk fun _ => rfl]
    exact hcall.trans (or_iff_right List.not_mem_nil).symm
  | defaultExport hk _ =>
    rw [outerNames_of_no_parts hk fun _ => rfl, ← hcall]
    change x ∈ outerNames (Build.bindNull target bound) ++ [] ↔ _
    rw [List.append_nil]
    exact (or_iff_right List.not_mem_nil).symm
  | @declaration _ name hk hname _ =>
    rw [outerNames_of_declaration hk hname, ← hcall]
    change x ∈ (name :: (outerNames (Build.bindNull target bound) ++ [])) ++ [] ↔ _
    rw [List.append_nil, List.append_nil, List.mem_cons]

/-! ## Through the extraction -/

/-- Every tree of a rewritten list was a tree of the list. -/
theorem exists_of_getElem?_extractAll {ns : List Node} {i : Nat} {n' : Node}
    (h : (extractAll ns st).1[i]? = some n') :
    ∃ n, ns[i]? = some n ∧ n' = (extract n (extractAll (ns.take i) st).2).1 := by
  have hi := (List.getElem?_eq_some_iff.mp h).1
  rw [length_extractAll] at hi
  have hn := List.getElem?_eq_getElem hi
  rw [getElem?_extractAll hn, Option.some.injEq] at h
  exact ⟨_, hn, h.symm⟩

/-- A node that is no closure reads itself what it read before its parts were rewritten. -/
theorem mem_outerNames_rewriteParts :
    x ∈ outerNames (rewriteParts n st).1 ↔ n.kind.identifier? = some x ∨
      ∃ i c, n.children[i]? = some c ∧ isOuterPart n.kind i = true ∧ x ∈ outerNames
        (extract c (extractAll (n.children.take i) (st.enter n.localNames?)).2).1 := by
  rw [mem_outerNames]
  refine or_congr_right ⟨?_, ?_⟩
  · rintro ⟨i, c', hc', hpart, hx⟩
    obtain ⟨c, hc, rfl⟩ := exists_of_getElem?_extractAll hc'
    exact ⟨i, c, hc, hpart, hx⟩
  · rintro ⟨i, c, hc, hpart, hx⟩
    exact ⟨i, _, getElem?_extractAll hc _, hpart, hx⟩

/-- **What a rewritten tree reads outside its functions**: of the names that are not generated,
those that it read there before, and those that are given to a closure that stands there. -/
theorem mem_outerNames_extract (hx : isReserved x = false) : ∀ (n : Node) (st : Extraction),
    x ∈ outerNames (extract n st).1 ↔ x ∈ outerNames n ∨ GivenOutside n st x := by
  refine Node.of_parts fun k sp cs ih st => ?_
  cases hk : k.isType with
  | true =>
    have hroot : serverSite? (.mk k sp cs) = none := by
      cases hs : serverSite? (.mk k sp cs) with
      | none => rfl
      | some site => exact absurd (hk.symm.trans (isType_of_serverSite? hs)) (by simp)
    rw [extract_of_isType (n := .mk k sp cs) hk]
    refine (or_iff_left ?_).symm
    rintro ⟨q, -, hgiven⟩
    cases q with
    | nil =>
      rw [givenNames, arrival_nil] at hgiven
      dsimp only at hgiven
      rw [hroot] at hgiven
      exact absurd hgiven List.not_mem_nil
    | cons i q =>
      have hnone : arrival (.mk k sp cs) st (i :: q) = none := by
        rw [arrival, Node.kind_mk, hk]
        split
        next => rfl
        next => rfl
      rw [givenNames, hnone] at hgiven
      exact absurd hgiven List.not_mem_nil
  | false =>
    cases hs : serverSite? (.mk k sp cs) with
    | some site =>
      rw [extract_closure hs, mem_outerNames_fill hs ?_, givenOutside_of_site hs]
      intro heq
      rw [heq] at hx
      exact absurd (hx.symm.trans (isReserved_extractedName _)) (by simp)
    | none =>
      have hnone : serverSite? (rewriteParts (.mk k sp cs) st).1 = none := by
        rw [serverSite?_rewriteParts, hs]
      rw [extract_of_not_isType (n := .mk k sp cs) hk, extractSite_of_none hnone,
        mem_outerNames_rewriteParts, mem_outerNames, givenOutside_iff_parts hs hk, or_assoc]
      refine or_congr_right ?_
      simp only [← exists_or]
      refine exists_congr fun i => exists_congr fun c => ?_
      rw [← and_or_left, ← and_or_left]
      refine and_congr_right fun hc => and_congr_right fun _ => ?_
      exact ih c (List.mem_of_getElem? hc) _

end ServerBoundary.Boundary
