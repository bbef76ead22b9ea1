import ServerBoundary.Proofs.Extraction.Replacement

/-!
# The registrations in a tree

`registrations` are the ids and names under which the calls of a tree register something, wherever
they stand in it. Extracting the closures of a tree neither makes nor changes such a call:

> `mem_registrations_extract`: a registration that is found in the tree afterwards, or in a closure
> that was moved out, was in the tree before.

> `Carries.of_part`: a registration that is in no closure stays in the tree.
-/

namespace ServerBoundary.Boundary

open Syntax

/-- The id and the name under which a call registers its first argument. -/
def registrationOf? (n : Node) : Option (String × String) :=
  match n.kind, (n.part 0).kind, (n.part 1).kind, ((n.part 1).part 1).kind,
    ((n.part 1).part 2).kind with
  | .expr (.call _), .ident callee, .group, .literal (.string id _), .literal (.string name _) =>
    if callee == registerServer then some (id, name) else none
  | _, _, _, _, _ => none

mutual
/-- The ids and names that the calls of a tree register. -/
def registrations : Node → List (String × String)
  | .mk k sp cs => (registrationOf? (.mk k sp cs)).toList ++ registrationsIn cs
/-- The same for a list of trees. -/
def registrationsIn : List Node → List (String × String)
  | [] => []
  | n :: ns => registrations n ++ registrationsIn ns
end

theorem mem_registrationsIn {r : String × String} {ns : List Node} :
    r ∈ registrationsIn ns ↔ ∃ n ∈ ns, r ∈ registrations n := by
  induction ns with
  | nil => simp [registrationsIn]
  | cons n ns ih => simp [registrationsIn, ih]

/-- A tree registers what it registers itself and what its parts register. -/
theorem mem_registrations {r : String × String} {n : Node} :
    r ∈ registrations n ↔ registrationOf? n = some r ∨ ∃ c ∈ n.children, r ∈ registrations c := by
  cases n with
  | mk k sp cs =>
    rw [registrations, List.mem_append, Option.mem_toList, mem_registrationsIn]
    rfl

theorem registrationOf?_eq_some_iff (n : Node) (id name : String) :
    registrationOf? n = some (id, name) ↔
      (∃ o, n.kind = .expr (.call o)) ∧ (n.part 0).kind = .ident registerServer ∧
        (n.part 1).kind = .group ∧ (∃ raw, ((n.part 1).part 1).kind = .literal (.string id raw)) ∧
        ∃ raw, ((n.part 1).part 2).kind = .literal (.string name raw) := by
  constructor
  · intro h
    unfold registrationOf? at h
    split at h
    next hcall hcallee hargs hid hname =>
      split at h
      next hregister =>
        rw [beq_iff_eq] at hregister
        cases h
        exact ⟨⟨_, hcall⟩, by rw [hcallee, hregister], hargs, ⟨_, hid⟩, ⟨_, hname⟩⟩
      next => exact absurd h (by simp)
    next => exact absurd h (by simp)
  · rintro ⟨⟨o, hcall⟩, hcallee, hargs, ⟨_, hid⟩, ⟨_, hname⟩⟩
    unfold registrationOf?
    rw [hcall, hcallee, hargs, hid, hname]
    exact if_pos (beq_self_eq_true registerServer)

/-- Only calls register something. -/
theorem registrationOf?_eq_none {n : Node} (h : ∀ o, n.kind ≠ .expr (.call o)) :
    registrationOf? n = none := by
  unfold registrationOf?
  split
  next hk _ _ _ _ => exact absurd hk (h _)
  next => rfl

/-- A node that is no call registers what its parts register. -/
theorem registrations_of_not_call {k : Kind} (h : ∀ o, k ≠ .expr (.call o)) (sp : Span)
    (cs : List Node) : registrations (.mk k sp cs) = registrationsIn cs := by
  rw [registrations, registrationOf?_eq_none (n := .mk k sp cs) h]
  rfl

@[simp] theorem registrations_stmt (k : StmtKind) (sp : Span) (cs : List Node) :
    registrations (.mk (.stmt k) sp cs) = registrationsIn cs :=
  registrations_of_not_call (by simp) sp cs

@[simp] theorem registrations_member (k : MemberKind) (sp : Span) (cs : List Node) :
    registrations (.mk (.member k) sp cs) = registrationsIn cs :=
  registrations_of_not_call (by simp) sp cs

@[simp] theorem registrations_module (k : ModuleKind) (sp : Span) (cs : List Node) :
    registrations (.mk (.module k) sp cs) = registrationsIn cs :=
  registrations_of_not_call (by simp) sp cs

@[simp] theorem registrations_group (sp : Span) (cs : List Node) :
    registrations (.mk .group sp cs) = registrationsIn cs :=
  registrations_of_not_call (by simp) sp cs

/-- A part of a node registers nothing that the node does not register. -/
theorem mem_registrations_of_part {r : String × String} {n : Node} {i : Nat}
    (h : r ∈ registrations (n.part i)) : r ∈ registrations n := by
  cases hc : n.children[i]? with
  | none =>
    rw [Node.part, List.getD_eq_getElem?_getD, hc] at h
    exact absurd h List.not_mem_nil
  | some c =>
    rw [Node.part, List.getD_eq_getElem?_getD, hc] at h
    exact mem_registrations.mpr (.inr ⟨c, List.mem_of_getElem? hc, h⟩)

/-! ## Made nodes -/

theorem registrationsIn_append (ns ms : List Node) :
    registrationsIn (ns ++ ms) = registrationsIn ns ++ registrationsIn ms := by
  induction ns with
  | nil => rfl
  | cons n ns ih => rw [List.cons_append, registrationsIn, registrationsIn, ih, List.append_assoc]

theorem registrationsIn_map {f : String → Node} (h : ∀ name, registrations (f name) = [])
    (names : List String) : registrationsIn (names.map f) = [] := by
  induction names with
  | nil => rfl
  | cons name names ih => rw [List.map_cons, registrationsIn, h, ih, List.append_nil]

/-- Binding a function registers nothing. -/
theorem registrations_bindNull (target : String) (bound : List String) :
    registrations (Build.bindNull target bound) = [] := by
  have hbound : registrationsIn (bound.map Build.ident) = [] := registrationsIn_map (fun _ => rfl) _
  show [] ++ ([] ++ (([] ++ ([] ++ registrationsIn (bound.map Build.ident))) ++ ([] ++ []))) = _
  rw [hbound]
  rfl

/-- What takes the place of a closure registers nothing. -/
theorem registrations_fill (site : Site) (target : String) (bound : List String) :
    registrations (site.fill (Build.bindNull target bound)) = [] := by
  cases site with
  | expression => exact registrations_bindNull target bound
  | declaration name at_ =>
    show [] ++ (([] ++ ([] ++ (registrations (Build.bindNull target bound) ++ []))) ++ []) = _
    rw [registrations_bindNull]
    rfl
  | defaultExport =>
    show [] ++ (registrations (Build.bindNull target bound) ++ []) = _
    rw [registrations_bindNull]
    rfl

/-- A call that registers a value registers it under its id and its name. -/
theorem registrationOf?_registration (value : Node) (id name : String) :
    registrationOf? (registration value id name) = some (id, name) := rfl

theorem registrations_registration (value : Node) (id name : String) :
    registrations (registration value id name) = (id, name) :: registrations value := by
  show [(id, name)] ++ ([] ++ (([] ++ (registrations value ++ [])) ++ ([] ++ []))) = _
  simp

theorem mem_registrations_registration {r : String × String} {value : Node} {id name : String} :
    r ∈ registrations (registration value id name) ↔
      r = (id, name) ∨ r ∈ registrations value := by
  rw [registrations_registration, List.mem_cons]

/-! ## Functions that are moved -/

/-- A body without its directives registers nothing new. -/
theorem mem_registrations_stripUseServer {r : String × String} {body : Node}
    (h : r ∈ registrations (stripUseServer body)) : r ∈ registrations body := by
  unfold stripUseServer at h
  split at h
  next sp ss =>
    rw [registrations_stmt, mem_registrationsIn] at h ⊢
    obtain ⟨s, hs, hr⟩ := h
    exact ⟨s, (List.mem_filter.mp hs).1, hr⟩
  next => exact h

/-- A function without its directives registers nothing new. -/
theorem mem_registrations_stripFunction {r : String × String} {f : Node}
    (h : r ∈ registrations (stripFunction f)) : r ∈ registrations f := by
  have hbody : ∀ body, r ∈ registrations (stripUseServer body) → r ∈ registrations body :=
    fun _ => mem_registrations_stripUseServer
  unfold stripFunction at h
  split at h
  next m sp params ds body rest =>
    simp only [registrations_member, registrationsIn, List.mem_append] at h ⊢
    grind
  next a sp params body rest =>
    rw [registrations_of_not_call (by simp)] at h ⊢
    simp only [registrationsIn, List.mem_append] at h ⊢
    grind
  next sp name m fsp params ds body rest more =>
    rw [registrations_of_not_call (by simp)] at h ⊢
    simp only [registrations_member, registrationsIn, List.mem_append] at h ⊢
    grind
  next => exact h

/-- More parameters register nothing. -/
theorem registrations_prependParams (names : List String) (f : Node) :
    registrations (prependParams names f) = registrations f := by
  have hplain : registrationsIn (names.map plainParam) = [] := registrationsIn_map (fun _ => rfl) _
  have hpattern : registrationsIn (names.map Build.binding) = [] :=
    registrationsIn_map (fun _ => rfl) _
  unfold prependParams
  split
  next m sp gsp params rest =>
    simp only [registrations_member, registrations_group, registrationsIn, registrationsIn_append,
      hplain, List.nil_append]
  next a sp gsp params rest =>
    rw [registrations_of_not_call (by simp), registrations_of_not_call (by simp)]
    simp only [registrations_group, registrationsIn, registrationsIn_append, hpattern,
      List.nil_append]
  next sp name m fsp gsp params rest more =>
    rw [registrations_of_not_call (by simp), registrations_of_not_call (by simp)]
    simp only [registrations_member, registrations_group, registrationsIn, registrationsIn_append,
      hplain, List.nil_append]
  next => rfl

/-- What is moved out of a site registers nothing that the site does not register. -/
theorem mem_registrations_closure {r : String × String} {n : Node} {site : Site}
    (h : r ∈ registrations (site.closure n)) : r ∈ registrations n := by
  cases site with
  | expression => exact h
  | declaration name at_ => exact mem_registrations_of_part h
  | defaultExport => exact mem_registrations_of_part h

/-! ## Through the extraction -/

/-- The function of a closure that was moved out. -/
def Extracted.function : Extracted → Node
  | declaration _ function => function
  | expression _ function => function

/-- What the closures found so far register. -/
def foundRegistrations (st : Extraction) : List (String × String) :=
  registrationsIn (st.found.map Extracted.function)

/-- Whether a call registers something, and what, does not depend on what was rewritten inside
it. -/
theorem registrationOf?_rewriteParts (n : Node) (st : Extraction) :
    registrationOf? (rewriteParts n st).1 = registrationOf? n := by
  obtain ⟨st₀, h₀⟩ := part_rewriteParts n 0 st
  obtain ⟨st₁, h₁⟩ := part_rewriteParts n 1 st
  apply Option.ext
  rintro ⟨id, name⟩
  rw [registrationOf?_eq_some_iff, registrationOf?_eq_some_iff, h₀, h₁, extract_kind_iff rfl,
    extract_kind_iff rfl]
  refine and_congr_right fun _ => and_congr_right fun _ => and_congr_right fun hargs => ?_
  -- The arguments are a list, which is only rewritten inside.
  rw [extract_of_keepsKind (by rw [hargs]; rfl) (by rw [hargs]; rfl)]
  obtain ⟨st₂, h₂⟩ := part_rewriteParts (n.part 1) 1 st₁
  obtain ⟨st₃, h₃⟩ := part_rewriteParts (n.part 1) 2 st₁
  rw [h₂, h₃]
  simp only [extract_kind_iff (K := .literal _) rfl]

/-- Adding a closure to those found adds what it registers. -/
theorem foundRegistrations_move (site : Site) (closure : Node) (st : Extraction) :
    foundRegistrations (st.move site closure) =
      foundRegistrations st ++ registrations (stripFunction closure) := by
  have hfunction : ∀ name f, (site.moved name f).function = f := by
    intro name f
    cases site <;> rfl
  unfold foundRegistrations Extraction.move
  rw [List.map_append, registrationsIn_append, List.map_cons, List.map_nil, registrationsIn,
    registrationsIn, List.append_nil, hfunction, registrations_prependParams]

@[simp] theorem foundRegistrations_enter (names : Option (List String)) (st : Extraction) :
    foundRegistrations (st.enter names) = foundRegistrations st := by
  rw [foundRegistrations, foundRegistrations, Extraction.enter_found]

@[simp] theorem foundRegistrations_leave (names : Option (List String)) (st : Extraction) :
    foundRegistrations (st.leave names) = foundRegistrations st := by
  rw [foundRegistrations, foundRegistrations, Extraction.leave_found]

/-- If the parts of a node gain no registrations when they are rewritten, the node gains none. -/
theorem mem_registrations_rewriteParts {n : Node} {st : Extraction} {r : String × String}
    (hparts : r ∈ registrationsIn (extractAll n.children (st.enter n.localNames?)).1 ∨
        r ∈ foundRegistrations (extractAll n.children (st.enter n.localNames?)).2 →
      r ∈ registrationsIn n.children ∨ r ∈ foundRegistrations (st.enter n.localNames?))
    (h : r ∈ registrations (rewriteParts n st).1 ∨ r ∈ foundRegistrations (rewriteParts n st).2) :
    r ∈ registrations n ∨ r ∈ foundRegistrations st := by
  rw [foundRegistrations_enter] at hparts
  rw [mem_registrations, registrationOf?_rewriteParts, ← mem_registrationsIn] at h
  rw [mem_registrations, ← mem_registrationsIn]
  rcases h with (hown | hpart) | hfound
  · exact .inl (.inl hown)
  · exact (hparts (.inl hpart)).imp_left .inr
  · rw [rewriteParts, foundRegistrations_leave] at hfound
    exact (hparts (.inr hfound)).imp_left .inr

mutual
/-- The extraction makes no registrations: what the tree registers afterwards, or a closure that was
found, the tree registered before, or a closure that had been found. -/
theorem mem_registrations_extract : ∀ (n : Node) (st : Extraction) (r : String × String),
    r ∈ registrations (extract n st).1 ∨ r ∈ foundRegistrations (extract n st).2 →
      r ∈ registrations n ∨ r ∈ foundRegistrations st
  | .mk k sp cs, st, r, h => by
    cases hk : k.isType with
    | true =>
      rw [extract_of_isType (n := .mk k sp cs) hk] at h
      exact h
    | false =>
      rw [extract_of_not_isType (n := .mk k sp cs) hk] at h
      have hparts : r ∈ registrations (rewriteParts (.mk k sp cs) st).1 ∨
          r ∈ foundRegistrations (rewriteParts (.mk k sp cs) st).2 →
            r ∈ registrations (.mk k sp cs) ∨ r ∈ foundRegistrations st :=
        mem_registrations_rewriteParts (mem_registrationsIn_extractAll cs _ r)
      cases hs : serverSite? (rewriteParts (.mk k sp cs) st).1 with
      | none =>
        rw [extractSite_of_none hs] at h
        exact hparts h
      | some site =>
        -- The call that takes the place registers nothing; the closure is found from now on.
        rw [extractSite_of_some hs, registrations_fill, foundRegistrations_move,
          List.mem_append] at h
        rcases h with hfill | hfound | hclosure
        · exact absurd hfill List.not_mem_nil
        · exact hparts (.inr hfound)
        · exact hparts (.inl (mem_registrations_closure (mem_registrations_stripFunction hclosure)))
/-- The same for a list of trees. -/
theorem mem_registrationsIn_extractAll : ∀ (ns : List Node) (st : Extraction) (r : String × String),
    r ∈ registrationsIn (extractAll ns st).1 ∨ r ∈ foundRegistrations (extractAll ns st).2 →
      r ∈ registrationsIn ns ∨ r ∈ foundRegistrations st
  | [], _, _, h => h
  | n :: ns, st, r, h => by
    have hhead := mem_registrations_extract n st r
    have htail := mem_registrationsIn_extractAll ns (extract n st).2 r
    rw [extractAll_cons, registrationsIn, List.mem_append] at h
    rw [registrationsIn, List.mem_append]
    grind
end

/-- Whether a tree registers something, and keeps doing so when its closures are extracted. -/
structure Carries (r : String × String) (n : Node) : Prop where
  now : r ∈ registrations n
  kept : ∀ st, r ∈ registrations (extract n st).1

/-- A node that is no closure is only rewritten inside, or not at all. -/
theorem extract_of_serverSite?_eq_none {n : Node} (h : serverSite? n = none) (st : Extraction) :
    (extract n st).1 = n ∨ (extract n st).1 = (rewriteParts n st).1 := by
  cases ht : n.kind.isType with
  | true =>
    rw [extract_of_isType ht]
    exact .inl rfl
  | false =>
    rw [extract_of_not_isType ht, extractSite_of_none (by rw [serverSite?_rewriteParts, h])]
    exact .inr rfl

/-- A call keeps what it registers. -/
theorem carries_of_registrationOf? {r : String × String} {n : Node}
    (h : registrationOf? n = some r) : Carries r n := by
  obtain ⟨id, name⟩ := r
  obtain ⟨⟨o, hcall⟩, -⟩ := (registrationOf?_eq_some_iff n id name).mp h
  have hnone : serverSite? n = none := by
    rw [serverSite?, hcall]
  refine ⟨mem_registrations.mpr (.inl h), fun st => mem_registrations.mpr (.inl ?_)⟩
  rcases extract_of_serverSite?_eq_none hnone st with heq | heq
  · rw [heq, h]
  · rw [heq, registrationOf?_rewriteParts, h]

/-- A node that is no closure keeps what its parts keep. -/
theorem Carries.of_part {r : String × String} {n c : Node} (h : Carries r c)
    (hs : serverSite? n = none) (hc : c ∈ n.children) : Carries r n := by
  refine ⟨mem_registrations.mpr (.inr ⟨c, hc, h.now⟩), fun st => ?_⟩
  rcases extract_of_serverSite?_eq_none hs st with heq | heq
  · rw [heq]
    exact mem_registrations.mpr (.inr ⟨c, hc, h.now⟩)
  · obtain ⟨i, hi⟩ := List.getElem?_of_mem hc
    have hmem := List.mem_of_getElem? (getElem?_extractAll hi (st.enter n.localNames?))
    rw [heq]
    exact mem_registrations.mpr (.inr ⟨_, hmem, h.kept _⟩)

end ServerBoundary.Boundary
