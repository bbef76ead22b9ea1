import ServerBoundary.Proofs.Extraction.Script
import ServerBoundary.Proofs.References.Registrations

/-!
# Counting registrations

In a tree of JavaScript the extraction of closures does not change how often something is registered
under an id and a name: `perm_registrations_extract` compares the lists of registrations up to their
order, which changes because closures are moved. Moving the closures out then adds one registration
for each:

> `perm_registrationsIn_moveOut`: items with their closures moved out register what they registered,
> and each closure under its name.
-/

namespace ServerBoundary.Boundary

open Syntax

theorem registrationsIn_eq_flatMap (ns : List Node) :
    registrationsIn ns = ns.flatMap registrations := by
  induction ns with
  | nil => rfl
  | cons n ns ih => rw [registrationsIn, List.flatMap_cons, ih]

theorem registrations_eq_children {n : Node} (h : ∀ o, n.kind ≠ .expr (.call o)) :
    registrations n = registrationsIn n.children := by
  obtain ⟨k, sp, cs⟩ := n
  exact registrations_of_not_call h sp cs

/-! ## Functions that are moved -/

theorem passesBodies_registrations : PassesBodies registrations where
  function m sp cs := by rw [registrations_member, registrationsIn_eq_flatMap]
  block sp ss := by rw [registrations_stmt, registrationsIn_eq_flatMap]
  directive _ _ _ _ := rfl

/-- A function registers what its parts register. -/
theorem registrations_of_isFunction {f : Node} (h : IsFunction f) :
    registrations f = f.children.flatMap registrations := by
  rw [← registrationsIn_eq_flatMap]
  cases h <;> exact registrations_eq_children (by simp)

/-- A function registers the same without its directives. -/
theorem registrations_stripFunction {f : Node} (h : IsFunction f) (hscript : isScript f = true) :
    registrations (stripFunction f) = registrations f := by
  rw [registrations_of_isFunction (isFunction_stripFunction h), registrations_of_isFunction h,
    passesBodies_registrations.children_stripFunction h hscript]

/-- A part without parts registers nothing. -/
theorem registrations_of_children_eq_nil {n : Node} (h : n.children = []) :
    registrations n = [] := by
  have hcall : registrationOf? n = none := by
    apply Option.eq_none_iff_forall_ne_some.mpr
    rintro ⟨id, name⟩ hsome
    obtain ⟨-, hcallee, -⟩ := (registrationOf?_eq_some_iff n id name).mp hsome
    rw [Node.part, h] at hcallee
    exact absurd hcallee (by simp [Node.absent])
  obtain ⟨k, sp, cs⟩ := n
  cases h
  rw [registrations, hcall]
  rfl

/-- A name registers nothing. -/
theorem registrations_name {n : Node} (h : isScript n = true)
    (hk : isNameKind n.kind = true ∨ n.kind = .absent) : registrations n = [] :=
  registrations_of_children_eq_nil (children_eq_nil h (hk.imp_right .inl))

/-- A node with a name and one other part registers what the other part registers. -/
theorem registrations_of_name {n : Node} (h : isScript n = true) (hlength : n.children.length = 2)
    (hcall : ∀ o, n.kind ≠ .expr (.call o))
    (hname : isNameKind (n.part 0).kind = true ∨ (n.part 0).kind = .absent) :
    registrations n = registrations (n.part 1) := by
  rw [registrations_eq_children hcall, children_eq_of_length_two hlength, registrationsIn,
    registrationsIn, registrationsIn, registrations_name (isScript_part h 0) hname,
    List.append_nil, List.nil_append]

/-- What is moved out of a site registers what the site registers. -/
theorem registrations_closure {n : Node} {site : Site} (h : isScript n = true)
    (hs : serverSite? n = some site) : registrations (site.closure n) = registrations n := by
  have hn := scriptNode_of_isScript h
  unfold scriptNode at hn
  cases standsAt_of_serverSite? hs with
  | function => rfl
  | arrow => rfl
  | declaration hk _ _ =>
    rw [hk] at hn
    obtain ⟨⟨⟨-, hlength⟩, hname⟩, -⟩ := by simpa only [Bool.and_eq_true] using hn
    exact (registrations_of_name h (beq_iff_eq.mp hlength) (by simp [hk]) (.inl hname)).symm
  | defaultExport hk _ =>
    rw [hk] at hn
    obtain ⟨⟨hlength, hname⟩, -⟩ := by
      simpa only [Bool.and_eq_true, Bool.or_eq_true, beq_iff_eq] using hn
    exact (registrations_of_name h hlength (by simp [hk]) hname).symm

/-! ## Through the extraction -/

/-- A node whose parts were rewritten registers, with the closures found until then, what its parts
and it registered. -/
theorem perm_registrations_rewriteParts (n : Node) (st : Extraction)
    (hparts : (registrationsIn (extractAll n.children (st.enter n.localNames?)).1 ++
        foundRegistrations (extractAll n.children (st.enter n.localNames?)).2).Perm
      (registrationsIn n.children ++ foundRegistrations (st.enter n.localNames?))) :
    (registrations (rewriteParts n st).1 ++ foundRegistrations (rewriteParts n st).2).Perm
      (registrations n ++ foundRegistrations st) := by
  have hcall := registrationOf?_rewriteParts n st
  obtain ⟨k, sp, cs⟩ := n
  rw [foundRegistrations_enter] at hparts
  rw [rewriteParts] at hcall ⊢
  rw [registrations, registrations, hcall, foundRegistrations_leave, List.append_assoc,
    List.append_assoc]
  exact hparts.append_left _

mutual
/-- The extraction changes no counts: the tree that is left and the closures that were found
register what the tree and the closures found before registered. -/
theorem perm_registrations_extract : ∀ (n : Node) (st : Extraction), isScript n = true →
    (registrations (extract n st).1 ++ foundRegistrations (extract n st).2).Perm
      (registrations n ++ foundRegistrations st)
  | .mk k sp cs, st, h => by
    have hk := isType_of_isScript h
    have hparts := perm_registrations_rewriteParts (.mk k sp cs) st
      (perm_registrationsIn_extractAll cs _ fun c hc => isScript_of_mem h hc)
    rw [extract_of_not_isType hk]
    cases hs : serverSite? (rewriteParts (.mk k sp cs) st).1 with
    | none =>
      rw [extractSite_of_none hs]
      exact hparts
    | some site =>
      -- What the node registered, its closure registers where it goes.
      have hscript := isScript_rewriteParts h st
      have hclosure :
          registrations (stripFunction (site.closure (rewriteParts (.mk k sp cs) st).1)) =
            registrations (rewriteParts (.mk k sp cs) st).1 := by
        rw [registrations_stripFunction (isFunction_closure hs) (isScript_closure hscript site),
          registrations_closure hscript hs]
      rw [extractSite_of_some hs, registrations_fill, foundRegistrations_move, hclosure,
        List.nil_append]
      exact List.perm_append_comm.trans hparts
/-- The same for a list of trees. -/
theorem perm_registrationsIn_extractAll : ∀ (ns : List Node) (st : Extraction),
    (∀ n ∈ ns, isScript n = true) →
    (registrationsIn (extractAll ns st).1 ++ foundRegistrations (extractAll ns st).2).Perm
      (registrationsIn ns ++ foundRegistrations st)
  | [], _, _ => .refl _
  | n :: ns, st, h => by
    rw [List.forall_mem_cons] at h
    have hhead := perm_registrations_extract n st h.1
    have htail := perm_registrationsIn_extractAll ns (extract n st).2 h.2
    rw [extractAll_cons, registrationsIn, registrationsIn, List.append_assoc, List.append_assoc]
    refine (htail.append_left _).trans ?_
    refine (List.perm_append_comm_assoc _ _ _).trans ?_
    exact (hhead.append_left _).trans (List.perm_append_comm_assoc _ _ _)
end

/-! ## Moving the closures out -/

theorem perm_registrationsIn_insertAfterHead (new items : List Node) :
    (registrationsIn (insertAfterHead new items)).Perm
      (registrationsIn new ++ registrationsIn items) := by
  have hsplit := registrationsIn_append (items.takeWhile isHead) (items.dropWhile isHead)
  rw [List.takeWhile_append_dropWhile] at hsplit
  rw [insertAfterHead, registrationsIn_append, registrationsIn_append, hsplit, List.append_assoc]
  exact List.perm_append_comm_assoc _ _ _

/-- A closure that is moved out registers itself once, and what it registered. -/
theorem perm_registrationsIn_items (id : String) (e : Extracted) :
    (registrationsIn (e.items id)).Perm ((id, e.name) :: registrations e.function) := by
  cases e with
  | declaration name function =>
    have hname : registrations (Build.ident name) = [] := rfl
    simp only [Extracted.items, Extracted.name, Extracted.function, Build.statement, Build.node,
      registrationsIn, registrations_module, registrations_stmt, registrations_registration, hname,
      List.append_nil, List.nil_append]
    exact List.perm_append_singleton _ _
  | expression name function =>
    have hpattern : registrations (Build.binding name) = [] := rfl
    simp only [Extracted.items, Extracted.name, Extracted.function, Build.exportConst,
      Build.constant, Build.node, registrationsIn, registrations_module, registrations_stmt,
      registrations_registration, hpattern, List.append_nil, List.nil_append]
    exact .refl _

theorem perm_registrationsIn_flatMap_items (id : String) (found : List Extracted) :
    (registrationsIn (found.flatMap (·.items id))).Perm
      (found.map (fun e => (id, e.name)) ++ registrationsIn (found.map Extracted.function)) := by
  induction found with
  | nil => exact .refl _
  | cons e found ih =>
    rw [List.flatMap_cons, registrationsIn_append, List.map_cons, List.map_cons, registrationsIn,
      List.cons_append]
    refine ((perm_registrationsIn_items id e).append ih).trans ?_
    exact (List.perm_append_comm_assoc _ _ _).cons _

/-- **One registration for each closure.** Items with their closures moved out register what they
registered, and each closure under its name. -/
theorem perm_registrationsIn_moveOut {items : List Node} (h : ∀ n ∈ items, isScript n = true)
    (id : String) :
    (registrationsIn (insertAfterHead ((extractAll items {}).2.found.flatMap (·.items id))
      (extractAll items {}).1)).Perm
      (registrationsIn items ++ (extractAll items {}).2.found.map fun e => (id, e.name)) := by
  have hcount := perm_registrationsIn_extractAll items {} h
  rw [show foundRegistrations {} = [] from rfl, List.append_nil] at hcount
  refine (perm_registrationsIn_insertAfterHead _ _).trans ?_
  refine ((perm_registrationsIn_flatMap_items id _).append_right _).trans ?_
  rw [List.append_assoc]
  refine List.perm_append_comm.trans (List.Perm.append_right _ ?_)
  exact List.perm_append_comm.trans hcount

end ServerBoundary.Boundary
