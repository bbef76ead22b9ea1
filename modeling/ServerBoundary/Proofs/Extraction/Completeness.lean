import ServerBoundary.Proofs.Extraction.Script

/-!
# Nothing is left to extract

After the extraction no server closure stands anywhere outside of types: not in the tree that is
left, where a call took the place of each, and not in the functions that were moved out, whose parts
were rewritten before them and which lose their own directive.

> `serverClosures_extract`: the tree that is left has no server closures.

> `serverClosures_movedFunction`: a function that is moved out has none either, and is none.
-/

namespace ServerBoundary.Boundary

open Syntax

/-! ## Trees without server closures -/

theorem serverClosuresIn_eq_nil_iff {ns : List Node} :
    serverClosuresIn ns = [] ↔ ∀ n ∈ ns, serverClosures n = [] :=
  List.flatMap_eq_nil_iff

theorem serverClosures_of_isType {n : Node} (h : n.kind.isType = true) : serverClosures n = [] := by
  rw [serverClosures, closurePlaces, Node.places_of_isType h]
  rfl

/-- A tree without server closures is none itself, and its parts have none. -/
theorem serverClosures_eq_nil_iff {n : Node} (h : n.kind.isType = false) :
    serverClosures n = [] ↔ serverClosuresIn n.children = [] ∧ isServerClosure n = false := by
  rw [serverClosures_of_not_isType h, List.append_eq_nil_iff]
  refine and_congr_right fun _ => ?_
  cases isServerClosure n <;> simp

/-- Without server closures there are no places of server closures. -/
theorem closurePlaces_eq_nil {n : Node} (h : serverClosures n = []) : closurePlaces n = [] := by
  rw [serverClosures, List.filterMap_eq_nil_iff] at h
  rw [List.eq_nil_iff_forall_not_mem]
  intro p hp
  obtain ⟨m, hm, -⟩ := Node.mem_places.mp hp
  rw [h p hp] at hm
  exact absurd hm (by simp)

/-- A call that takes the place of a closure has no server closures. -/
theorem serverClosures_fill (site : Site) (target : String) (bound : List String) :
    serverClosures (site.fill (Build.bindNull target bound)) = [] := by
  have hbound : serverClosuresIn (bound.map Build.ident) = [] := by
    rw [serverClosuresIn_eq_nil_iff]
    intro n hn
    obtain ⟨name, -, rfl⟩ := List.mem_map.mp hn
    rfl
  have hargs : serverClosures (.group (Build.node (.literal .null) [] :: bound.map Build.ident)) =
      [] ++ serverClosuresIn (bound.map Build.ident) := serverClosures_of_not_closure rfl rfl
  have hcall : serverClosures (Build.bindNull target bound) =
      [] ++ (serverClosures (.group (Build.node (.literal .null) [] :: bound.map Build.ident)) ++
        ([] ++ [])) := serverClosures_of_not_closure rfl rfl
  rw [hargs, hbound] at hcall
  have hsingle : serverClosuresIn [Build.bindNull target bound] = [] := by
    rw [serverClosuresIn_cons, hcall]
    rfl
  cases site with
  | expression => exact hcall
  | declaration name sp =>
    have hdeclarator : serverClosures (Build.node (.stmt (.declarator false))
        [.mk (.pattern (.binding name false)) sp [.absent], Build.bindNull target bound]) =
          [] ++ serverClosuresIn [Build.bindNull target bound] :=
      serverClosures_of_not_closure rfl rfl
    refine (serverClosures_of_not_closure rfl rfl).trans ?_
    show serverClosuresIn [Build.node (.stmt (.declarator false)) _] = []
    rw [serverClosuresIn_cons, hdeclarator, hsingle]
    rfl
  | defaultExport => exact (serverClosures_of_not_closure rfl rfl).trans hsingle

/-! ## The tree that is left -/

mutual
/-- **The tree that is left has no server closures.** -/
theorem serverClosures_extract : ∀ (n : Node) (st : Extraction),
    serverClosures (extract n st).1 = []
  | .mk k sp cs, st => by
    cases hk : k.isType with
    | true =>
      rw [extract_of_isType (n := .mk k sp cs) hk]
      exact serverClosures_of_isType (n := .mk k sp cs) hk
    | false =>
      rw [extract_of_not_isType (n := .mk k sp cs) hk]
      cases hs : serverSite? (rewriteParts (.mk k sp cs) st).1 with
      | none =>
        have hnone : isServerClosure (rewriteParts (.mk k sp cs) st).1 = false := by
          rw [isServerClosure, hs]
          rfl
        rw [extractSite_of_none hs]
        have hleft : serverClosures (rewriteParts (.mk k sp cs) st).1 = _ :=
          serverClosures_of_not_closure hk hnone
        exact hleft.trans (serverClosuresIn_extractAll cs _)
      | some site =>
        rw [extractSite_of_some hs]
        exact serverClosures_fill _ _ _
/-- The same for a list of trees. -/
theorem serverClosuresIn_extractAll : ∀ (ns : List Node) (st : Extraction),
    serverClosuresIn (extractAll ns st).1 = []
  | [], _ => rfl
  | n :: ns, st => by
    rw [extractAll_cons, serverClosuresIn_cons, serverClosures_extract n st,
      serverClosuresIn_extractAll ns _]
    rfl
end

/-! ## The functions that are moved out -/

theorem isType_of_isFunction {f : Node} (h : IsFunction f) : f.kind.isType = false := by
  cases h <;> rfl

/-- The parts of what is moved out of a site were rewritten, so they have no server closures. -/
theorem serverClosuresIn_closure {c : Node} {site : Site} {st : Extraction}
    (hs : serverSite? (rewriteParts c st).1 = some site) :
    serverClosuresIn (site.closure (rewriteParts c st).1).children = [] := by
  have htype := isType_of_isFunction (isFunction_closure hs)
  have hpart : serverClosures ((rewriteParts c st).1.part 1) = [] := by
    obtain ⟨st', h⟩ := part_rewriteParts c 1 st
    rw [h]
    exact serverClosures_extract _ _
  cases site with
  | expression => exact serverClosuresIn_extractAll c.children _
  | declaration => exact ((serverClosures_eq_nil_iff htype).mp hpart).1
  | defaultExport => exact ((serverClosures_eq_nil_iff htype).mp hpart).1

theorem serverClosures_stripUseServer {body : Node} (h : serverClosures body = []) :
    serverClosures (stripUseServer body) = [] := by
  unfold stripUseServer
  split
  next sp ss =>
    have hss : serverClosuresIn ss = [] := (serverClosures_of_not_closure rfl rfl).symm.trans h
    rw [serverClosuresIn_eq_nil_iff] at hss
    refine (serverClosures_of_not_closure rfl rfl).trans ?_
    exact serverClosuresIn_eq_nil_iff.mpr fun s hs => hss s (List.mem_filter.mp hs).1
  next => exact h

/-- A function whose parts have no server closures has none without its directives. -/
theorem serverClosures_stripFunction_eq_nil {f : Node} (h : IsFunction f)
    (hparts : serverClosuresIn f.children = []) : serverClosures (stripFunction f) = [] := by
  have htype : (stripFunction f).kind.isType = false := by
    cases h <;> rfl
  rw [serverClosures_of_not_closure htype (isServerClosure_stripFunction h)]
  -- The body is the only part that changes.
  have hbody : ∀ (before after : List Node) (body : Node),
      serverClosuresIn (before ++ body :: after) = [] →
      serverClosuresIn (before ++ stripUseServer body :: after) = [] := by
    intro before after body hall
    rw [serverClosuresIn_eq_nil_iff, List.forall_mem_append, List.forall_mem_cons] at hall ⊢
    exact ⟨hall.1, serverClosures_stripUseServer hall.2.1, hall.2.2⟩
  cases h with
  | function m sp gsp params ds body rest =>
    exact hbody [.mk .group gsp params, ds] rest body hparts
  | arrow isAsync sp gsp params body rest =>
    exact hbody [.mk .group gsp params] rest body hparts
  | expression m sp fsp gsp name params ds body rest more =>
    rw [serverClosuresIn_eq_nil_iff, Node.children_mk, List.forall_mem_cons,
      List.forall_mem_cons] at hparts
    have hfunction : serverClosuresIn (.mk .group gsp params :: ds :: body :: rest) = [] :=
      (serverClosures_of_not_closure rfl rfl).symm.trans hparts.2.1
    have hnew : serverClosures (.mk (.member (.function m)) fsp
        (.mk .group gsp params :: ds :: stripUseServer body :: rest)) = [] :=
      (serverClosures_of_not_closure rfl rfl).trans
        (hbody [.mk .group gsp params, ds] rest body hfunction)
    show serverClosuresIn (name :: _ :: more) = []
    rw [serverClosuresIn_eq_nil_iff, List.forall_mem_cons, List.forall_mem_cons]
    exact ⟨hparts.1, hnew, hparts.2.2⟩

/-- Whether a function runs on the server by its own directive does not depend on its parameters. -/
theorem isServerClosure_prependParams {f : Node} (h : IsFunction f) (names : List String) :
    isServerClosure (prependParams names f) = isServerClosure f := by
  cases h <;> rfl

theorem isServerFunctionNode_prependParams {f : Node} (h : IsFunction f) (names : List String) :
    isServerFunctionNode (prependParams names f) = isServerFunctionNode f := by
  cases h <;> rfl

/-- More parameters bring no server closures. -/
theorem serverClosures_prependParams {f : Node} (h : IsFunction f) (hf : serverClosures f = [])
    (names : List String) : serverClosures (prependParams names f) = [] := by
  have hparams : ∀ (param : String → Node), (∀ name, serverClosures (param name) = []) →
      ∀ (gsp : Span) (params : List Node), serverClosures (.mk .group gsp params) = [] →
        serverClosures (.mk .group gsp (names.map param ++ params)) = [] := by
    intro param hparam gsp params hgroup
    have hall : serverClosuresIn params = [] :=
      (serverClosures_of_not_closure rfl rfl).symm.trans hgroup
    refine (serverClosures_of_not_closure rfl rfl).trans ?_
    rw [Node.children_mk, serverClosuresIn_append, hall, List.append_nil,
      serverClosuresIn_eq_nil_iff]
    intro n hn
    obtain ⟨name, -, rfl⟩ := List.mem_map.mp hn
    exact hparam name
  have hclosure := isServerClosure_prependParams h names
  obtain ⟨hparts, hnone⟩ := (serverClosures_eq_nil_iff (isType_of_isFunction h)).mp hf
  rw [hnone] at hclosure
  rw [serverClosuresIn_eq_nil_iff] at hparts
  cases h with
  | function m sp gsp params ds body rest =>
    rw [Node.children_mk, List.forall_mem_cons] at hparts
    refine (serverClosures_of_not_closure rfl hclosure).trans ?_
    refine serverClosuresIn_eq_nil_iff.mpr (List.forall_mem_cons.mpr ⟨?_, hparts.2⟩)
    exact hparams plainParam (fun _ => rfl) gsp params hparts.1
  | arrow isAsync sp gsp params body rest =>
    rw [Node.children_mk, List.forall_mem_cons] at hparts
    refine (serverClosures_of_not_closure rfl hclosure).trans ?_
    refine serverClosuresIn_eq_nil_iff.mpr (List.forall_mem_cons.mpr ⟨?_, hparts.2⟩)
    exact hparams Build.binding (fun _ => rfl) gsp params hparts.1
  | expression m sp fsp gsp name params ds body rest more =>
    rw [Node.children_mk, List.forall_mem_cons, List.forall_mem_cons] at hparts
    have hfunction : serverClosuresIn (.mk .group gsp params :: ds :: body :: rest) = [] :=
      (serverClosures_of_not_closure rfl rfl).symm.trans hparts.2.1
    rw [serverClosuresIn_eq_nil_iff, List.forall_mem_cons] at hfunction
    refine (serverClosures_of_not_closure rfl hclosure).trans ?_
    refine serverClosuresIn_eq_nil_iff.mpr
      (List.forall_mem_cons.mpr ⟨hparts.1, List.forall_mem_cons.mpr ⟨?_, hparts.2.2⟩⟩)
    refine (serverClosures_of_not_closure rfl rfl).trans ?_
    refine serverClosuresIn_eq_nil_iff.mpr (List.forall_mem_cons.mpr ⟨?_, hfunction.2⟩)
    exact hparams plainParam (fun _ => rfl) gsp params hfunction.1

/-- **A function that is moved out** has no server closures in it and is none, neither as it is nor
as the function of a declaration. -/
theorem serverClosures_movedFunction {c : Node} {site : Site} {st : Extraction}
    (hs : serverSite? (rewriteParts c st).1 = some site) (names : List String) :
    let function := prependParams names (stripFunction (site.closure (rewriteParts c st).1))
    serverClosures function = [] ∧ isServerFunctionNode function = false := by
  intro function
  have hf := isFunction_closure hs
  have hstripped : IsFunction (stripFunction (site.closure (rewriteParts c st).1)) :=
    isFunction_stripFunction hf
  refine ⟨serverClosures_prependParams hstripped ?_ names, ?_⟩
  · exact serverClosures_stripFunction_eq_nil hf (serverClosuresIn_closure hs)
  · exact (isServerFunctionNode_prependParams hstripped names).trans
      (isServerFunctionNode_stripFunction hf)

end ServerBoundary.Boundary
