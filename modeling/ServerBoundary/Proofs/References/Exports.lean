import ServerBoundary.Proofs.Extraction.Exports
import ServerBoundary.Proofs.References.ServerForm
import ServerBoundary.Proofs.References.Stubs

/-!
# Exports on both sides of the boundary

Whatever form a module gets, it exports what it exported: others import it by these names, and a
reference in the client graph stands for the export of the same name in the server graph.

> `exports_are_preserved`: the modules of stubs export the names of the server module, and a module
> in the server graph exports them behind the generated names of its closures.
-/

namespace ServerBoundary.Boundary

open Syntax

/-! ## Lists without repetitions -/

/-- Elements that are different, and do not occur later, stay in front. -/
theorem distinct_append {xs ys : List String} (hnodup : xs.Nodup) (hnew : ∀ x ∈ xs, x ∉ ys) :
    distinct (xs ++ ys) = xs ++ distinct ys := by
  induction xs with
  | nil => rfl
  | cons x xs ih =>
    rw [List.nodup_cons] at hnodup
    rw [List.forall_mem_cons] at hnew
    have hx : ∀ y ∈ xs ++ distinct ys, (y != x) = true := by
      intro y hy
      rw [bne_iff_ne]
      rintro rfl
      rcases List.mem_append.mp hy with hxs | hys
      · exact hnodup.1 hxs
      · exact hnew.1 (mem_distinct.mp hys)
    rw [List.cons_append, distinct, ih hnodup.2 hnew.2, List.filter_eq_self.mpr hx,
      List.cons_append]

theorem distinct_of_nodup {xs : List String} (h : xs.Nodup) : distinct xs = xs := by
  have happend : distinct (xs ++ []) = xs ++ distinct [] :=
    distinct_append h fun _ _ => List.not_mem_nil
  rw [List.append_nil] at happend
  exact happend.trans (List.append_nil xs)

/-! ## The registration of exported functions -/

variable {id : ModuleId}

theorem plainName?_registerDeclarator {d d' : Node} {changed : Bool}
    (h : registerDeclarator id d = .ok (d', changed)) : plainName? d' = plainName? d := by
  unfold registerDeclarator at h
  split at h
  next =>
    split at h
    next =>
      obtain ⟨s, -, hs⟩ := exists_of_requireId h
      cases hs
      rfl
    next =>
      cases h
      rfl
  next =>
    cases h
    rfl

theorem plainNames_registerDeclarators {ds ds' : List Node} {changed : Bool}
    (h : registerDeclarators id ds = .ok (ds', changed)) :
    ds'.filterMap plainName? = ds.filterMap plainName? := by
  induction ds generalizing ds' changed with
  | nil =>
    cases h
    rfl
  | cons d ds ih =>
    obtain ⟨first, hd, hrest⟩ := exists_of_bind_eq_ok h
    obtain ⟨rest, hds, hout⟩ := exists_of_bind_eq_ok hrest
    cases hout
    rw [List.filterMap_cons, List.filterMap_cons, plainName?_registerDeclarator hd, ih hds]

/-- **An item exports what it exported**, also if its function is registered: the call that follows
a declaration exports nothing, and one around an expression stands where the expression stood. -/
theorem exports_registerItem {item : Node} {new : List Node} {changed : Bool}
    (h : registerItem id item = .ok (new, changed)) :
    new.flatMap itemExports = itemExports item := by
  unfold registerItem at h
  split at h
  next sp fsp name f =>
    split at h
    next =>
      obtain ⟨s, -, hs⟩ := exists_of_requireId h
      cases hs
      exact List.append_nil _
    next =>
      cases h
      exact List.append_nil _
  next sp w isDeclare vsp ds =>
    obtain ⟨rest, hds, hout⟩ := exists_of_bind_eq_ok h
    cases hout
    exact (List.append_nil _).trans (plainNames_registerDeclarators hds)
  next =>
    obtain ⟨s, -, hs⟩ := exists_of_requireId h
    cases hs
    rfl
  next =>
    split at h
    next =>
      obtain ⟨s, -, hs⟩ := exists_of_requireId h
      cases hs
      rfl
    next =>
      cases h
      rfl
  next =>
    cases h
    exact List.append_nil _

theorem exports_registerItems {items new : List Node} {changed : Bool}
    (h : registerItems id items = .ok (new, changed)) :
    new.flatMap itemExports = items.flatMap itemExports := by
  induction items generalizing new changed with
  | nil =>
    cases h
    rfl
  | cons item items ih =>
    obtain ⟨first, hitem, hrest⟩ := exists_of_bind_eq_ok h
    obtain ⟨rest, hitems, hout⟩ := exists_of_bind_eq_ok hrest
    cases hout
    rw [List.flatMap_append, List.flatMap_cons, exports_registerItem hitem, ih hitems]

/-! ## The whole module -/

/-- The directive of a module exports nothing. -/
theorem exports_bodyItems (module : Node) :
    (bodyItems module).flatMap itemExports = module.children.flatMap itemExports := by
  unfold bodyItems
  split
  next index hdirective =>
    obtain ⟨j, s, value, hj, hs, hvalue⟩ := exists_of_directiveFrom hdirective
    rw [Nat.zero_add] at hj
    subst hj
    refine flatMap_eraseIdx hs (itemExports_of_isHead ?_)
    rw [isHead, hvalue]
    exact Bool.or_true _
  next => rfl

theorem exports_withImport (changed : Bool) (items : List Node) :
    (withImport changed items).flatMap itemExports = items.flatMap itemExports := by
  cases changed with
  | true => exact exports_insertAfterHead [serverImport] items
  | false => rfl

/-- What the first of the two passes makes of a module that is not a client module: it loses its
directive, and if it had one its exported functions are registered. -/
def registeredModule (id : ModuleId) (module : Node) : Except BoundaryError (Node × Bool) :=
  let body := withItems module (bodyItems module)
  if isServerModule module then registerExports id body else pure (body, false)

/-- The first pass gives a module with other items that export the same. -/
theorem exports_registeredModule {module first : Node} {changed : Bool}
    (h : registeredModule id module = .ok (first, changed)) :
    ∃ items, first = withItems module items ∧
      items.flatMap itemExports = module.children.flatMap itemExports := by
  unfold registeredModule at h
  split at h
  next =>
    obtain ⟨⟨items, changed⟩, hitems, hout⟩ := exists_of_bind_eq_ok h
    cases hout
    exact ⟨items, rfl, (exports_registerItems hitems).trans (exports_bodyItems module)⟩
  next =>
    cases h
    exact ⟨bodyItems module, rfl, exports_bodyItems module⟩

/-- A module that gets a form in the server graph went through both passes. -/
theorem exists_of_serverModule {options : ServerOptions} {module out : Node} {changed : Bool}
    (hside : ∀ index, moduleDirective module ≠ some (index, .useClient))
    (h : serverModule options module = .ok (out, changed)) :
    ∃ first registered second extracted,
      registeredModule options.serverId module = .ok (first, registered) ∧
      extractModule options.serverId first = .ok (second, extracted) ∧
      out.children = withImport changed second.children := by
  rw [serverModule_of_not_client options hside, serverSide_eq] at h
  obtain ⟨⟨first, registered⟩, hfirst, hrest⟩ := exists_of_bind_eq_ok h
  obtain ⟨⟨second, extracted⟩, hsecond, hout⟩ := exists_of_bind_eq_ok hrest
  refine ⟨first, registered, second, extracted, hfirst, hsecond, ?_⟩
  dsimp only at hout
  split at hout
  next =>
    cases hout
    rfl
  next =>
    cases hout
    rfl

/-- **Exports are preserved.** The references and the throwing functions that replace a server
module export its names, in its order. A module that is not a client module and exports no reserved
name exports, in the server graph, the generated names of the closures that were moved out of it,
as many as are left when its own exports are registered, and then its names in its order. There
each name is exported as often as it was. -/
theorem exports_are_preserved (options : ServerOptions) (shebang : Option String) (sp : Span)
    (items : List Node) :
    let module := Node.mk (.module (.module_ shebang)) sp items
    (∀ id references, serverReferences id module = .ok (some references) →
      exportNames references = exportNames module) ∧
    (∀ stubs, renderingStubs module = some stubs → exportNames stubs = exportNames module) ∧
    ∀ out changed, (∀ index, moduleDirective module ≠ some (index, .useClient)) →
      (∀ name ∈ exportNames module, isReserved name = false) →
      serverModule options module = .ok (out, changed) →
      ∃ first registered, registeredModule options.serverId module = .ok (first, registered) ∧
        let names := (List.range (closurePlaces first).length).map extractedName
        exportNames out = names ++ exportNames module ∧
        out.children.flatMap itemExports = names ++ items.flatMap itemExports := by
  intro module
  refine ⟨fun id references h => ?_, fun stubs h => ?_, fun out changed hside hfree h => ?_⟩
  · rw [exportNames, exports_serverReferences h]
    exact distinct_of_nodup (nodup_distinct _)
  · rw [exportNames, exports_renderingStubs h]
    exact distinct_of_nodup (nodup_distinct _)
  · obtain ⟨first, registered, second, extracted, hfirst, hsecond, hout⟩ :=
      exists_of_serverModule hside h
    obtain ⟨left, rfl, hleft⟩ := exports_registeredModule hfirst
    have hexports : out.children.flatMap itemExports =
        (List.range (closurePlaces (withItems module left)).length).map extractedName ++
          items.flatMap itemExports := by
      rw [hout, exports_withImport, exports_extractModule hsecond, hleft]
      rfl
    refine ⟨_, registered, hfirst, ?_, hexports⟩
    rw [exportNames, hexports]
    refine distinct_append (nodup_extractedNames _) fun name hname hmem => ?_
    obtain ⟨k, -, rfl⟩ := List.mem_map.mp hname
    have hreserved := hfree _ (mem_distinct.mpr hmem)
    rw [isReserved_extractedName] at hreserved
    exact absurd hreserved (by simp)

/-- In `'use server'; export function save() { return async () => { 'use server' } }
export default async () => {}; export const limit = '1'` the closure is moved out, which puts one
name in front of the three others. -/
theorem save_default_and_limit_are_exported :
    let module := Build.module [
      Build.statement (Build.string Directive.useServer.text),
      Build.node (.module .exportDecl) [functionNamed "save" [] [returning (serverArrow [] [])]],
      Build.exportDefault (serverArrow [] []),
      Build.exportConst "limit" (Build.string "1")]
    (∀ index, moduleDirective module ≠ some (index, .useClient)) ∧
    (∀ name ∈ exportNames module, isReserved name = false) ∧
    ∃ references stubs out changed,
      serverReferences (.ok "m") module = .ok (some references) ∧
      renderingStubs module = some stubs ∧
      serverModule ⟨.ok "m", .ok "m", false⟩ module = .ok (out, changed) ∧
      exportNames references = ["save", "default", "limit"] ∧
      exportNames stubs = ["save", "default", "limit"] ∧
      exportNames out = ["__waku_func1", "save", "default", "limit"] := by
  intro module
  have hside : ∀ index, moduleDirective module ≠ some (index, .useClient) := by
    intro index
    rw [show moduleDirective module = some (0, .useServer) from rfl]
    simp
  have hnames : exportNames module = ["save", "default", "limit"] := by decide
  have hfree : ∀ name ∈ exportNames module, isReserved name = false := by
    rw [hnames]
    decide
  obtain ⟨hreferences, hstubs, hserver⟩ :=
    exports_are_preserved ⟨.ok "m", .ok "m", false⟩ none .generated module.children
  obtain ⟨first, registered, hfirst, hout, -⟩ := hserver _ _ hside hfree rfl
  have hgenerated : (List.range (closurePlaces first).length).map extractedName =
      ["__waku_func1"] := by
    cases hfirst
    decide
  refine ⟨hside, hfree, _, _, _, _, rfl, rfl, rfl, (hreferences (.ok "m") _ rfl).trans hnames,
    (hstubs _ rfl).trans hnames, hout.trans ?_⟩
  rw [hgenerated]
  exact congrArg (["__waku_func1"] ++ ·) hnames

end ServerBoundary.Boundary
