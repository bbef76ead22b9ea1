import ServerBoundary.Boundary.ServerReference

/-!
# Stub modules

In the client graph a server module is replaced by a module of stubs: references to its functions in
the browser, and functions that throw while rendering.

> `exports_serverReferences`, `exports_renderingStubs`: a module of stubs exports each name of the
> server module once, in the same order, and no other name.
-/

namespace ServerBoundary.Boundary

open Syntax

/-- A module of references is made of the exported names, and the id is there if there are any. -/
theorem exists_of_serverReferences {id : ModuleId} {module stubs : Node}
    (h : serverReferences id module = .ok (some stubs)) :
    ∃ s, (exportNames module ≠ [] → id = .ok s) ∧
      stubs = Build.module (referenceImports ++ (exportNames module).map (serverReference s)) := by
  unfold serverReferences at h
  split at h
  next =>
    dsimp only at h
    split at h
    next hempty =>
      cases h
      rw [List.isEmpty_iff.mp hempty]
      exact ⟨"", fun hne => absurd rfl hne, rfl⟩
    next =>
      obtain ⟨s, rfl, hs⟩ := exists_of_requireId h
      cases hs
      exact ⟨s, fun _ => rfl, rfl⟩
  next => exact absurd h (by simp)

/-- A server module whose id is there has a module of references. -/
theorem serverReferences_of_isServerModule {module : Node} (h : isServerModule module = true)
    (s : String) : serverReferences (.ok s) module = .ok
      (some (Build.module (referenceImports ++ (exportNames module).map (serverReference s)))) := by
  rw [serverReferences, if_pos h]
  dsimp only
  split
  next hempty => rw [List.isEmpty_iff.mp hempty, List.map_nil, List.append_nil]
  next => rfl

/-- An export under a name exports this name. -/
theorem itemExports_exportAs (name : String) (value : Node) :
    itemExports (Build.exportAs name value) = [name] := by
  unfold Build.exportAs
  split
  next h =>
    rw [beq_iff_eq.mp h]
    rfl
  next => rfl

/-- Exports under some names export these names. -/
theorem flatMap_itemExports_exportAs (names : List String) (value : String → Node) :
    (names.map fun name => Build.exportAs name (value name)).flatMap itemExports = names := by
  induction names with
  | nil => rfl
  | cons name names ih =>
    rw [List.map_cons, List.flatMap_cons, itemExports_exportAs, ih]
    rfl

/-- The references export the names of the server module. -/
theorem exports_serverReferences {id : ModuleId} {module stubs : Node}
    (h : serverReferences id module = .ok (some stubs)) :
    stubs.children.flatMap itemExports = exportNames module := by
  obtain ⟨s, -, rfl⟩ := exists_of_serverReferences h
  have himports : referenceImports.flatMap itemExports = [] := rfl
  rw [Build.module, Build.node, Node.children_mk, List.flatMap_append, himports, List.nil_append]
  exact flatMap_itemExports_exportAs _ _

/-- The stubs that throw export the names of the server module. -/
theorem exports_renderingStubs {module stubs : Node} (h : renderingStubs module = some stubs) :
    stubs.children.flatMap itemExports = exportNames module := by
  unfold renderingStubs at h
  split at h
  next =>
    cases h
    exact flatMap_itemExports_exportAs _ _
  next => exact absurd h (by simp)

end ServerBoundary.Boundary
