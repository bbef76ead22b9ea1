import ServerBoundary.Proofs.Extraction.Census
import ServerBoundary.Proofs.Grammar.Module
import ServerBoundary.Proofs.References.ChangeFlag

/-!
# Sources that are left unread

A source in which no directive is mentioned is left alone without being read. What is looked for in
it is the text of a directive, but a directive is compared by what it stands for. The two differ for
a directive that is written with a backslash, and for no other.

> `shortcut_is_unobservable`: if no directive of a source is written with a backslash, the
> transforms make of the source what they would make of it if they always read it.

> `escaped_directive_is_missed`: with a backslash in its directive a server module is left alone,
> though it would be transformed if it were read.

The grammar says where a string without a backslash stands in the source. From there on everything
is about the tree: where there is no directive there is no server closure either.
-/

namespace ServerBoundary.Boundary

open Syntax Source Grammar

variable {d : Directive} {src : List Char}

/-! ## Directives of a tree -/

/-- Whether a statement is a directive. -/
def statesDirective (d : Directive) (s : Node) : Bool := directiveValue? s == some d.text

/-- Whether a statement is a directive that is written with a backslash. -/
def isEscapedDirective : Node → Bool
  | .mk (.stmt .expression) _ [.mk (.literal (.string value (some raw))) _ _] =>
    (value == Directive.useClient.text || value == Directive.useServer.text) &&
      raw.toList.contains '\x5c'
  | _ => false

theorem isType_of_statesDirective {s : Node} (h : statesDirective d s = true) :
    s.kind.isType = false := by
  have hvalue := (directiveValue?_eq_some_iff s d.text).mp (beq_iff_eq.mp h)
  rw [hvalue.1]
  rfl

/-- A directive that was read from a text stands there, unless it is written with a backslash. -/
theorem infix_of_statesDirective {s : Node} (hread : ReadFrom src s)
    (h : statesDirective d s = true) : isEscapedDirective s = true ∨ d.text.toList <:+: src := by
  obtain ⟨hkind, c, raw, hchildren, hliteral⟩ :=
    (directiveValue?_eq_some_iff s d.text).mp (beq_iff_eq.mp h)
  obtain ⟨k, sp, cs⟩ := s
  obtain ⟨ck, csp, ccs⟩ := c
  rw [Node.kind_mk] at hkind hliteral
  rw [Node.children_mk] at hchildren
  subst hkind hliteral hchildren
  have hstring := ((readFrom_iff rfl).mp hread).2 _ (List.mem_singleton_self _)
  obtain ⟨written, rfl, hquoted⟩ := ((readFrom_iff rfl).mp hstring).1
  by_cases hslash : '\x5c' ∈ written.toList
  · left
    cases d <;> simp [isEscapedDirective, hslash]
  · exact .inr (hquoted hslash)

/-- A directive that the text does not mention stands nowhere in a tree that was read from it, if
none is written with a backslash. -/
theorem places_statesDirective_eq_nil (hmissing : ¬d.text.toList <:+: src) :
    ∀ n : Node, ReadFrom src n → n.places isEscapedDirective = [] →
      n.places (statesDirective d) = [] :=
  Node.of_parts fun k sp cs ih hread hplain => by
    cases hk : k.isType with
    | true => exact Node.places_of_isType hk
    | false =>
      obtain ⟨hparts, hself⟩ := (Node.places_eq_nil_iff (n := .mk k sp cs) hk).mp hplain
      have hread' := ((readFrom_iff hk).mp hread).2
      refine (Node.places_eq_nil_iff (n := .mk k sp cs) hk).mpr
        ⟨fun c hc => ih c hc (hread' c hc) (hparts c hc), ?_⟩
      rw [← Bool.not_eq_true]
      intro hdirective
      rcases infix_of_statesDirective hread hdirective with hescaped | hinfix
      · exact absurd (hself.symm.trans hescaped) (by simp)
      · exact hmissing hinfix

/-! ## Closures and modules without a directive -/

theorem places_part {holds : Node → Bool} {n : Node} (hn : n.kind.isType = false)
    (habsent : Node.absent.places holds = []) (h : n.places holds = []) (i : Nat) :
    (n.part i).places holds = [] := by
  rw [Node.part, List.getD_eq_getElem?_getD]
  cases hc : n.children[i]? with
  | none => exact habsent
  | some c => exact ((Node.places_eq_nil_iff hn).mp h).1 c (List.mem_of_getElem? hc)

theorem exists_of_opensWithUseServer {ss : List Node} (h : opensWithUseServer ss = true) :
    ∃ s ∈ ss, statesDirective .useServer s = true := by
  induction ss with
  | nil => exact absurd h Bool.false_ne_true
  | cons s ss ih =>
    rw [opensWithUseServer_cons] at h
    split at h
    next value hvalue =>
      rcases Bool.or_eq_true_iff.mp h with hself | hlater
      · refine ⟨s, List.mem_cons_self, ?_⟩
        rw [statesDirective, hvalue, beq_iff_eq.mp hself, beq_self_eq_true]
      · obtain ⟨t, ht, hdirective⟩ := ih hlater
        exact ⟨t, List.mem_cons_of_mem s ht, hdirective⟩
    next => exact absurd h Bool.false_ne_true

theorem opensWithUseServer_of_places {body : Node}
    (h : body.places (statesDirective .useServer) = []) : opensWithUseServer body.statements = false := by
  unfold Node.statements
  split
  next sp ss =>
    rw [← Bool.not_eq_true]
    intro hopens
    obtain ⟨s, hs, hdirective⟩ := exists_of_opensWithUseServer hopens
    have hnone := ((Node.places_eq_nil_iff rfl).mp h).1 s hs
    have hself := ((Node.places_eq_nil_iff (isType_of_statesDirective hdirective)).mp hnone).2
    exact absurd (hself.symm.trans hdirective) (by simp)
  next => rfl

theorem isServerFunction_of_places {n : Node} (h : n.places (statesDirective .useServer) = []) :
    isServerFunction n = false := by
  rw [← Bool.not_eq_true, isServerFunction_iff]
  rintro ⟨-, ⟨⟨m, hk⟩, hopens⟩ | ⟨⟨a, hk⟩, hopens⟩⟩
  · have hbody := places_part (by rw [hk]; rfl) rfl h 2
    exact absurd ((opensWithUseServer_of_places hbody).symm.trans hopens) (by simp)
  · have hbody := places_part (by rw [hk]; rfl) rfl h 1
    exact absurd ((opensWithUseServer_of_places hbody).symm.trans hopens) (by simp)

theorem isServerFunctionNode_of_places {n : Node} (h : n.places (statesDirective .useServer) = []) :
    isServerFunctionNode n = false := by
  rw [← Bool.not_eq_true, isServerFunctionNode_iff, isServerFunction_of_places h]
  simp

theorem isServerClosure_of_places {n : Node} (hn : n.kind.isType = false)
    (h : n.places (statesDirective .useServer) = []) : isServerClosure n = false := by
  have hpart := isServerFunctionNode_of_places (places_part hn rfl h 1)
  unfold isServerClosure serverSite?
  rw [hpart, isServerFunction_of_places h]
  split
  next => rfl
  next => rfl
  next => split <;> rfl
  next => rfl
  next => rfl

/-- Where no function can have the directive there is no server closure. -/
theorem closurePlaces_of_places : ∀ n : Node, n.places (statesDirective .useServer) = [] →
    closurePlaces n = [] :=
  Node.of_parts fun k sp cs ih h => by
    cases hk : k.isType with
    | true => exact Node.places_of_isType hk
    | false =>
      have hparts := ((Node.places_eq_nil_iff (n := .mk k sp cs) hk).mp h).1
      exact (Node.places_eq_nil_iff (n := .mk k sp cs) hk).mpr
        ⟨fun c hc => ih c hc (hparts c hc), isServerClosure_of_places hk h⟩

theorem exists_of_directiveFrom_eq {index i : Nat} {items : List Node}
    (h : directiveFrom index items = some (i, d)) :
    ∃ item ∈ items, statesDirective d item = true := by
  induction items generalizing index with
  | nil => exact absurd h (by simp [directiveFrom])
  | cons item items ih =>
    have hlater : directiveFrom (index + 1) items = some (i, d) →
        ∃ s ∈ item :: items, statesDirective d s = true := fun hrest =>
      (ih hrest).imp fun s hs => ⟨List.mem_cons_of_mem item hs.1, hs.2⟩
    rw [directiveFrom] at h
    split at h
    next => exact hlater h
    next =>
      split at h
      next => exact absurd h (by simp)
      next value hvalue =>
        have hself : ∀ d : Directive, (value == d.text) = true → statesDirective d item = true :=
          fun d htext => by rw [statesDirective, hvalue, beq_iff_eq.mp htext, beq_self_eq_true]
        split at h
        next htext =>
          cases h
          exact ⟨item, List.mem_cons_self, hself _ htext⟩
        next =>
          split at h
          next htext =>
            cases h
            exact ⟨item, List.mem_cons_self, hself _ htext⟩
          next => exact hlater h

/-- A module in which a directive stands nowhere does not have it. -/
theorem moduleDirective_ne {module : Node} (hmodule : module.kind.isType = false)
    (h : module.places (statesDirective d) = []) (i : Nat) :
    moduleDirective module ≠ some (i, d) := by
  intro hdirective
  obtain ⟨item, hitem, hself⟩ := exists_of_directiveFrom_eq hdirective
  have hnone := ((Node.places_eq_nil_iff hmodule).mp h).1 item hitem
  have hnot := ((Node.places_eq_nil_iff (isType_of_statesDirective hself)).mp hnone).2
  exact absurd (hnot.symm.trans hself) (by simp)

theorem isServerModule_of_places {module : Node} (hmodule : module.kind.isType = false)
    (h : module.places (statesDirective .useServer) = []) : isServerModule module = false := by
  unfold isServerModule
  split
  next i hdirective => exact absurd hdirective (moduleDirective_ne hmodule h i)
  next => rfl

/-- Without closures nothing is extracted, and no id is needed. -/
theorem extractModule_of_closurePlaces {module : Node} (id : ModuleId)
    (h : closurePlacesFrom 0 module.children = []) :
    extractModule id module = .ok (module, false) := by
  have hlength := length_found_extractAll 0 module.children {}
  rw [h] at hlength
  have hfound : (extractAll module.children {}).2.found = [] := List.length_eq_zero_iff.mp hlength
  unfold extractModule
  dsimp only
  rw [hfound]
  rfl

/-- A module in which no directive stands is left alone in the server graph. -/
theorem serverModule_of_places {module : Node} (hmodule : module.kind.isType = false)
    (hclient : module.places (statesDirective .useClient) = [])
    (hserver : module.places (statesDirective .useServer) = []) (options : ServerOptions) :
    serverModule options module = .ok (module, false) := by
  have hclosures := (Node.places_eq_nil_iff hmodule).mp (closurePlaces_of_places module hserver)
  have hextract := extractModule_of_closurePlaces options.serverId
    (Node.placesFrom_eq_nil_iff.mpr hclosures.1)
  unfold serverModule
  split
  next i hdirective => exact absurd hdirective (moduleDirective_ne hmodule hclient i)
  next i hdirective => exact absurd hdirective (moduleDirective_ne hmodule hserver i)
  next =>
    rw [serverSide_eq]
    show (extractModule options.serverId module >>= _) = _
    rw [hextract]
    rfl

/-! ## Reading in any case -/

/-- A source as the server graph sees it, if it is always read. -/
def transformServerRead (options : ServerOptions) (file source : String) :
    Except TransformError (Option String) := do
  let parsed ← parseFile file source
  let (module, changed) ← atBoundary (serverModule options parsed.module)
  if changed then return some (Layout.print module parsed.comments) else return none

/-- A source as the browser sees it, if it is always read. -/
def transformClientRead (id : ModuleId) (file source : String) :
    Except TransformError (Option String) := do
  let parsed ← parseFile file source
  let references ← atBoundary (serverReferences id parsed.module)
  return references.map fun module => Layout.print module []

/-- A source as the client graph sees it while rendering on the server, if it is always read. -/
def transformRenderingRead (file source : String) : Except TransformError (Option String) := do
  let parsed ← parseFile file source
  return (renderingStubs parsed.module).map fun module => Layout.print module []

/-- That nothing shows whether a source was read. -/
structure Unobservable (file source : String) (module : Node) : Prop where
  /-- A module whose source mentions no directive is left alone. -/
  unchanged : mentions .useClient source = false → mentions .useServer source = false →
    ∀ options, serverModule options module = .ok (module, false)
  /-- No references replace a module whose source does not mention `use server`. -/
  references : mentions .useServer source = false → ∀ id, serverReferences id module = .ok none
  /-- No stubs replace it either. -/
  stubs : mentions .useServer source = false → renderingStubs module = none
  server : ∀ options, transformServer options file source = transformServerRead options file source
  client : ∀ id, transformClient id file source = transformClientRead id file source
  rendering : transformRendering file source = transformRenderingRead file source

/-- **The shortcut.** If no directive of a source is written with a backslash, nothing shows whether
the source was read. -/
theorem shortcut_is_unobservable {file source : String} {parsed : Parsed}
    (hparse : parseFile file source = .ok parsed)
    (hplain : parsed.module.places isEscapedDirective = []) :
    Unobservable file source parsed.module := by
  have hread := isModule_of_parseFile hparse
  have hmodule : parsed.module.kind.isType = false := by
    obtain ⟨shebang, sp, items, heq⟩ := hread.1
    rw [heq]
    rfl
  have hnone : ∀ d, mentions d source = false → parsed.module.places (statesDirective d) = [] := by
    intro d hmissing
    have hnot : ¬d.text.toList <:+: source.toList := by
      rw [← Text.contains_iff]
      simpa [mentions] using hmissing
    exact places_statesDirective_eq_nil hnot _ hread.2 hplain
  have hunchanged : mentions .useClient source = false → mentions .useServer source = false →
      ∀ options, serverModule options parsed.module = .ok (parsed.module, false) :=
    fun hclient hserver => serverModule_of_places hmodule (hnone _ hclient) (hnone _ hserver)
  have hother : mentions .useServer source = false → isServerModule parsed.module = false :=
    fun hserver => isServerModule_of_places hmodule (hnone _ hserver)
  have hreferences : mentions .useServer source = false →
      ∀ id, serverReferences id parsed.module = .ok none := by
    intro hserver id
    rw [serverReferences, hother hserver]
    rfl
  have hstubs : mentions .useServer source = false → renderingStubs parsed.module = none := by
    intro hserver
    rw [renderingStubs, hother hserver]
    rfl
  refine ⟨hunchanged, hreferences, hstubs, fun options => ?_, fun id => ?_, ?_⟩
  · rw [transformServer, transformServerRead, hparse]
    cases hclient : mentions .useClient source with
    | true => rfl
    | false =>
      cases hserver : mentions .useServer source with
      | true => rfl
      | false =>
        show _ = (atBoundary (serverModule options parsed.module) >>= _)
        rw [hunchanged hclient hserver]
        rfl
  · rw [transformClient, transformClientRead, hparse]
    cases hserver : mentions .useServer source with
    | true => rfl
    | false =>
      show _ = (atBoundary (serverReferences id parsed.module) >>= _)
      rw [hreferences hserver]
      rfl
  · rw [transformRendering, transformRenderingRead, hparse]
    cases hserver : mentions .useServer source with
    | true => rfl
    | false =>
      show _ = (.ok ((renderingStubs parsed.module).map _) : Except TransformError _)
      rw [hstubs hserver]
      rfl

/-- A string with a backslash that is no directive does no harm. -/
theorem shortcut_of_escaped_text :
    ∃ parsed, parseFile "text.ts" "export const text = 'use\\x20server';\n" = .ok parsed ∧
      parsed.module.places isEscapedDirective = [] ∧
      Unobservable "text.ts" "export const text = 'use\\x20server';\n" parsed.module := by
  have hplain : ((parseFile "text.ts" "export const text = 'use\\x20server';\n").map
      fun parsed => parsed.module.places isEscapedDirective) = .ok [] := by decide +kernel
  obtain ⟨parsed, hparse, hnone⟩ := exists_of_parseFile_map hplain
  exact ⟨parsed, hparse, hnone, shortcut_is_unobservable hparse hnone⟩

/-- `'use\x20server'` is the directive of a server module, but the source does not mention it. -/
theorem escaped_directive_is_missed :
    let source := "'use\\x20server';\nexport async function f() {}\n"
    mentionsDirective source = false ∧
      transformServer ⟨.ok "m", .ok "m", false⟩ "f.js" source = .ok none ∧
      transformServerRead ⟨.ok "m", .ok "m", false⟩ "f.js" source = .ok (some
        ("import \x7b registerServerReference as __waku_registerServerReference \x7d from " ++
          "\"react-server-dom-webpack/server.edge\";\nexport async function f() \x7b\x7d\n" ++
          "__waku_registerServerReference(f, \"m\", \"f\");\n")) ∧
      transformClient (.ok "m") "f.js" source = .ok none ∧
      transformClientRead (.ok "m") "f.js" source ≠ .ok none ∧
      transformRendering "f.js" source = .ok none ∧
      transformRenderingRead "f.js" source ≠ .ok none := by
  decide +kernel

end ServerBoundary.Boundary
