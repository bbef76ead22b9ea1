import ServerBoundary.Proofs.Extraction.Conservation
import ServerBoundary.Proofs.References.DirectExports

/-!
# Modules in the server graph

A module that is not a client module goes through two passes. In a server module the functions that
it exports where it declares them are registered, and then the server closures of any module are
moved out. Both passes look for functions with a directive. They do not meet, because the first
takes the directives away that the second looks for:

> `functions_are_registered_once`: every function that a server module exports where it declares it
> is registered under the name of its export, and every other server closure under a generated name;
> nothing is registered twice, and nothing else is registered.
-/

namespace ServerBoundary.Boundary

open Syntax

/-! ## The head of a module -/

/-- Two items that follow each other still do when others are put behind the head, unless the first
of them belongs to the head. -/
theorem infix_insertAfterHead {items : List Node} {a b : Node} (ha : isHead a = false)
    (h : [a, b] <:+: items) (new : List Node) : [a, b] <:+: insertAfterHead new items := by
  obtain ⟨before, after, rfl⟩ := h
  obtain ⟨rest, hrest⟩ : ∃ rest, (before ++ [a, b] ++ after).dropWhile isHead =
      rest ++ [a, b] ++ after := by
    induction before with
    | nil => exact ⟨[], List.dropWhile_cons_of_neg (by rw [ha]; exact Bool.false_ne_true)⟩
    | cons item before ih =>
      cases hitem : isHead item with
      | true =>
        obtain ⟨rest, hrest⟩ := ih
        exact ⟨rest, (List.dropWhile_cons_of_pos hitem).trans hrest⟩
      | false =>
        exact ⟨item :: before,
          List.dropWhile_cons_of_neg (by rw [hitem]; exact Bool.false_ne_true)⟩
  refine ⟨(before ++ [a, b] ++ after).takeWhile isHead ++ new ++ rest, after, ?_⟩
  rw [insertAfterHead, hrest]
  simp only [List.append_assoc]

theorem sublist_insertAfterHead (new items : List Node) :
    items.Sublist (insertAfterHead new items) := by
  have hsplit := List.Sublist.append
    (List.sublist_append_left (items.takeWhile isHead) new) (.refl (items.dropWhile isHead))
  rw [List.takeWhile_append_dropWhile] at hsplit
  exact hsplit

theorem countP_isImport_insertAfterHead (new items : List Node) :
    (insertAfterHead new items).countP isImport = new.countP isImport + items.countP isImport := by
  have hsplit : (items.takeWhile isHead ++ items.dropWhile isHead).countP isImport = _ :=
    List.countP_append
  rw [List.takeWhile_append_dropWhile] at hsplit
  rw [insertAfterHead, List.countP_append, List.countP_append, hsplit]
  omega

theorem countP_isImport_extractAll (ns : List Node) (st : Extraction) :
    (extractAll ns st).1.countP isImport = ns.countP isImport := by
  induction ns generalizing st with
  | nil => rfl
  | cons n ns ih =>
    rw [extractAll_cons, List.countP_cons, List.countP_cons, ih, isImport_extract]

/-- The closures that are moved out bring no imports. -/
theorem countP_isImport_items (id : String) (found : List Extracted) :
    (found.flatMap (·.items id)).countP isImport = 0 := by
  induction found with
  | nil => rfl
  | cons e found ih =>
    rw [List.flatMap_cons, List.countP_append, ih]
    cases e <;> rfl

/-- Items with the import of the function that registers, if something is registered. -/
def withImport (changed : Bool) (items : List Node) : List Node :=
  if changed then insertAfterHead [serverImport] items else items

theorem sublist_withImport (changed : Bool) (items : List Node) :
    items.Sublist (withImport changed items) := by
  cases changed with
  | true => exact sublist_insertAfterHead _ _
  | false => exact .refl _

theorem infix_withImport {items : List Node} {a b : Node} (ha : isHead a = false)
    (h : [a, b] <:+: items) (changed : Bool) : [a, b] <:+: withImport changed items := by
  cases changed with
  | true => exact infix_insertAfterHead ha h _
  | false => exact h

theorem countP_isImport_withImport (changed : Bool) (items : List Node) :
    (withImport changed items).countP isImport =
      items.countP isImport + if changed then 1 else 0 := by
  cases changed with
  | true => exact (countP_isImport_insertAfterHead _ _).trans (Nat.add_comm 1 _)
  | false => rfl

/-- The import registers nothing. -/
theorem perm_registrationsIn_withImport (changed : Bool) (items : List Node) :
    (registrationsIn (withImport changed items)).Perm (registrationsIn items) := by
  cases changed with
  | true => exact perm_registrationsIn_insertAfterHead [serverImport] items
  | false => exact .refl _

/-! ## Places of directives -/

/-- Whether the places of the server closures are those of the functions whose body opens with the
directive. -/
def FindsDirectives (n : Node) : Prop :=
  ∀ p c, n.at? p = some c →
    (p ∈ closurePlaces n ↔ isFunctionForm c = true ∧ opensWithUseServer (ownStatements c) = true)

theorem isScript_at? {p : List Nat} : ∀ {n c : Node}, isScript n = true → n.at? p = some c →
    isScript c = true ∧ ∀ a ∈ n.above p, isScript a = true := by
  induction p with
  | nil =>
    intro n c h hc
    rw [Node.at?_nil, Option.some.injEq] at hc
    subst hc
    exact ⟨h, fun a ha => absurd ha List.not_mem_nil⟩
  | cons i p ih =>
    intro n c h hc
    obtain ⟨d, hd, hdc⟩ := Node.exists_child_of_at? hc
    obtain ⟨hscript, habove⟩ := ih (isScript_of_mem h (List.mem_of_getElem? hd)) hdc
    rw [Node.above_cons hd, List.forall_mem_append, List.forall_mem_singleton]
    exact ⟨hscript, habove, h⟩

/-- In a tree of JavaScript every function with the directive is a server closure, wherever it
stands. -/
theorem findsDirectives_of_isScript {n : Node} (h : isScript n = true) : FindsDirectives n := by
  intro p c hc
  obtain ⟨hscript, habove⟩ := isScript_at? h hc
  rw [← Bool.and_eq_true, ← isServerClosure_eq hscript, closurePlaces, Node.mem_places]
  constructor
  · rintro ⟨m, hm, -, -, hclosure⟩
    rw [hc] at hm
    cases hm
    exact hclosure
  · exact fun hclosure =>
      ⟨c, hc, fun a ha => isType_of_isScript (habove a ha), isType_of_isScript hscript, hclosure⟩

/-! ## Both passes -/

/-- The items of a module without the directive of a server module. -/
def bodyItems (module : Node) : List Node :=
  match moduleDirective module with
  | some (index, .useServer) => module.children.eraseIdx index
  | _ => module.children

/-- What a module that is not a client module becomes in the server graph. `direct` are the
functions that a server module exports where it declares them and `new` its items once they are
registered. The other server closures are moved out as `calls` and `hoisted` say, which leaves
`moved`. -/
structure ServerForm (id : String) (module out : Node) (changed : Bool) (direct : List DirectExport)
    (new moved : List Node) (calls : List Nat → Option Node) (hoisted : List Extracted) :
    Prop where
  registered : isServerModule module = true →
    Itemwise (RegistersItem id) (bodyItems module) direct new
  names_eq : isServerModule module = true →
    direct.map DirectExport.name = (bodyItems module).flatMap directFunctions
  unregistered : isServerModule module = false → direct = [] ∧ new = bodyItems module
  /-- A function that is registered in its place loses its directives and no other statement, and is
  no server closure any more. -/
  stripped : ∀ d ∈ direct,
    ownStatements d.stripped = (ownStatements d.function).filter (fun s => !isUseServer s) ∧
      isServerClosure d.stripped = false
  /-- Each server closure is either registered in its place or moved out. -/
  closures : (serverClosures module).Perm
    ((direct.map DirectExport.function).filter isServerClosure ++
      serverClosures (withItems module new))
  findsDirectives : FindsDirectives (withItems module new)
  relocates : Relocates id (withItems module new) (withItems module moved) calls hoisted
  generated : hoisted.map Extracted.name = (List.range hoisted.length).map extractedName
  out_eq : out = withItems module (withImport changed moved)
  /-- The items keep their order. -/
  order : (Node.substituteFrom calls 0 new).Sublist out.children
  /-- A call that registers a declaration still follows it. -/
  follows : ∀ a b, isHead a = false → [a, b] <:+: Node.substituteFrom calls 0 new →
    [a, b] <:+: out.children
  /-- What is registered afterwards was registered before, or it is one of these functions. -/
  registrations : (registrations out).Perm (registrations module ++
    (direct.map DirectExport.name ++ hoisted.map Extracted.name).map fun name => (id, name))
  changed_eq : changed = decide (0 < direct.length + hoisted.length)
  imports : out.children.countP isImport =
    module.children.countP isImport + if changed then 1 else 0

variable {id : String} {shebang : Option String} {sp : Span}

theorem serverClosures_module (items : List Node) :
    serverClosures (.mk (.module (.module_ shebang)) sp items) = serverClosuresIn items :=
  serverClosures_of_not_closure rfl rfl

/-- The first pass registers the functions of a server module and leaves any other module alone. -/
theorem registerExports_form (id : String) (whole : Bool) (shebang : Option String) (sp : Span)
    {items : List Node}
    (h : ∀ n ∈ items, isScript n = true) :
    let module := Node.mk (.module (.module_ shebang)) sp items
    ∃ direct new,
      (if whole then registerExports (.ok id) module else pure (module, false)) =
        .ok (withItems module new, !direct.isEmpty) ∧
      (whole = true → Itemwise (RegistersItem id) items direct new) ∧
      (whole = false → direct = [] ∧ new = items) ∧ Accounts id items direct new := by
  intro module
  cases whole with
  | false => exact ⟨[], items, rfl, fun h => absurd h (by simp), fun _ => ⟨rfl, rfl⟩, .unchanged h⟩
  | true =>
    obtain ⟨direct, new, hitems, hregisters⟩ := registerItems_eq id h
    refine ⟨direct, new, ?_, fun _ => hregisters, fun h => absurd h (by simp), ?_⟩
    · rw [if_pos rfl, registerExports, Node.children_mk, hitems]
      rfl
    · exact hregisters.accounts (fun _ _ _ => RegistersItem.accounts) h

/-- Items with their closures moved out. -/
def movedItems (id : String) (new : List Node) : List Node :=
  insertAfterHead ((extractAll new {}).2.found.flatMap (·.items id)) (extractAll new {}).1

/-- The two passes, one after the other, and the import if one of them registered something. -/
theorem serverSide_eq (id : ModuleId) (whole : Bool) (module : Node) :
    serverSide id whole module =
      (if whole then registerExports id module else pure (module, false)) >>= fun first =>
        extractModule id first.1 >>= fun second =>
          if first.2 || second.2 then
            .ok (withItems second.1 (insertAfterHead [serverImport] second.1.children), true)
          else .ok (second.1, false) := by
  cases whole <;> rfl

theorem countP_isImport_movedItems (id : String) (new : List Node) :
    (movedItems id new).countP isImport = new.countP isImport := by
  rw [movedItems, countP_isImport_insertAfterHead, countP_isImport_items,
    countP_isImport_extractAll, Nat.zero_add]

/-- What comes of both passes, and whether something was registered in one of them. -/
theorem serverSide_form (id : String) (whole : Bool) (shebang : Option String) (sp : Span)
    {items : List Node} (h : ∀ n ∈ items, isScript n = true) :
    let module := Node.mk (.module (.module_ shebang)) sp items
    ∃ direct new changed,
      serverSide (.ok id) whole module =
        .ok (withItems module (withImport changed (movedItems id new)), changed) ∧
      changed = decide (0 < direct.length + (extractAll new {}).2.found.length) ∧
      (whole = true → Itemwise (RegistersItem id) items direct new) ∧
      (whole = false → direct = [] ∧ new = items) ∧ Accounts id items direct new := by
  intro module
  obtain ⟨direct, new, hregister, hwhole, hnot, haccounts⟩ :=
    registerExports_form id whole shebang sp h
  have hchanged : (!direct.isEmpty || decide (0 < (extractAll new {}).2.found.length)) =
      decide (0 < direct.length + (extractAll new {}).2.found.length) := by
    cases direct with
    | nil => rw [List.length_nil, Nat.zero_add]; rfl
    | cons d ds => exact (decide_eq_true (by rw [List.length_cons]; omega)).symm
  refine ⟨direct, new, _, ?_, rfl, hwhole, hnot, haccounts⟩
  rw [serverSide_eq, hregister, ← hchanged]
  -- What the first pass leaves is a module with other items, so the second one is known.
  change (extractModule (.ok id) (.mk (.module (.module_ shebang)) sp new) >>= _) = _
  rw [extractModule_eq id shebang sp new, ← length_found_module]
  change (if !direct.isEmpty || decide (0 < (extractAll new {}).2.found.length) then _ else _) = _
  cases !direct.isEmpty || decide (0 < (extractAll new {}).2.found.length) <;> rfl

/-! ## Without the directive of the module -/

theorem countP_eraseIdx {p : Node → Bool} {items : List Node} {i : Nat} {s : Node}
    (hi : items[i]? = some s) (hs : p s = false) :
    (items.eraseIdx i).countP p = items.countP p := by
  induction items generalizing i with
  | nil => rfl
  | cons item items ih =>
    cases i with
    | zero =>
      cases hi
      rw [List.countP_cons, hs]
      rfl
    | succ i => rw [List.eraseIdx_cons_succ, List.countP_cons, List.countP_cons, ih hi]

/-- A directive is no import. -/
theorem isImport_of_directiveValue? {s : Node} {value : String}
    (h : directiveValue? s = some value) : isImport s = false := by
  obtain ⟨hkind, -⟩ := (directiveValue?_eq_some_iff s value).mp h
  obtain ⟨k, sp, cs⟩ := s
  cases hkind
  rfl

/-- What a module has apart from the directive of a server module. -/
structure SameBody (items body : List Node) : Prop where
  script : (∀ n ∈ items, isScript n = true) → ∀ n ∈ body, isScript n = true
  closures : serverClosuresIn body = serverClosuresIn items
  registrations : registrationsIn body = registrationsIn items
  imports : body.countP isImport = items.countP isImport

/-- A module that is not a client module goes through the two passes without its directive. -/
theorem serverModule_of_not_client {module : Node} (options : ServerOptions)
    (hside : ∀ index, moduleDirective module ≠ some (index, .useClient)) :
    serverModule options module = serverSide options.serverId (isServerModule module)
      (withItems module (bodyItems module)) := by
  unfold serverModule isServerModule bodyItems
  cases hdirective : moduleDirective module with
  | none =>
    obtain ⟨k, sp, items⟩ := module
    rfl
  | some directive =>
    obtain ⟨index, d⟩ := directive
    cases d with
    | useClient => exact absurd hdirective (hside index)
    | useServer => rfl

/-- The directive is a string, with no function and no call in it. -/
theorem sameBody_bodyItems {items : List Node}
    (h : isScript (.mk (.module (.module_ shebang)) sp items) = true) :
    SameBody items (bodyItems (.mk (.module (.module_ shebang)) sp items)) := by
  unfold bodyItems
  cases hdirective : moduleDirective (.mk (.module (.module_ shebang)) sp items) with
  | none => exact ⟨fun h => h, rfl, rfl, rfl⟩
  | some directive =>
    obtain ⟨index, d⟩ := directive
    cases d with
    | useClient => exact ⟨fun h => h, rfl, rfl, rfl⟩
    | useServer =>
      obtain ⟨j, s, value, hj, hs, hvalue⟩ := exists_of_directiveFrom hdirective
      rw [Nat.zero_add] at hj
      subst hj
      have hscript : isScript s = true := isScript_of_mem h (List.mem_of_getElem? hs)
      refine ⟨fun h n hn => h n (List.mem_of_mem_eraseIdx hn), ?_, ?_, ?_⟩
      · exact passesBodies_serverClosures.eraseIdx hs hscript hvalue
      · rw [registrationsIn_eq_flatMap, registrationsIn_eq_flatMap]
        exact passesBodies_registrations.eraseIdx hs hscript hvalue
      · exact countP_eraseIdx hs (isImport_of_directiveValue? hvalue)

/-! ## The whole -/

/-- **Every function is registered once.** A module of JavaScript that is not a client module gets
the form of the server graph. A function that a server module exports where it declares it is
registered there, under `id` and the name of its export, and loses its directives; with them it is
no server closure any more, so the second pass leaves it where it is. Every other server closure,
also one inside such a function, is moved out under a generated name. No other call registers
anything, and the primitive is imported once if something is registered. -/
theorem functions_are_registered_once (clientId : ModuleId) (id : String) (bare : Bool)
    (shebang : Option String) (sp : Span) (items : List Node)
    (h : isScript (.mk (.module (.module_ shebang)) sp items) = true)
    (hside : ∀ index,
      moduleDirective (.mk (.module (.module_ shebang)) sp items) ≠ some (index, .useClient)) :
    let module := Node.mk (.module (.module_ shebang)) sp items
    FindsDirectives module ∧ ∃ out changed direct new moved calls hoisted,
      serverModule ⟨clientId, .ok id, bare⟩ module = .ok (out, changed) ∧
      ServerForm id module out changed direct new moved calls hoisted := by
  intro module
  have hmodule := serverModule_of_not_client ⟨clientId, .ok id, bare⟩ hside
  have hbody := sameBody_bodyItems h
  obtain ⟨direct, new, changed, hserver, hchanged, hwhole, hnot, haccounts⟩ :=
    serverSide_form id (isServerModule module) shebang sp
      (hbody.script fun n hn => isScript_of_mem h hn)
  have hscript : ∀ n ∈ bodyItems module, isScript n = true :=
    hbody.script fun n hn => isScript_of_mem h hn
  have hleft : Node.substituteFrom
      (replacement (.mk (.module (.module_ shebang)) sp new) {}) 0 new = (extractAll new {}).1 :=
    (extractAll_module shebang sp new).symm
  have hrelocates : Relocates id (withItems module new) (withItems module (movedItems id new))
      (replacement (.mk (.module (.module_ shebang)) sp new) {}) (extractAll new {}).2.found :=
    relocates_found rfl
  refine ⟨findsDirectives_of_isScript h, _, changed, direct, new, movedItems id new,
    replacement (.mk (.module (.module_ shebang)) sp new) {}, (extractAll new {}).2.found,
    hmodule.trans hserver, ?_⟩
  exact {
    registered := hwhole
    names_eq := fun hw => (hwhole hw).map_name (fun _ _ _ => RegistersItem.names_eq) hscript
    unregistered := hnot
    stripped := haccounts.stripped
    closures := by
      rw [serverClosures_module, ← hbody.closures]
      exact haccounts.closures.trans (.append_left _ (.of_eq (serverClosures_module new).symm))
    findsDirectives := findsDirectives_of_isScript (Node.every_iff.mpr ⟨rfl, haccounts.script⟩)
    relocates := hrelocates
    generated := by rw [hrelocates.names_eq, hrelocates.length_eq]
    out_eq := rfl
    order := by
      rw [hleft]
      exact (sublist_insertAfterHead _ _).trans (sublist_withImport changed _)
    follows := by
      intro a b ha hab
      rw [hleft] at hab
      exact infix_withImport ha (infix_insertAfterHead ha hab _) changed
    registrations := by
      -- From the import inwards: the second pass adds the closures, the first one the exports.
      have hnew := perm_registrationsIn_moveOut haccounts.script id
      have hboth := (perm_registrationsIn_withImport changed (movedItems id new)).trans
        (hnew.trans (haccounts.registrations.append_right _))
      rw [hbody.registrations, List.append_assoc] at hboth
      rw [withItems, Node.kind_mk, registrations_module, registrations_module, List.map_append,
        List.map_map, List.map_map]
      exact hboth
    changed_eq := hchanged
    imports := by
      rw [withItems, Node.children_mk, Node.children_mk, countP_isImport_withImport,
        countP_isImport_movedItems, haccounts.imports, hbody.imports] }

/-- In `'use server'; export function save() { 'use server'; return async () => { 'use server' } }`
the function is registered as `save` and the closure in it under a generated name. -/
theorem save_is_registered_and_its_closure_moved_out :
    let directive := Build.statement (Build.string Directive.useServer.text)
    let module := Build.module [directive, Build.node (.module .exportDecl)
      [functionNamed "save" [] [directive, returning (serverArrow [] [])]]]
    isScript module = true ∧
    (∀ index, moduleDirective module ≠ some (index, .useClient)) ∧
    ∃ out direct new moved calls hoisted,
      serverModule ⟨.ok "m", .ok "m", false⟩ module = .ok (out, true) ∧
      ServerForm "m" module out true direct new moved calls hoisted ∧
      registrations out = [("m", "__waku_func1"), ("m", "save")] := by
  intro directive module
  have hscript : isScript module = true := by decide
  have hside : ∀ index, moduleDirective module ≠ some (index, .useClient) := by
    intro index
    rw [show moduleDirective module = some (0, .useServer) from rfl]
    simp
  obtain ⟨-, out, changed, direct, new, moved, calls, hoisted, hout, hform⟩ :=
    functions_are_registered_once (.ok "m") "m" false none .generated _ hscript hside
  refine ⟨hscript, hside, out, direct, new, moved, calls, hoisted, ?_⟩
  cases hout
  exact ⟨rfl, hform, by decide⟩

end ServerBoundary.Boundary
