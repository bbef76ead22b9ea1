import ServerBoundary.Proofs.Extraction.Completeness
import ServerBoundary.Proofs.References.ServerForm

/-!
# The form of the server graph is final

A module in the form of the server graph has no directive left that the passes look for, so it stays
as it is when it goes through them again.

> `server_form_is_final`: no function that stands outside of types has the directive any more, the
> module has no directive, and another pass changes nothing.

> `directive_in_type_stays`: a function in a type keeps its directive.

The passes put items behind the head of a module and take one directive out of it. Neither can
expose another: `takeWhile_insertAfterHead` says what the head is afterwards.
-/

namespace ServerBoundary.Boundary

open Syntax

/-! ## Directives in the head of a module -/

/-- Whether an item is one of the two directives. -/
def isDirective (item : Node) : Bool :=
  match directiveValue? item with
  | some value => value == Directive.useClient.text || value == Directive.useServer.text
  | none => false

theorem isDirective_of_isImport {item : Node} (h : isImport item = true) :
    isDirective item = false := by
  unfold isDirective
  split
  next value hvalue =>
    rw [isImport_of_directiveValue? hvalue] at h
    exact absurd h (by simp)
  next => rfl

theorem isHead_of_isDirective {item : Node} (h : isDirective item = true) : isHead item = true := by
  unfold isDirective at h
  split at h
  next value hvalue => rw [isHead, hvalue, Option.isSome_some, Bool.or_true]
  next => exact absurd h (by simp)

/-- The first item is passed, ends the head, or is the directive. -/
theorem directiveFrom_cons (index : Nat) (first : Node) (items : List Node) :
    (isHead first = true ∧ isDirective first = false ∧
      directiveFrom index (first :: items) = directiveFrom (index + 1) items) ∨
    (isHead first = false ∧ directiveFrom index (first :: items) = none) ∨
    (isDirective first = true ∧ ∃ d, directiveFrom index (first :: items) = some (index, d)) := by
  rw [directiveFrom]
  cases himport : isImport first with
  | true =>
    exact .inl ⟨by rw [isHead, himport, Bool.true_or], isDirective_of_isImport himport, rfl⟩
  | false =>
    rw [isHead, himport, isDirective]
    cases directiveValue? first with
    | none => exact .inr (.inl ⟨rfl, rfl⟩)
    | some value =>
      dsimp only
      cases value == Directive.useClient.text with
      | true => exact .inr (.inr ⟨rfl, .useClient, rfl⟩)
      | false =>
        cases value == Directive.useServer.text with
        | true => exact .inr (.inr ⟨rfl, .useServer, rfl⟩)
        | false => exact .inl ⟨rfl, rfl, rfl⟩

/-- The directive of a module is the first one in its head. -/
theorem directiveFrom_cases (index : Nat) (items : List Node) :
    (directiveFrom index items = none ∧
      ∀ item ∈ items.takeWhile isHead, isDirective item = false) ∨
    ∃ before item after d, items = before ++ item :: after ∧
      directiveFrom index items = some (index + before.length, d) ∧
      (∀ b ∈ before, isHead b = true ∧ isDirective b = false) ∧ isDirective item = true := by
  induction items generalizing index with
  | nil => exact .inl ⟨rfl, fun _ h => absurd h List.not_mem_nil⟩
  | cons first items ih =>
    rcases directiveFrom_cons index first items with
      ⟨hhead, hnot, hpass⟩ | ⟨hend, hnone⟩ | ⟨hdirective, d, hfound⟩
    · rw [hpass, List.takeWhile_cons_of_pos hhead, List.forall_mem_cons]
      rcases ih (index + 1) with
        ⟨hnone, hfree⟩ | ⟨before, item, after, d, hsplit, hat, hbefore, hitem⟩
      · exact .inl ⟨hnone, hnot, hfree⟩
      · refine .inr ⟨first :: before, item, after, d, by rw [hsplit]; rfl, ?_,
          List.forall_mem_cons.mpr ⟨⟨hhead, hnot⟩, hbefore⟩, hitem⟩
        rw [hat, List.length_cons, Nat.add_assoc, Nat.add_comm 1]
    · rw [List.takeWhile_cons_of_neg (by rw [hend]; decide)]
      exact .inl ⟨hnone, fun _ h => absurd h List.not_mem_nil⟩
    · exact .inr ⟨[], first, items, d, rfl, hfound, fun _ h => absurd h List.not_mem_nil,
        hdirective⟩

/-- A module has no directive exactly if none stands in its head. -/
theorem moduleDirective_eq_none_iff {module : Node} : moduleDirective module = none ↔
    ∀ item ∈ module.children.takeWhile isHead, isDirective item = false := by
  rw [moduleDirective]
  rcases directiveFrom_cases 0 module.children with
    ⟨hnone, hfree⟩ | ⟨before, item, after, d, hsplit, hat, hbefore, hitem⟩
  · exact ⟨fun _ => hfree, fun _ => hnone⟩
  · constructor
    · intro hnone
      rw [hat] at hnone
      exact absurd hnone (by simp)
    · intro hfree
      have hmem : item ∈ module.children.takeWhile isHead := by
        rw [hsplit, List.takeWhile_append_of_pos fun b hb => (hbefore b hb).1,
          List.takeWhile_cons_of_pos (isHead_of_isDirective hitem)]
        exact List.mem_append_right _ List.mem_cons_self
      rw [hfree item hmem] at hitem
      exact absurd hitem (by simp)

/-- Without its directive a module has none, if there is one at most in its head. -/
theorem directiveFree_bodyItems {module : Node}
    (hside : ∀ index, moduleDirective module ≠ some (index, .useClient))
    (hcount : (module.children.takeWhile isHead).countP isDirective ≤ 1) :
    ∀ item ∈ (bodyItems module).takeWhile isHead, isDirective item = false := by
  unfold bodyItems
  cases hdirective : moduleDirective module with
  | none => exact moduleDirective_eq_none_iff.mp hdirective
  | some directive =>
    obtain ⟨index, d⟩ := directive
    cases d with
    | useClient => exact absurd hdirective (hside index)
    | useServer =>
      dsimp only
      rw [moduleDirective] at hdirective
      rcases directiveFrom_cases 0 module.children with
        ⟨hnone, _⟩ | ⟨before, item, after, d, hsplit, hat, hbefore, hitem⟩
      · rw [hnone] at hdirective
        exact absurd hdirective (by simp)
      · rw [hat, Nat.zero_add, Option.some.injEq, Prod.mk.injEq] at hdirective
        have hheads : ∀ b ∈ before, isHead b = true := fun b hb => (hbefore b hb).1
        have hfree : ∀ b ∈ before, isDirective b = false := fun b hb => (hbefore b hb).2
        rw [hsplit, List.takeWhile_append_of_pos hheads,
          List.takeWhile_cons_of_pos (isHead_of_isDirective hitem), List.countP_append,
          List.countP_cons_of_pos hitem] at hcount
        have hafter : (after.takeWhile isHead).countP isDirective = 0 := by omega
        rw [hsplit, ← hdirective.1, List.eraseIdx_append_of_length_le (Nat.le_refl _),
          Nat.sub_self, List.eraseIdx_cons_zero, List.takeWhile_append_of_pos hheads]
        rw [List.countP_eq_zero] at hafter
        exact List.forall_mem_append.mpr ⟨hfree, fun b hb => by simpa using hafter b hb⟩

/-! ## The head after the passes -/

/-- Items that are put behind the head belong to it as far as they begin with imports and strings,
and nothing that stood behind the head moves into it. -/
theorem takeWhile_insertAfterHead (new items : List Node) :
    (insertAfterHead new items).takeWhile isHead =
      items.takeWhile isHead ++ new.takeWhile isHead := by
  have hhead : ∀ item ∈ items.takeWhile isHead, isHead item = true :=
    List.all_eq_true.mp List.all_takeWhile
  have hbehind : (items.dropWhile isHead).takeWhile isHead = [] := by
    cases hrest : items.dropWhile isHead with
    | nil => rfl
    | cons item rest =>
      refine List.takeWhile_cons_of_neg ?_
      have hfirst := List.head?_dropWhile_not isHead items
      rw [hrest] at hfirst
      simpa using hfirst
  rw [insertAfterHead, List.append_assoc, List.takeWhile_append_of_pos hhead]
  congr 1
  induction new with
  | nil => exact hbehind
  | cons item new ih =>
    rw [List.cons_append, List.takeWhile_cons, List.takeWhile_cons, ih]

/-- The items of a closure that is moved out do not belong to the head. -/
theorem takeWhile_flatMap_items (id : String) (found : List Extracted) :
    (found.flatMap (·.items id)).takeWhile isHead = [] := by
  cases found with
  | nil => rfl
  | cons e found => cases e <;> rfl

/-- The extraction leaves the directives of the head. -/
theorem isDirective_extract (n : Node) (st : Extraction) :
    isDirective (extract n st).1 = isDirective n := by
  rw [isDirective, isDirective, directiveValue?_extract]

theorem directiveFree_extractAll {items : List Node} (st : Extraction)
    (h : ∀ item ∈ items.takeWhile isHead, isDirective item = false) :
    ∀ item ∈ (extractAll items st).1.takeWhile isHead, isDirective item = false := by
  induction items generalizing st with
  | nil => exact fun _ h => absurd h List.not_mem_nil
  | cons first items ih =>
    rw [extractAll_cons]
    rw [List.takeWhile_cons] at h ⊢
    rw [isHead_extract]
    split
    next hhead =>
      rw [if_pos hhead, List.forall_mem_cons] at h
      rw [List.forall_mem_cons, isDirective_extract]
      exact ⟨h.1, ih _ h.2⟩
    next => exact fun _ h => absurd h List.not_mem_nil

/-- The registration of exports leaves an item as it is, or it is not one of the head and neither is
the first of those that take its place. -/
theorem registerItem_head (id : String) (item : Node) :
    ∃ new changed, registerItem (.ok id) item = .ok (new, changed) ∧
      (new = [item] ∨ isHead item = false ∧ new.takeWhile isHead = [] ∧ new ≠ []) := by
  unfold registerItem
  split
  next sp fsp name f =>
    split
    next => exact ⟨_, _, rfl, .inr ⟨rfl, rfl, by simp⟩⟩
    next => exact ⟨_, _, rfl, .inl rfl⟩
  next sp w b vsp ds =>
    obtain ⟨ds', changed, hds, -⟩ := registerDeclarators_ok id ds
    rw [hds]
    exact ⟨_, _, rfl, .inr ⟨rfl, rfl, by simp⟩⟩
  next => exact ⟨_, _, rfl, .inr ⟨rfl, rfl, by simp [Build.exportDefault]⟩⟩
  next sp e =>
    cases isFunctionExpr e with
    | false => exact ⟨_, _, rfl, .inl rfl⟩
    | true => exact ⟨_, _, rfl, .inr ⟨rfl, rfl, by simp⟩⟩
  next => exact ⟨_, _, rfl, .inl rfl⟩

/-- The registration of exports leaves the head of a module. -/
theorem registerItems_head (id : String) (items : List Node) :
    ∃ new changed, registerItems (.ok id) items = .ok (new, changed) ∧
      new.takeWhile isHead = items.takeWhile isHead := by
  induction items with
  | nil => exact ⟨_, _, rfl, rfl⟩
  | cons item items ih =>
    obtain ⟨new, changed, hitem, hnew⟩ := registerItem_head id item
    obtain ⟨rest, changes, hitems, hrest⟩ := ih
    refine ⟨new ++ rest, changed || changes, by rw [registerItems, hitem, hitems]; rfl, ?_⟩
    rcases hnew with rfl | ⟨hhead, htake, hne⟩
    · rw [List.singleton_append, List.takeWhile_cons, List.takeWhile_cons, hrest]
    · obtain ⟨first, others, rfl⟩ := List.exists_cons_of_ne_nil hne
      have hfirst : ¬isHead first = true := by
        intro h
        rw [List.takeWhile_cons_of_pos h] at htake
        exact absurd htake (by simp)
      rw [List.cons_append, List.takeWhile_cons_of_neg hfirst,
        List.takeWhile_cons_of_neg (by simp [hhead])]

/-! ## The server closures after the passes -/

/-- What was moved out of some items: a function without server closures, which is none either. -/
theorem serverClosures_found {items : List Node} {e : Extracted}
    (he : e ∈ (extractAll items {}).2.found) :
    serverClosures e.function = [] ∧ isServerFunctionNode e.function = false := by
  obtain ⟨k, hk⟩ := List.getElem?_of_mem he
  obtain ⟨_, c, site, st, -, hs, rfl, -⟩ := @exists_movedOut_of_found none .generated _ _ _ hk
  rw [← serverSite?_rewriteParts c st] at hs
  have hmoved := serverClosures_movedFunction hs
    ((rewriteParts c st).2.captured (site.closure (rewriteParts c st).1))
  cases site <;> exact hmoved

/-- The items that declare and register a function have the server closures of the function. -/
theorem serverClosuresIn_items {e : Extracted} (hclosures : serverClosures e.function = [])
    (hnone : isServerFunctionNode e.function = false) (id : String) :
    serverClosuresIn (e.items id) = [] := by
  cases e with
  | declaration name function =>
    have hdeclaration : isServerClosure
        (.mk (.stmt (.function false)) function.span [Build.ident name, function]) = false :=
      (isServerClosure_declaration rfl rfl).trans hnone
    have hfunction : serverClosures
        (.mk (.stmt (.function false)) function.span [Build.ident name, function]) =
          [] ++ (serverClosures function ++ []) :=
      serverClosures_of_not_closure rfl hdeclaration
    have hcall : serverClosures (registration (Build.ident name) id name) = [] :=
      serverClosures_registration _ _ _
    simp only [Extracted.items, Build.statement, Build.node, serverClosuresIn_cons,
      serverClosuresIn_nil, passesParts_exportDecl.closures, passesParts_expression.closures,
      hfunction, hcall, show serverClosures function = [] from hclosures, List.append_nil]
  | expression name function =>
    have hcall : serverClosures (registration function id name) = [] :=
      (serverClosures_registration _ _ _).trans hclosures
    have hname : serverClosures (Build.binding name) = [] := rfl
    simp only [Extracted.items, Build.exportConst, Build.constant, Build.node,
      serverClosuresIn_cons, serverClosuresIn_nil, passesParts_exportDecl.closures,
      (passesParts_variable _ _).closures, (passesParts_declarator _).closures, hcall, hname,
      List.append_nil]

theorem serverClosuresIn_insertAfterHead {new items : List Node}
    (hnew : serverClosuresIn new = []) (hitems : serverClosuresIn items = []) :
    serverClosuresIn (insertAfterHead new items) = [] := by
  rw [serverClosuresIn_eq_nil_iff] at hnew hitems ⊢
  intro n hn
  exact (mem_insertAfterHead.mp hn).elim (hnew n) (hitems n)

/-- Items with their closures moved out have no server closures. -/
theorem serverClosuresIn_movedItems (id : String) (items : List Node) :
    serverClosuresIn (movedItems id items) = [] := by
  refine serverClosuresIn_insertAfterHead ?_ (serverClosuresIn_extractAll items {})
  rw [serverClosuresIn_eq_nil_iff]
  intro n hn
  obtain ⟨e, he, hne⟩ := List.mem_flatMap.mp hn
  obtain ⟨hclosures, hnone⟩ := serverClosures_found he
  exact serverClosuresIn_eq_nil_iff.mp (serverClosuresIn_items hclosures hnone id) n hne

theorem serverClosuresIn_withImport {items : List Node} (h : serverClosuresIn items = [])
    (changed : Bool) : serverClosuresIn (withImport changed items) = [] := by
  cases changed with
  | true => exact serverClosuresIn_insertAfterHead rfl h
  | false => exact h

/-! ## Trees of JavaScript -/

/-- A function of JavaScript is one with more parameters as well. -/
theorem isScript_prependParams {f : Node} (h : IsFunction f) (hscript : isScript f = true)
    (names : List String) : isScript (prependParams names f) = true := by
  have hparams : ∀ (param : String → Node), (∀ name, isScript (param name) = true) →
      ∀ {gsp : Span} {params : List Node}, isScript (.mk .group gsp params) = true →
        isScript (.mk .group gsp (names.map param ++ params)) = true := by
    intro param hparam gsp params hgroup
    refine Node.every_iff.mpr ⟨rfl, List.forall_mem_append.mpr ⟨?_, (Node.every_iff.mp hgroup).2⟩⟩
    intro n hn
    obtain ⟨name, -, rfl⟩ := List.mem_map.mp hn
    exact hparam name
  have hfunction : ∀ m sp gsp params ds body rest,
      isScript (.mk (.member (.function m)) sp (.mk .group gsp params :: ds :: body :: rest)) =
        true →
      isScript (.mk (.member (.function m)) sp
        (.mk .group gsp (names.map plainParam ++ params) :: ds :: body :: rest)) = true := by
    intro m sp gsp params ds body rest h
    obtain ⟨hnode, hparts⟩ := Node.every_iff.mp h
    rw [Node.children_mk, List.forall_mem_cons] at hparts
    refine Node.every_iff.mpr ⟨hnode, ?_⟩
    rw [Node.children_mk, List.forall_mem_cons]
    exact ⟨hparams plainParam (fun _ => rfl) hparts.1, hparts.2⟩
  obtain ⟨hnode, hparts⟩ := Node.every_iff.mp hscript
  cases h with
  | function m sp gsp params ds body rest => exact hfunction _ _ _ _ _ _ _ hscript
  | arrow isAsync sp gsp params body rest =>
    rw [Node.children_mk, List.forall_mem_cons] at hparts
    refine Node.every_iff.mpr ⟨hnode, ?_⟩
    show ∀ c ∈ _ :: body :: rest, isScript c = true
    rw [List.forall_mem_cons]
    exact ⟨hparams Build.binding (fun _ => rfl) hparts.1, hparts.2⟩
  | expression m sp fsp gsp name params ds body rest more =>
    rw [Node.children_mk, List.forall_mem_cons, List.forall_mem_cons] at hparts
    refine Node.every_iff.mpr ⟨hnode, ?_⟩
    show ∀ c ∈ name :: _ :: more, isScript c = true
    rw [List.forall_mem_cons, List.forall_mem_cons]
    exact ⟨hparts.1, hfunction _ _ _ _ _ _ _ hparts.2.1, hparts.2.2⟩

/-- What is moved out of a declaration is a function without a name. -/
theorem isFunctionKind_closure {n : Node} {site : Site} (h : serverSite? n = some site)
    (hsite : site ≠ .expression) : isFunctionKind (site.closure n).kind = true := by
  have hkind : isServerFunctionNode (n.part 1) = true → isFunctionKind (n.part 1).kind = true := by
    intro hf
    obtain ⟨⟨m, hm⟩, -⟩ := (isServerFunctionNode_iff _).mp hf
    rw [hm]
    rfl
  cases standsAt_of_serverSite? h with
  | function => exact absurd rfl hsite
  | arrow => exact absurd rfl hsite
  | declaration _ _ hf => exact hkind hf
  | defaultExport _ hf => exact hkind hf

theorem kind_prependParams_stripFunction {f : Node} (h : IsFunction f) (names : List String) :
    (prependParams names (stripFunction f)).kind = f.kind := by
  cases h <;> rfl

/-- What is moved out of a module of JavaScript is JavaScript. -/
theorem isScript_found {items : List Node} (h : ∀ n ∈ items, isScript n = true) {e : Extracted}
    (he : e ∈ (extractAll items {}).2.found) (id : String) :
    ∀ n ∈ e.items id, isScript n = true := by
  obtain ⟨k, hk⟩ := List.getElem?_of_mem he
  obtain ⟨path, c, site, st, ha, hs, rfl, -⟩ := @exists_movedOut_of_found none .generated _ _ _ hk
  rw [← serverSite?_rewriteParts c st] at hs
  have hmodule : isScript (.mk (.module (.module_ none)) .generated items) = true :=
    Node.every_iff.mpr ⟨rfl, h⟩
  have hc := (isScript_at? hmodule (at?_of_arrival ha)).1
  have hf := isFunction_closure hs
  have hclosure : isScript (site.closure (rewriteParts c st).1) = true :=
    isScript_closure (isScript_rewriteParts hc st) site
  have hfunction : isScript (prependParams
      ((rewriteParts c st).2.captured (site.closure (rewriteParts c st).1))
      (stripFunction (site.closure (rewriteParts c st).1))) = true :=
    isScript_prependParams (isFunction_stripFunction hf) (isScript_stripFunction hf hclosure) _
  have hdeclaration : site ≠ .expression → ∀ n ∈ (Extracted.declaration (extractedName k)
      (prependParams ((rewriteParts c st).2.captured (site.closure (rewriteParts c st).1))
        (stripFunction (site.closure (rewriteParts c st).1)))).items id, isScript n = true := by
    intro hsite
    have hkind := isFunctionKind_closure hs hsite
    rw [← kind_prependParams_stripFunction hf] at hkind
    simp only [Extracted.items, List.forall_mem_cons]
    refine ⟨passesParts_exportDecl.isScript _ ?_, passesParts_expression.isScript _ ?_,
      fun _ hn => absurd hn List.not_mem_nil⟩
    · exact List.forall_mem_singleton.mpr
        (isScript_declaration_iff.mpr ⟨⟨rfl, hkind⟩, rfl, hfunction⟩)
    · exact List.forall_mem_singleton.mpr (isScript_registration rfl _ _)
  cases site with
  | expression =>
    refine List.forall_mem_singleton.mpr (passesParts_exportDecl.isScript _ ?_)
    refine List.forall_mem_singleton.mpr ((passesParts_variable _ _).isScript _ ?_)
    refine List.forall_mem_singleton.mpr ((passesParts_declarator _).isScript _ ?_)
    exact List.forall_mem_cons.mpr
      ⟨rfl, List.forall_mem_singleton.mpr (isScript_registration hfunction _ _)⟩
  | declaration => exact hdeclaration (by simp)
  | defaultExport => exact hdeclaration (by simp)

theorem isScript_movedItems {items : List Node} (h : ∀ n ∈ items, isScript n = true) (id : String) :
    ∀ n ∈ movedItems id items, isScript n = true := by
  intro n hn
  rcases mem_insertAfterHead.mp hn with hnew | hitem
  · obtain ⟨e, he, hne⟩ := List.mem_flatMap.mp hnew
    exact isScript_found h he id n hne
  · exact every_extractAll extractionKeeps_scriptNode items {} h n hitem

theorem isScript_withImport {items : List Node} (h : ∀ n ∈ items, isScript n = true)
    (changed : Bool) : ∀ n ∈ withImport changed items, isScript n = true := by
  cases changed with
  | true =>
    intro n hn
    rcases mem_insertAfterHead.mp hn with hnew | hitem
    · cases List.mem_singleton.mp hnew
      decide
    · exact h n hitem
  | false => exact h

/-! ## Both passes -/

variable {shebang : Option String} {sp : Span}

/-- The first pass keeps the head of a module and the form of JavaScript. -/
theorem registerExports_head (id : String) (whole : Bool) (shebang : Option String) (sp : Span)
    (items : List Node) :
    let module := Node.mk (.module (.module_ shebang)) sp items
    ∃ new registered,
      (if whole then registerExports (.ok id) module else pure (module, false)) =
        .ok (withItems module new, registered) ∧
      new.takeWhile isHead = items.takeWhile isHead ∧
      ((∀ n ∈ items, isScript n = true) → ∀ n ∈ new, isScript n = true) := by
  intro module
  cases whole with
  | false => exact ⟨items, false, rfl, rfl, fun h => h⟩
  | true =>
    obtain ⟨new, registered, hitems, hhead⟩ := registerItems_head id items
    refine ⟨new, registered, ?_, hhead, fun h => ?_⟩
    · rw [if_pos rfl, registerExports, Node.children_mk, hitems]
      rfl
    · obtain ⟨direct, new', hitems', hregisters⟩ := registerItems_eq id h
      rw [hitems] at hitems'
      cases hitems'
      exact (hregisters.accounts (fun _ _ _ => RegistersItem.accounts) h).script

/-- A module goes through both passes whenever there is an id. -/
theorem serverSide_head (id : String) (whole : Bool) (shebang : Option String) (sp : Span)
    (items : List Node) :
    let module := Node.mk (.module (.module_ shebang)) sp items
    ∃ new changed,
      serverSide (.ok id) whole module =
        .ok (withItems module (withImport changed (movedItems id new)), changed) ∧
      new.takeWhile isHead = items.takeWhile isHead ∧
      ((∀ n ∈ items, isScript n = true) → ∀ n ∈ new, isScript n = true) := by
  intro module
  obtain ⟨new, registered, hregister, hhead, hscript⟩ :=
    registerExports_head id whole shebang sp items
  refine ⟨new, registered || decide (0 < (closurePlaces (withItems module new)).length), ?_, hhead,
    hscript⟩
  rw [serverSide_eq, hregister]
  change (extractModule (.ok id) (.mk (.module (.module_ shebang)) sp new) >>= _) = _
  rw [extractModule_eq id shebang sp new]
  change (if registered || decide (0 < (closurePlaces (withItems module new)).length) then _ else _)
    = _
  cases registered || decide (0 < (closurePlaces (withItems module new)).length) <;> rfl

theorem directiveFree_movedItems (id : String) {items : List Node}
    (h : ∀ item ∈ items.takeWhile isHead, isDirective item = false) :
    ∀ item ∈ (movedItems id items).takeWhile isHead, isDirective item = false := by
  rw [movedItems, takeWhile_insertAfterHead, takeWhile_flatMap_items, List.append_nil]
  exact directiveFree_extractAll {} h

theorem directiveFree_withImport (changed : Bool) {items : List Node}
    (h : ∀ item ∈ items.takeWhile isHead, isDirective item = false) :
    ∀ item ∈ (withImport changed items).takeWhile isHead, isDirective item = false := by
  cases changed with
  | true =>
    rw [withImport, if_pos rfl, takeWhile_insertAfterHead, List.forall_mem_append]
    exact ⟨h, List.forall_mem_singleton.mpr rfl⟩
  | false => exact h

/-- A module without a directive and without server closures stays as it is. -/
theorem serverModule_of_final {module : Node} (hdirective : moduleDirective module = none)
    (hclosures : serverClosures module = []) (hkind : module.kind = .module (.module_ shebang))
    (options : ServerOptions) : serverModule options module = .ok (module, false) := by
  obtain ⟨k, sp, items⟩ := module
  cases hkind
  have hfound : (extractAll items {}).2.found = [] := by
    have hlength : (extractAll items {}).2.found.length =
        (closurePlaces (.mk (.module (.module_ shebang)) sp items)).length := length_found_module
    rw [← List.length_eq_zero_iff, hlength, closurePlaces_eq_nil hclosures]
    rfl
  have hextract : extractModule options.serverId (.mk (.module (.module_ shebang)) sp items) =
      .ok (.mk (.module (.module_ shebang)) sp items, false) := by
    unfold extractModule
    dsimp only
    rw [if_pos (by rw [Node.children_mk, hfound]; rfl)]
  unfold serverModule
  rw [hdirective]
  dsimp only
  rw [serverSide_eq]
  change (extractModule options.serverId (.mk (.module (.module_ shebang)) sp items) >>= _) = _
  rw [hextract]
  rfl

/-! ## The whole -/

/-- A module that has the form of the server graph. -/
structure Final (out : Node) : Prop where
  /-- No function that stands outside of types runs on the server by its own directive: no function
  expression, no arrow function, no function declaration and no default function. -/
  closures : ∀ p c, out.at? p = some c → (∀ a ∈ out.above p, a.kind.isType = false) →
    isServerClosure c = false
  directive : moduleDirective out = none
  /-- The module stays as it is when it goes through the passes again. -/
  again : ∀ options, serverModule options out = .ok (out, false)

/-- **The form of the server graph is final.** A module that is not a client module, with one
directive at most in its head, goes through the passes, and what comes out is final. In a module of
JavaScript no function at all has a body that opens with the directive. -/
theorem server_form_is_final (clientId : ModuleId) (id : String) (bare : Bool)
    (shebang : Option String) (sp : Span) (items : List Node)
    (hside : ∀ index,
      moduleDirective (.mk (.module (.module_ shebang)) sp items) ≠ some (index, .useClient))
    (hcount : (items.takeWhile isHead).countP isDirective ≤ 1) :
    let module := Node.mk (.module (.module_ shebang)) sp items
    ∃ out changed, serverModule ⟨clientId, .ok id, bare⟩ module = .ok (out, changed) ∧ Final out ∧
      (isScript module = true → ∀ p c, out.at? p = some c → isFunctionForm c = true →
        opensWithUseServer (ownStatements c) = false) := by
  intro module
  obtain ⟨new, changed, hserver, hhead, hnew⟩ :=
    serverSide_head id (isServerModule module) shebang sp (bodyItems module)
  have hclosures : serverClosures
      (withItems module (withImport changed (movedItems id new))) = [] :=
    (serverClosures_module _).trans
      (serverClosuresIn_withImport (serverClosuresIn_movedItems id new) changed)
  have hdirective : moduleDirective (withItems module (withImport changed (movedItems id new))) =
      none := by
    refine moduleDirective_eq_none_iff.mpr
      (directiveFree_withImport changed (directiveFree_movedItems id ?_))
    rw [hhead]
    exact directiveFree_bodyItems hside hcount
  refine ⟨_, changed, (serverModule_of_not_client _ hside).trans hserver, ⟨?_, hdirective, ?_⟩, ?_⟩
  · intro p c hc habove
    cases hclosure : isServerClosure c with
    | false => rfl
    | true =>
      obtain ⟨site, hs⟩ := Option.isSome_iff_exists.mp hclosure
      have hplace : p ∈ closurePlaces (withItems module (withImport changed (movedItems id new))) :=
        Node.mem_places.mpr ⟨c, hc, habove, isType_of_serverSite? hs, hclosure⟩
      rw [closurePlaces_eq_nil hclosures] at hplace
      exact absurd hplace List.not_mem_nil
  · exact serverModule_of_final hdirective hclosures rfl
  · intro hscript p c hc hform
    have hbody : ∀ n ∈ bodyItems module, isScript n = true :=
      (sameBody_bodyItems hscript).script fun n hn =>
        isScript_of_mem hscript hn
    have hout : isScript (withItems module (withImport changed (movedItems id new))) = true :=
      Node.every_iff.mpr ⟨rfl, isScript_withImport (isScript_movedItems (hnew hbody) id) changed⟩
    have hplace := findsDirectives_of_isScript hout p c hc
    rw [closurePlaces_eq_nil hclosures] at hplace
    cases hopens : opensWithUseServer (ownStatements c) with
    | false => rfl
    | true => exact absurd (hplace.mpr ⟨hform, hopens⟩) List.not_mem_nil

/-- `'use server'; export function save() { 'use server'; return async () => { 'use server' } }`
goes through both passes and is final then. -/
theorem server_form_of_save_is_final :
    let directive := Build.statement (Build.string Directive.useServer.text)
    let module := Build.module [directive, Build.node (.module .exportDecl)
      [functionNamed "save" [] [directive, returning (serverArrow [] [])]]]
    (∀ index, moduleDirective module ≠ some (index, .useClient)) ∧
    (module.children.takeWhile isHead).countP isDirective = 1 ∧
    ∃ out, serverModule ⟨.ok "m", .ok "m", false⟩ module = .ok (out, true) ∧ Final out ∧
      ∀ p c, out.at? p = some c → isFunctionForm c = true →
        opensWithUseServer (ownStatements c) = false := by
  intro directive module
  have hside : ∀ index, moduleDirective module ≠ some (index, .useClient) := by
    intro index
    rw [show moduleDirective module = some (0, .useServer) from rfl]
    simp
  have hcount : (module.children.takeWhile isHead).countP isDirective = 1 := by decide
  obtain ⟨out, changed, hout, hfinal, hforms⟩ :=
    server_form_is_final (.ok "m") "m" false none .generated _ hside (Nat.le_of_eq hcount)
  refine ⟨hside, hcount, out, ?_, hfinal, hforms (by decide)⟩
  cases hout
  rfl

/-- In `interface A { [(async () => { 'use server' })()]: string }` the function keeps its
directive: nothing is looked for in a type. -/
theorem directive_in_type_stays :
    let module := Build.module [interfaceWithKey (Build.expr (.call false) [
      Build.expr .paren [serverArrow [] []], .group [], .absent])]
    (∀ index, moduleDirective module ≠ some (index, .useClient)) ∧
    (module.children.takeWhile isHead).countP isDirective = 0 ∧
    ∃ out changed, serverModule ⟨.ok "m", .ok "m", false⟩ module = .ok (out, changed) ∧
      ∃ p c, out.at? p = some c ∧ isFunctionForm c = true ∧
        opensWithUseServer (ownStatements c) = true := by
  intro module
  refine ⟨fun index => ?_, by decide, module, false, rfl, [0, 3, 0, 0, 0, 0, 0], _, rfl, rfl, ?_⟩
  · rw [show moduleDirective module = none from rfl]
    simp
  · decide

end ServerBoundary.Boundary
