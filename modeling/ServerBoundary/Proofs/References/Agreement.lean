import ServerBoundary.Proofs.Extraction.Capture
import ServerBoundary.Proofs.References.Registrations
import ServerBoundary.Boundary.ServerModule
import ServerBoundary.Proofs.References.Stubs

/-!
# References and registrations

The browser gets a reference for every name that a server module exports. The server has to register
a function under the same id and name for the reference to reach anything.

> `direct_exports_are_registered`: every function that is exported where it is declared is
> registered. Of the functions that the browser can name, these are all that are registered, apart
> from what the module registers by itself and from names like those of the closures moved out.

> `specifier_export_is_not_registered`: a function that is exported by a specifier has a reference
> and no registration.
-/

namespace ServerBoundary.Boundary

open Syntax

/-! ## Functions that a module exports -/

/-- The name of a declarator whose value is a function. -/
def functionDeclarator? : Node → Option String
  | .mk (.stmt (.declarator _)) _ [.mk (.pattern (.binding name _)) _ _, value] =>
    if isFunctionExpr value then some name else none
  | _ => none

/-- The functions with a body that a statement declares. -/
def declaredFunctions : Node → List String
  | .mk (.stmt (.function false)) _ [name, f] =>
    if hasBody f then (writtenName? name).toList else []
  | .mk (.stmt (.variable_ _ _)) _ ds => ds.filterMap functionDeclarator?
  | _ => []

/-- The names of the functions that an item exports where it declares them. A default function
counts even if only its signature is written. -/
def directFunctions : Node → List String
  | .mk (.module .exportDecl) _ [d] => declaredFunctions d
  | .mk (.module .exportDefaultFunction) _ [_, _] => [defaultName]
  | .mk (.module .exportDefaultExpr) _ [e] => if isFunctionExpr e then [defaultName] else []
  | _ => []

/-- The functions with a body that an item of a module declares, exported or not. -/
def localFunctions : Node → List String
  | .mk (.module .exportDecl) _ [d] => declaredFunctions d
  | .mk (.module .exportDefaultFunction) _ [name, f] =>
    if hasBody f then (writtenName? name).toList else []
  | item => declaredFunctions item

/-- The names under which some items export functions: where they declare them, by a specifier
without a source, or as the default export of a name. -/
inductive ExportsFunction (items : List Node) : String → Prop
  | direct {item : Node} {name : String} : item ∈ items → name ∈ directFunctions item →
      ExportsFunction items name
  | specifier {sp gsp ssp : Span} {specifiers rest : List Node}
      {source own exported declaring : Node} {f name : String} :
      .mk (.module (.exportNamed false)) sp (.mk .group gsp specifiers :: source :: rest) ∈ items →
      source.isPresent = false →
      .mk (.module (.exportSpecifier false)) ssp [own, exported] ∈ specifiers →
      declaring ∈ items → f ∈ localFunctions declaring → writtenName? own = some f →
      specifierName? (.mk (.module (.exportSpecifier false)) ssp [own, exported]) = some name →
      ExportsFunction items name
  | byName {sp isp : Span} {ics : List Node} {declaring : Node} {f : String} :
      .mk (.module .exportDefaultExpr) sp [.mk (.ident f) isp ics] ∈ items →
      declaring ∈ items → f ∈ localFunctions declaring → ExportsFunction items defaultName

theorem mem_declarationNames_of_mem_declaredFunctions {d : Node} {name : String}
    (h : name ∈ declaredFunctions d) : name ∈ declarationNames d := by
  unfold declaredFunctions at h
  split at h
  next =>
    split at h
    next => exact h
    next => exact absurd h List.not_mem_nil
  next w b sp ds =>
    obtain ⟨declarator, hd, hname⟩ := List.mem_filterMap.mp h
    refine List.mem_filterMap.mpr ⟨declarator, hd, ?_⟩
    unfold functionDeclarator? at hname
    split at hname
    next =>
      split at hname
      next => exact hname
      next => exact absurd hname (by simp)
    next => exact absurd hname (by simp)
  next => exact absurd h List.not_mem_nil

theorem mem_itemExports_of_mem_directFunctions {item : Node} {name : String}
    (h : name ∈ directFunctions item) : name ∈ itemExports item := by
  unfold directFunctions at h
  split at h
  next => exact mem_declarationNames_of_mem_declaredFunctions h
  next => exact h
  next =>
    split at h
    next => exact h
    next => exact absurd h List.not_mem_nil
  next => exact absurd h List.not_mem_nil

/-- The name of an exported function is one of the exported names. -/
theorem mem_exportNames_of_exportsFunction {module : Node} {name : String}
    (h : ExportsFunction module.children name) : name ∈ exportNames module := by
  refine mem_distinct.mpr (List.mem_flatMap.mpr ?_)
  cases h with
  | direct hitem hname => exact ⟨_, hitem, mem_itemExports_of_mem_directFunctions hname⟩
  | specifier hitem _ hspecifier _ _ _ hname =>
    exact ⟨_, hitem, List.mem_filterMap.mpr ⟨_, hspecifier, hname⟩⟩
  | byName hitem _ _ => exact ⟨_, hitem, List.mem_singleton.mpr rfl⟩

/-! ## What is registered -/

/-- What the registration of some functions makes of some nodes: each of them is registered, and
nothing else that was not registered before. -/
structure Registers (id : String) (names : List String) (old new : List Node) : Prop where
  carried : ∀ name ∈ names, ∃ n ∈ new, Carries (id, name) n
  only : ∀ r ∈ registrationsIn new, r ∈ registrationsIn old ∨ ∃ name ∈ names, r = (id, name)

variable {id : String}

theorem Registers.unchanged (ns : List Node) : Registers id [] ns ns :=
  ⟨fun _ h => absurd h List.not_mem_nil, fun _ h => .inl h⟩

theorem Registers.append {names names' : List String} {old old' new new' : List Node}
    (h : Registers id names old new) (h' : Registers id names' old' new') :
    Registers id (names ++ names') (old ++ old') (new ++ new') := by
  constructor
  · intro name hname
    rcases List.mem_append.mp hname with hl | hr
    · obtain ⟨n, hn, hc⟩ := h.carried name hl
      exact ⟨n, List.mem_append_left _ hn, hc⟩
    · obtain ⟨n, hn, hc⟩ := h'.carried name hr
      exact ⟨n, List.mem_append_right _ hn, hc⟩
  · intro r hr
    have hl := h.only r
    have hr' := h'.only r
    rw [registrationsIn_append, List.mem_append] at hr ⊢
    simp only [List.mem_append]
    grind

theorem Registers.single {name : String} {old new : Node} (hcarries : Carries (id, name) new)
    (hnew : ∀ r ∈ registrations new, r = (id, name) ∨ r ∈ registrations old) :
    Registers id [name] [old] [new] := by
  constructor
  · intro n hn
    rw [List.mem_singleton] at hn
    subst hn
    exact ⟨new, List.mem_singleton.mpr rfl, hcarries⟩
  · intro r hr
    rw [registrationsIn, registrationsIn, List.append_nil] at hr ⊢
    rcases hnew r hr with heq | hold
    · exact .inr ⟨name, List.mem_singleton.mpr rfl, heq⟩
    · exact .inl hold

/-- A function in a call that registers it registers nothing else that it did not register. -/
theorem mem_registrations_registered {r : String × String} {f : Node} {name : String}
    (h : r ∈ registrations (registered f id name)) : r = (id, name) ∨ r ∈ registrations f :=
  (mem_registrations_registration.mp h).imp_right mem_registrations_stripFunction

theorem carries_registration (value : Node) (id name : String) :
    Carries (id, name) (registration value id name) :=
  carries_of_registrationOf? (registrationOf?_registration value id name)

/-- A declarator is registered exactly if its value is a function. -/
theorem registerDeclarator_ok (id : String) (d : Node) :
    ∃ d' changed, registerDeclarator (.ok id) d = .ok (d', changed) ∧
      Registers id (functionDeclarator? d).toList [d] [d'] := by
  unfold registerDeclarator
  split
  next definite sp name o psp pcs value =>
    rw [functionDeclarator?]
    cases hf : isFunctionExpr value with
    | false => exact ⟨_, _, rfl, .unchanged _⟩
    | true =>
      refine ⟨_, _, rfl, .single ?_ ?_⟩
      · exact (carries_registration _ _ _).of_part rfl
          (List.mem_cons_of_mem _ (List.mem_singleton.mpr rfl))
      · intro r hr
        simp only [registrations_stmt, registrationsIn, List.mem_append] at hr ⊢
        have hvalue : r ∈ registrations (registered value id name) →
            r = (id, name) ∨ r ∈ registrations value := mem_registrations_registered
        grind
  next hother =>
    have hnone : functionDeclarator? d = none := by
      unfold functionDeclarator?
      split
      next => exact absurd rfl (hother _ _ _ _ _ _ _)
      next => rfl
    rw [hnone]
    exact ⟨_, _, rfl, .unchanged _⟩

theorem registerDeclarators_ok (id : String) (ds : List Node) :
    ∃ ds' changed, registerDeclarators (.ok id) ds = .ok (ds', changed) ∧
      Registers id (ds.filterMap functionDeclarator?) ds ds' := by
  induction ds with
  | nil => exact ⟨_, _, rfl, .unchanged _⟩
  | cons d ds ih =>
    obtain ⟨d', changed, hd, hregisters⟩ := registerDeclarator_ok id d
    obtain ⟨ds', changes, hds, hrest⟩ := ih
    refine ⟨d' :: ds', changed || changes, by rw [registerDeclarators, hd, hds]; rfl, ?_⟩
    have hnames : (d :: ds).filterMap functionDeclarator? =
        (functionDeclarator? d).toList ++ ds.filterMap functionDeclarator? := by
      cases h : functionDeclarator? d with
      | none => rw [List.filterMap_cons_none h]; rfl
      | some name => rw [List.filterMap_cons_some h]; rfl
    rw [hnames]
    exact hregisters.append hrest

/-- A declaration without its directives, followed by the call that registers its name. -/
theorem registers_function (id : String) (sp fsp : Span) (name f : Node) (text : String) :
    Registers id [text] [.mk (.module .exportDecl) sp [.mk (.stmt (.function false)) fsp [name, f]]]
      [.mk (.module .exportDecl) sp [.mk (.stmt (.function false)) fsp [name, stripFunction f]],
        Build.statement (registration name id text)] := by
  constructor
  · intro n hn
    cases List.mem_singleton.mp hn
    exact ⟨_, List.mem_cons_of_mem _ (List.mem_singleton.mpr rfl),
      (carries_registration _ _ _).of_part rfl (List.mem_singleton.mpr rfl)⟩
  · intro r hr
    have hstrip : r ∈ registrations (stripFunction f) → r ∈ registrations f :=
      mem_registrations_stripFunction
    have hcall : r ∈ registrations (registration name id text) ↔
        r = (id, text) ∨ r ∈ registrations name := mem_registrations_registration
    simp only [Build.statement, Build.node, registrations_stmt, registrations_module,
      registrationsIn, List.mem_append, List.append_nil] at hr ⊢
    grind

/-- An exported declaration of variables registers what its declarators register. -/
theorem Registers.exportedVariables {names : List String} {ds ds' : List Node}
    (h : Registers id names ds ds') (sp vsp : Span) (w : VarWord) (isDeclare : Bool) :
    Registers id names
      [.mk (.module .exportDecl) sp [.mk (.stmt (.variable_ w isDeclare)) vsp ds]]
      [.mk (.module .exportDecl) sp [.mk (.stmt (.variable_ w isDeclare)) vsp ds']] := by
  constructor
  · intro name hname
    obtain ⟨d, hd, hcarries⟩ := h.carried name hname
    have hvariable : Carries (id, name) (.mk (.stmt (.variable_ w isDeclare)) vsp ds') :=
      hcarries.of_part rfl hd
    exact ⟨_, List.mem_singleton.mpr rfl, hvariable.of_part rfl (List.mem_singleton.mpr rfl)⟩
  · intro r hr
    simp only [registrationsIn, registrations_stmt, registrations_module, List.append_nil] at hr ⊢
    exact h.only r hr

/-- A default export of a function declaration turns it into an expression. -/
theorem registers_defaultFunction (id : String) (sp : Span) (name f : Node) :
    Registers id [defaultName] [.mk (.module .exportDefaultFunction) sp [name, f]]
      [Build.exportDefault
        (registered (.mk (.expr .function) f.span [name, f]) id defaultName)] := by
  refine .single ?_ ?_
  · exact (carries_registration _ _ _).of_part rfl (List.mem_singleton.mpr rfl)
  · intro r hr
    rw [Build.exportDefault, Build.node, registrations_module, registrationsIn, registrationsIn,
      List.append_nil] at hr
    refine (mem_registrations_registered hr).imp_right fun h => ?_
    rw [registrations_of_not_call (by simp)] at h
    rw [registrations_module]
    exact h

/-- A default export of a function expression. -/
theorem registers_defaultExpr (id : String) (sp : Span) (e : Node) :
    Registers id [defaultName] [.mk (.module .exportDefaultExpr) sp [e]]
      [.mk (.module .exportDefaultExpr) sp [registered e id defaultName]] := by
  refine .single ?_ ?_
  · exact (carries_registration _ _ _).of_part rfl (List.mem_singleton.mpr rfl)
  · intro r hr
    simp only [registrations_module, registrationsIn, List.append_nil] at hr ⊢
    exact mem_registrations_registered hr

/-- An item registers the functions that it exports where it declares them. -/
theorem registerItem_ok (id : String) (item : Node) :
    ∃ new changed, registerItem (.ok id) item = .ok (new, changed) ∧
      Registers id (directFunctions item) [item] new := by
  unfold registerItem
  split
  next sp fsp name f =>
    rw [directFunctions, declaredFunctions]
    cases hasBody f with
    | false => exact ⟨_, _, rfl, .unchanged _⟩
    | true =>
      cases writtenName? name with
      | none => exact ⟨_, _, rfl, .unchanged _⟩
      | some text => exact ⟨_, _, rfl, registers_function id sp fsp name f text⟩
  next sp w b vsp ds =>
    obtain ⟨ds', changed, hds, hregisters⟩ := registerDeclarators_ok id ds
    rw [directFunctions, declaredFunctions, hds]
    exact ⟨_, _, rfl, hregisters.exportedVariables sp vsp w b⟩
  next sp name f => exact ⟨_, _, rfl, registers_defaultFunction id sp name f⟩
  next sp e =>
    rw [directFunctions]
    cases isFunctionExpr e with
    | false => exact ⟨_, _, rfl, .unchanged _⟩
    | true => exact ⟨_, _, rfl, registers_defaultExpr id sp e⟩
  next hfunction hvariable hdefault hexpression =>
    have hnone : directFunctions item = [] := by
      unfold directFunctions
      split
      next =>
        unfold declaredFunctions
        split
        next => exact absurd rfl (hfunction _ _ _ _)
        next => exact absurd rfl (hvariable _ _ _ _ _)
        next => rfl
      next => exact absurd rfl (hdefault _ _ _)
      next => exact absurd rfl (hexpression _ _)
      next => rfl
    rw [hnone]
    exact ⟨_, _, rfl, .unchanged _⟩

theorem registerItems_ok (id : String) (items : List Node) :
    ∃ new changed, registerItems (.ok id) items = .ok (new, changed) ∧
      Registers id (items.flatMap directFunctions) items new := by
  induction items with
  | nil => exact ⟨_, _, rfl, .unchanged _⟩
  | cons item items ih =>
    obtain ⟨new, changed, hitem, hregisters⟩ := registerItem_ok id item
    obtain ⟨rest, changes, hitems, hrest⟩ := ih
    refine ⟨new ++ rest, changed || changes, by rw [registerItems, hitem, hitems]; rfl, ?_⟩
    rw [List.flatMap_cons]
    exact hregisters.append hrest

/-! ## Closures that are moved out -/

/-- The names of the closures that are moved out of some items. -/
def movedNames (items : List Node) : List String :=
  (extractAll items {}).2.found.map Extracted.name

/-- A closure that is moved out is registered under its name. -/
theorem mem_registrationsIn_items {r : String × String} {e : Extracted} :
    r ∈ registrationsIn (e.items id) ↔ r = (id, e.name) ∨ r ∈ registrations e.function := by
  cases e with
  | declaration name f =>
    have hcall : r ∈ registrations (registration (Build.ident name) id name) ↔
        r = (id, name) ∨ r ∈ registrations (Build.ident name) := mem_registrations_registration
    have hname : registrations (Build.ident name) = [] := rfl
    simp only [Extracted.items, Extracted.name, Extracted.function, Build.statement, Build.node,
      registrationsIn, registrations_module, registrations_stmt, List.mem_append, List.append_nil,
      hcall, hname, List.nil_append, List.not_mem_nil, or_false]
    exact or_comm
  | expression name f =>
    have hcall : r ∈ registrations (registration f id name) ↔
        r = (id, name) ∨ r ∈ registrations f := mem_registrations_registration
    have hpattern : registrations (Build.binding name) = [] := rfl
    simp only [Extracted.items, Extracted.name, Extracted.function, Build.exportConst,
      Build.constant, Build.node, registrationsIn, registrations_module, registrations_stmt,
      List.append_nil, hcall, hpattern, List.nil_append]

theorem mem_insertAfterHead {new items : List Node} {n : Node} :
    n ∈ insertAfterHead new items ↔ n ∈ new ∨ n ∈ items := by
  have hsplit : n ∈ items ↔ n ∈ items.takeWhile isHead ∨ n ∈ items.dropWhile isHead := by
    rw [← List.mem_append, List.takeWhile_append_dropWhile]
  rw [insertAfterHead, List.mem_append, List.mem_append, hsplit]
  grind

/-- What the extraction makes of the items of a module carries what they carried, and registers the
closures moved out and nothing else that they did not register. -/
theorem extractModule_ok (id : String) (module : Node) :
    ∃ out changed, extractModule (.ok id) module = .ok (out, changed) ∧
      out.kind = module.kind ∧
      (∀ r, (∃ n ∈ module.children, Carries r n) → r ∈ registrationsIn out.children) ∧
      (∀ name ∈ movedNames module.children, (id, name) ∈ registrationsIn out.children) ∧
      ∀ r ∈ registrationsIn out.children, r ∈ registrationsIn module.children ∨
        ∃ name ∈ movedNames module.children, r = (id, name) := by
  by_cases hfound : (extractAll module.children {}).2.found = []
  · -- Without closures the module stays as it is.
    refine ⟨module, false, ?_, rfl, ?_, ?_, fun r hr => .inl hr⟩
    · unfold extractModule
      dsimp only
      rw [if_pos (by rw [hfound]; rfl)]
    · rintro r ⟨n, hn, hcarries⟩
      exact mem_registrationsIn.mpr ⟨n, hn, hcarries.now⟩
    · intro name hname
      rw [movedNames, hfound] at hname
      exact absurd hname List.not_mem_nil
  · refine ⟨_, true, extractModule_of_found hfound id, rfl, ?_, ?_, ?_⟩
    · rintro r ⟨n, hn, hcarries⟩
      obtain ⟨i, hi⟩ := List.getElem?_of_mem hn
      have hmem := List.mem_of_getElem? (getElem?_extractAll hi {})
      exact mem_registrationsIn.mpr ⟨_, mem_insertAfterHead.mpr (.inr hmem), hcarries.kept _⟩
    · intro name hname
      obtain ⟨e, he, hename⟩ := List.mem_map.mp hname
      have hitems : (id, e.name) ∈ registrationsIn (e.items id) :=
        mem_registrationsIn_items.mpr (.inl rfl)
      obtain ⟨n, hn, hr⟩ := mem_registrationsIn.mp hitems
      rw [hename] at hr
      exact mem_registrationsIn.mpr
        ⟨n, mem_insertAfterHead.mpr (.inl (List.mem_flatMap.mpr ⟨e, he, hn⟩)), hr⟩
    · intro r hr
      obtain ⟨n, hn, hr⟩ := mem_registrationsIn.mp hr
      have hold : r ∈ registrationsIn (extractAll module.children {}).1 ∨
          r ∈ foundRegistrations (extractAll module.children {}).2 →
            r ∈ registrationsIn module.children := fun h =>
        (mem_registrationsIn_extractAll _ _ r h).resolve_right List.not_mem_nil
      rcases mem_insertAfterHead.mp hn with hnew | hitem
      · obtain ⟨e, he, hne⟩ := List.mem_flatMap.mp hnew
        rcases mem_registrationsIn_items.mp (mem_registrationsIn.mpr ⟨n, hne, hr⟩) with heq | hf
        · exact .inr ⟨e.name, List.mem_map.mpr ⟨e, he, rfl⟩, heq⟩
        · exact .inl (hold (.inr (mem_registrationsIn.mpr ⟨_, List.mem_map.mpr ⟨e, he, rfl⟩, hf⟩)))
      · exact .inl (hold (.inl (mem_registrationsIn.mpr ⟨n, hitem, hr⟩)))

/-- The names of closures that are moved out are generated. -/
theorem exists_extractedName_of_mem_movedNames {items : List Node} {name : String}
    (h : name ∈ movedNames items) : ∃ k, name = extractedName k := by
  obtain ⟨e, he, hname⟩ := List.mem_map.mp h
  obtain ⟨k, hk⟩ := List.getElem?_of_mem he
  obtain ⟨path, c, site, st, -, -, he, -⟩ := @exists_movedOut_of_found none .generated _ _ _ hk
  refine ⟨k, ?_⟩
  rw [← hname, he]
  cases site <;> rfl

/-! ## The two sides of a server module -/

/-- What is registered in a module in the server graph: the functions that it exports where it
declares them and the closures that are moved out of it, and nothing that it did not register
itself. -/
structure RegisteredNames (id : String) (module out : Node) (direct moved : List String) :
    Prop where
  generated : ∀ name ∈ moved, ∃ k, name = extractedName k
  registered : ∀ name, name ∈ direct ∨ name ∈ moved → (id, name) ∈ registrations out
  only : ∀ name, (id, name) ∈ registrations out →
    (name ∈ direct ∨ name ∈ moved) ∨ (id, name) ∈ registrations module

variable {shebang : Option String} {sp : Span} {items : List Node}

/-- An import registers nothing. -/
theorem mem_registrationsIn_insertAfterHead {new : Node} (hnew : registrations new = [])
    (items : List Node) (r : String × String) :
    r ∈ registrationsIn (insertAfterHead [new] items) ↔ r ∈ registrationsIn items := by
  rw [mem_registrationsIn, mem_registrationsIn]
  constructor
  · rintro ⟨n, hn, hr⟩
    rcases mem_insertAfterHead.mp hn with himport | hitem
    · rw [List.mem_singleton.mp himport, hnew] at hr
      exact absurd hr List.not_mem_nil
    · exact ⟨n, hitem, hr⟩
  · rintro ⟨n, hn, hr⟩
    exact ⟨n, mem_insertAfterHead.mpr (.inr hn), hr⟩

/-- What a server module without its directive becomes in the server graph. -/
theorem serverSide_ok (id : String) (shebang : Option String) (sp : Span) (items : List Node) :
    ∃ out changed moved,
      serverSide (.ok id) true (.mk (.module (.module_ shebang)) sp items) = .ok (out, changed) ∧
      RegisteredNames id (.mk (.module (.module_ shebang)) sp items) out
        (items.flatMap directFunctions) moved := by
  obtain ⟨new, registered, hitems, hregisters⟩ := registerItems_ok id items
  obtain ⟨m, extracted, hextract, hkind, hcarried, hmoved, honly⟩ :=
    extractModule_ok id (.mk (.module (.module_ shebang)) sp new)
  obtain ⟨k, msp, cs⟩ := m
  rw [Node.kind_mk, Node.kind_mk] at hkind
  subst hkind
  -- With the import or without it, the module registers the same.
  obtain ⟨out, hside, hout⟩ : ∃ out,
      serverSide (.ok id) true (.mk (.module (.module_ shebang)) sp items) =
        .ok (out, registered || extracted) ∧
      ∀ r, r ∈ registrations out ↔ r ∈ registrationsIn cs := by
    unfold serverSide registerExports
    rw [if_pos rfl, Node.children_mk, hitems]
    change ∃ out, (extractModule (.ok id) (.mk (.module (.module_ shebang)) sp new) >>= _) = _ ∧ _
    rw [hextract]
    change ∃ out, (if registered || extracted then Except.ok _ else Except.ok _) = _ ∧ _
    cases registered || extracted with
    | true =>
      refine ⟨_, rfl, fun r => ?_⟩
      rw [withItems, Node.kind_mk, registrations_module]
      exact mem_registrationsIn_insertAfterHead rfl cs r
    | false => exact ⟨_, rfl, fun _ => Iff.rfl⟩
  refine ⟨_, _, movedNames new, hside,
    fun name => exists_extractedName_of_mem_movedNames, ?_, ?_⟩
  · intro name hname
    rw [hout]
    exact hname.elim (fun h => hcarried _ (hregisters.carried name h)) (hmoved name)
  · intro name hname
    rw [hout] at hname
    rcases honly _ hname with hnew | ⟨name', hname', heq⟩
    · rcases hregisters.only _ hnew with hold | ⟨name', hname', heq⟩
      · exact .inr hold
      · cases heq
        exact .inl (.inl hname')
    · cases heq
      exact .inl (.inr hname')

/-- The directive of a module is one of its items. -/
theorem exists_of_directiveFrom {index i : Nat} {d : Directive} {items : List Node}
    (h : directiveFrom index items = some (i, d)) :
    ∃ j item value, i = index + j ∧ items[j]? = some item ∧ directiveValue? item = some value := by
  induction items generalizing index with
  | nil => exact absurd h (by simp [directiveFrom])
  | cons item items ih =>
    have hlater : directiveFrom (index + 1) items = some (i, d) →
        ∃ j item' value, i = index + j ∧ (item :: items)[j]? = some item' ∧
          directiveValue? item' = some value := by
      intro h
      obtain ⟨j, item', value, hi, hj, hvalue⟩ := ih h
      exact ⟨j + 1, item', value, by omega, hj, hvalue⟩
    rw [directiveFrom] at h
    split at h
    next => exact hlater h
    next =>
      split at h
      next => exact absurd h (by simp)
      next value hvalue =>
        split at h
        next =>
          cases h
          exact ⟨0, item, value, rfl, rfl, hvalue⟩
        next =>
          split at h
          next =>
            cases h
            exact ⟨0, item, value, rfl, rfl, hvalue⟩
          next => exact hlater h

/-- A string on its own exports no function. -/
theorem directFunctions_of_directiveValue? {item : Node} {value : String}
    (h : directiveValue? item = some value) : directFunctions item = [] := by
  obtain ⟨hkind, -⟩ := (directiveValue?_eq_some_iff item value).mp h
  obtain ⟨k, sp, cs⟩ := item
  rw [Node.kind_mk] at hkind
  subst hkind
  rfl

/-- Without its directive a module exports the same functions. -/
theorem mem_directFunctions_eraseIdx {index : Nat} {item : Node} {value name : String}
    (hitem : items[index]? = some item) (hvalue : directiveValue? item = some value) :
    name ∈ (items.eraseIdx index).flatMap directFunctions ↔
      name ∈ items.flatMap directFunctions := by
  rw [List.mem_flatMap, List.mem_flatMap]
  constructor
  · rintro ⟨n, hn, hname⟩
    exact ⟨n, List.mem_of_mem_eraseIdx hn, hname⟩
  · rintro ⟨n, hn, hname⟩
    obtain ⟨j, hj⟩ := List.getElem?_of_mem hn
    refine ⟨n, List.mem_eraseIdx_iff_getElem?.mpr ⟨j, ?_, hj⟩, hname⟩
    -- The item that exports something is not the directive.
    intro hindex
    rw [hindex, hitem] at hj
    cases hj
    rw [directFunctions_of_directiveValue? hvalue] at hname
    exact absurd hname List.not_mem_nil

/-- Every exported name of a server module has its reference in the browser. -/
theorem serverReferences_ok {module : Node} (h : isServerModule module = true) (id : String) :
    ∃ stubs, serverReferences (.ok id) module = .ok (some stubs) ∧
      ∀ name ∈ exportNames module, serverReference id name ∈ stubs.children :=
  ⟨_, serverReferences_of_isServerModule h id, fun _ hname =>
    List.mem_append_right _ (List.mem_map_of_mem hname)⟩

/-- **What can be called is what is exported where it is declared.** A server module has both its
browser side and its server side. Every function that it exports has a reference; it is registered
under the same id and name if it is exported where it is declared, and otherwise only if its name is
one that is generated for a closure or the module registers it itself. -/
theorem direct_exports_are_registered (clientId : ModuleId) (id : String) (bare : Bool)
    (shebang : Option String) (sp : Span) (items : List Node)
    (h : isServerModule (.mk (.module (.module_ shebang)) sp items) = true) :
    ∃ stubs out changed moved,
      serverReferences (.ok id) (.mk (.module (.module_ shebang)) sp items) = .ok (some stubs) ∧
      serverModule ⟨clientId, .ok id, bare⟩ (.mk (.module (.module_ shebang)) sp items) =
        .ok (out, changed) ∧
      (∀ name, ExportsFunction items name → serverReference id name ∈ stubs.children) ∧
      RegisteredNames id (.mk (.module (.module_ shebang)) sp items) out
        (items.flatMap directFunctions) moved := by
  obtain ⟨index, hdirective⟩ : ∃ index,
      moduleDirective (.mk (.module (.module_ shebang)) sp items) = some (index, .useServer) := by
    unfold isServerModule at h
    split at h
    next index hindex => exact ⟨index, hindex⟩
    next => exact absurd h (by simp)
  obtain ⟨stubs, hstubs, hreference⟩ := serverReferences_ok h id
  obtain ⟨out, changed, moved, hside, hout⟩ := serverSide_ok id shebang sp (items.eraseIdx index)
  obtain ⟨j, item, value, hj, hitem, hvalue⟩ := exists_of_directiveFrom hdirective
  rw [Nat.zero_add] at hj
  subst hj
  refine ⟨stubs, out, changed, moved, hstubs, ?_, ?_, hout.generated, ?_, ?_⟩
  · unfold serverModule
    rw [hdirective]
    exact hside
  · intro name hname
    exact hreference name (mem_exportNames_of_exportsFunction hname)
  · intro name hname
    refine hout.registered name (hname.imp_left ?_)
    exact (mem_directFunctions_eraseIdx hitem hvalue).mpr
  · intro name hname
    refine (hout.only name hname).imp (Or.imp_left ?_) fun hold => ?_
    · exact (mem_directFunctions_eraseIdx hitem hvalue).mp
    · rw [registrations_module, mem_registrationsIn] at hold ⊢
      obtain ⟨n, hn, hr⟩ := hold
      exact ⟨n, List.mem_of_mem_eraseIdx hn, hr⟩

/-- A server module that declares a function `save` and exports it with some item. -/
def saveModule (exporting : Node → List Node) : Node :=
  Build.module (Build.statement (Build.string Directive.useServer.text) ::
    exporting (Build.node (.stmt (.function false)) [
      Build.ident "save",
      Build.node (.member (.function {})) [
        .group [], .group [], Build.node (.stmt .block) [], .absent, .absent]]))

/-- With `export function save() {}` the reference and the registration agree. -/
theorem declared_export_is_registered :
    let module := saveModule fun save => [Build.node (.module .exportDecl) [save]]
    isServerModule module = true ∧ ∃ stubs out changed moved,
      serverReferences (.ok "m") module = .ok (some stubs) ∧
      serverModule ⟨.ok "m", .ok "m", false⟩ module = .ok (out, changed) ∧
      (∀ name, ExportsFunction module.children name →
        serverReference "m" name ∈ stubs.children) ∧
      RegisteredNames "m" module out (module.children.flatMap directFunctions) moved :=
  ⟨rfl, direct_exports_are_registered (.ok "m") "m" false none .generated _ rfl⟩

/-- With `function save() {}` and `export { save }` the browser has a reference to a function that
the server does not register. -/
theorem specifier_export_is_not_registered :
    let module := saveModule fun save => [save, Build.node (.module (.exportNamed false)) [
      .group [Build.node (.module (.exportSpecifier false)) [Build.ident "save", .absent]],
      .absent, .absent]]
    ExportsFunction module.children "save" ∧ ∃ stubs out changed,
      serverReferences (.ok "m") module = .ok (some stubs) ∧
      serverReference "m" "save" ∈ stubs.children ∧
      serverModule ⟨.ok "m", .ok "m", false⟩ module = .ok (out, changed) ∧
      ("m", "save") ∉ registrations out := by
  refine ⟨?_, _, _, _, rfl, ?_, rfl, by decide⟩
  · exact .specifier (f := "save") (List.mem_cons_of_mem _ (List.mem_cons_of_mem _
      (List.mem_singleton.mpr rfl))) rfl (List.mem_singleton.mpr rfl)
      (List.mem_cons_of_mem _ List.mem_cons_self) (List.mem_singleton.mpr rfl) rfl rfl
  · exact List.mem_cons_of_mem _ (List.mem_cons_of_mem _ List.mem_cons_self)

end ServerBoundary.Boundary
