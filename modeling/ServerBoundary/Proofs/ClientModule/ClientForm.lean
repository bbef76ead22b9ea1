import Mathlib.Data.List.Nodup
import ServerBoundary.Proofs.ClientModule.TopLevel
import ServerBoundary.Proofs.Extraction.GeneratedNames

/-!
# The client references of a module

The server graph of a client module exports what the module exports, and every export is declared
there with a value: an allowed item with its own, any other with a call that registers a stub. What
is left of the module beside them is what the values need.

> `exportedValues_flatMap`: the exports and their values, in the order in which they stand.

> `nodup_topLevelNames_clientModule`: the names that are bound are different. The allowed items and
> the stubs are not among the names that are kept, because these are found without entering them.

> `client_references_are_complete`: both together, with what is left of the module.
-/

namespace ServerBoundary.Boundary

open Syntax

/-! ## The allowed items -/

/-- A declarator that is allowed on the server: a plain name with a call of the marker as its value,
with one argument that is not spread. -/
inductive Allows (marker : String) : Node → AllowedItem → Prop
  | call {definite o : Bool} {sp psp csp isp gsp : Span} {pcs ics : List Node} {name : String}
      {value typeArguments : Node} : value.kind ≠ .expr .spread →
      Allows marker
        (.mk (.stmt (.declarator definite)) sp [.mk (.pattern (.binding name o)) psp pcs,
          .mk (.expr (.call false)) csp
            [.mk (.ident marker) isp ics, .mk .group gsp [value], typeArguments]])
        ⟨name, value⟩

variable {marker : String}

/-- The allowed item of a declarator is found, and no other. -/
theorem allowedDeclarator_eq_iff {d : Node} {a : AllowedItem} :
    allowedDeclarator marker d = .ok (some a) ↔ Allows marker d a := by
  constructor
  · intro h
    unfold allowedDeclarator at h
    split at h
    next =>
      split at h
      next hmarker =>
        rw [beq_iff_eq] at hmarker
        subst hmarker
        split at h
        next =>
          split at h
          next => cases h
          next hspread =>
            cases h
            exact .call hspread
        next => cases h
      next => cases h
    next => cases h
  · rintro ⟨hspread⟩
    rw [allowedDeclarator, if_pos (beq_self_eq_true marker)]
    split
    next hkind => exact absurd hkind hspread
    next => rfl

/-- An allowed item has the name of its declarator. -/
theorem Allows.name_eq {d : Node} {a : AllowedItem} (h : Allows marker d a) :
    plainName? d = some a.name := by
  cases h
  rfl

/-- The value of an allowed item stands in its declarator. -/
theorem Allows.mem_occurrences {d : Node} {a : AllowedItem} {x : String} (h : Allows marker d a)
    (hx : x ∈ a.value.occurrences) : x ∈ d.occurrences := by
  cases h
  refine Node.mem_occurrences_of_mem rfl (List.mem_cons_of_mem _ (List.mem_singleton_self _)) ?_
  refine Node.mem_occurrences_of_mem rfl (List.mem_cons_of_mem _ List.mem_cons_self) ?_
  exact Node.mem_occurrences_of_mem rfl (List.mem_singleton_self _) hx

/-- Among some declarators the allowed items are found, in the order of the declarators. -/
theorem allowedAmong_ok {ds : List Node} {allowed : List AllowedItem}
    (h : allowedAmong marker ds = .ok allowed) :
    (∀ a, a ∈ allowed ↔ ∃ d ∈ ds, Allows marker d a) ∧
      (allowed.map (·.name)).Sublist (ds.filterMap plainName?) := by
  induction ds generalizing allowed with
  | nil =>
    cases h
    exact ⟨by simp, .refl _⟩
  | cons d ds ih =>
    rw [allowedAmong] at h
    cases hd : allowedDeclarator marker d with
    | error e =>
      rw [hd] at h
      cases h
    | ok found =>
      rw [hd] at h
      cases hds : allowedAmong marker ds with
      | error e =>
        rw [hds] at h
        cases h
      | ok rest =>
        rw [hds] at h
        cases h
        obtain ⟨hmem, hnames⟩ := ih hds
        have hfound : ∀ a, found = some a ↔ Allows marker d a := fun a => by
          rw [← allowedDeclarator_eq_iff, hd, Except.ok.injEq]
        constructor
        · intro a
          rw [List.mem_append, Option.mem_toList, hmem, hfound]
          simp
        · rw [List.map_append]
          cases found with
          | none =>
            rw [List.filterMap_cons]
            split
            next => exact hnames
            next => exact hnames.cons _
          | some a =>
            rw [List.filterMap_cons_some ((hfound a).mp rfl).name_eq]
            exact hnames.cons_cons _

/-! ## The names of the allowed items -/

theorem sublist_exportedDeclarators (item : Node) :
    ((exportedDeclarators item).filterMap plainName?).Sublist (topLevelNames item) := by
  unfold exportedDeclarators
  split
  next => exact sublist_declaratorNames _
  next => exact List.nil_sublist _

theorem mem_itemExports_of_exportedDeclarators {item : Node} {x : String}
    (h : x ∈ (exportedDeclarators item).filterMap plainName?) : x ∈ itemExports item := by
  unfold exportedDeclarators at h
  split at h
  next => exact h
  next => exact absurd h (by simp)

theorem mem_occurrences_of_exportedDeclarators {item d : Node} {x : String}
    (hd : d ∈ exportedDeclarators item) (hx : x ∈ d.occurrences) : x ∈ item.occurrences := by
  unfold exportedDeclarators at hd
  split at hd
  next =>
    refine Node.mem_occurrences_of_mem rfl (List.mem_singleton_self _) ?_
    exact Node.mem_occurrences_of_mem rfl hd hx
  next => exact absurd hd List.not_mem_nil

variable {module : Node} {allowed : List AllowedItem}

/-- The allowed items have names that the module binds, in the same order. -/
theorem sublist_allowedNames
    (h : allowedItems marker module.children = .ok allowed) :
    (allowed.map (·.name)).Sublist (module.children.flatMap topLevelNames) := by
  refine (allowedAmong_ok h).2.trans ?_
  rw [List.filterMap_flatMap]
  exact List.Sublist.flatMap_right _ fun item _ => sublist_exportedDeclarators item

/-- The allowed items have names that the module exports. -/
theorem mem_exportNames_of_allowed {name : String}
    (h : allowedItems marker module.children = .ok allowed) (hname : name ∈ allowed.map (·.name)) :
    name ∈ exportNames module := by
  have hmem := (allowedAmong_ok h).2.subset hname
  rw [List.filterMap_flatMap, List.mem_flatMap] at hmem
  obtain ⟨item, hitem, hx⟩ := hmem
  exact mem_distinct.mpr
    (List.mem_flatMap.mpr ⟨item, hitem, mem_itemExports_of_exportedDeclarators hx⟩)

/-- What the allowed items use stands in an item of the module. -/
theorem exists_item_of_mem_seedNames {x : String}
    (h : allowedItems marker module.children = .ok allowed) (hx : x ∈ seedNames allowed) :
    ∃ item ∈ module.children, x ∈ item.occurrences := by
  obtain ⟨a, ha, hx⟩ := List.mem_flatMap.mp hx
  obtain ⟨d, hd, hallows⟩ := ((allowedAmong_ok h).1 a).mp ha
  obtain ⟨item, hitem, hd⟩ := List.mem_flatMap.mp hd
  exact ⟨item, hitem,
    mem_occurrences_of_exportedDeclarators hd (hallows.mem_occurrences (mem_distinct.mp hx))⟩

/-! ## The names that are kept -/

theorem mem_occurrences_of_topLevelDeclarations {item d : Node} {name x : String}
    (hd : (name, d) ∈ topLevelDeclarations item) (hx : x ∈ d.occurrences) :
    x ∈ item.occurrences := by
  unfold topLevelDeclarations at hd
  split at hd
  next w b sp ds =>
    obtain ⟨d', hd', heq⟩ := List.mem_filterMap.mp hd
    obtain ⟨_, _, heq⟩ := Option.map_eq_some_iff.mp heq
    cases heq
    exact Node.mem_occurrences_of_mem rfl hd' hx
  next =>
    cases List.mem_singleton.mp hd
    exact hx
  next =>
    cases List.mem_singleton.mp hd
    exact hx
  next => exact absurd hd List.not_mem_nil

/-- The names that are kept stand in the module. -/
theorem exists_item_of_mem_keptNames {x : String}
    (h : allowedItems marker module.children = .ok allowed) (hx : x ∈ keptNames module allowed) :
    ∃ item ∈ module.children, x ∈ item.occurrences := by
  cases mem_reachableNames_iff.mp hx with
  | seed hseed _ => exact exists_item_of_mem_seedNames h hseed
  | use _ hd hused _ =>
    obtain ⟨item, hitem, hd⟩ := List.mem_flatMap.mp hd
    exact ⟨item, hitem, mem_occurrences_of_topLevelDeclarations hd hused⟩

/-- No name that is kept is exported. -/
theorem not_mem_exportNames_of_mem_keptNames {x : String} (hx : x ∈ keptNames module allowed) :
    x ∉ exportNames module := fun hexport =>
  (mem_reachableNames_iff.mp hx).not_excluded (mem_excludedNames.mpr (.inr (.inl hexport)))

/-- Without allowed items no name is kept. -/
theorem keptNames_nil (module : Node) : keptNames module [] = [] := by
  refine List.eq_nil_iff_forall_not_mem.mpr fun x hx => ?_
  exact Reachable.least (S := fun _ => False) (fun _ hseed _ => absurd hseed List.not_mem_nil)
    (fun _ _ _ hfalse _ _ _ => hfalse) (mem_reachableNames_iff.mp hx)

/-- Without names nothing is left. -/
theorem retainItems_nil (items : List Node) : retainItems [] items = [] := by
  rw [retainItems_eq, List.map_eq_nil_iff, List.filter_eq_nil_iff]
  intro item _
  rw [Bool.not_eq_true, hasNamed, List.any_eq_false]
  rintro ⟨name?, d⟩ _
  cases name? with
  | none => simp [isNamed]
  | some name => simp [isNamed]

/-! ## The names that are bound -/

/-- The names that the stubs bind, in the order of the stubs. -/
theorem sublist_topLevelNames_clientStubs (names : List String) (id : String) :
    ((clientStubs names id).flatMap topLevelNames).Sublist names := by
  induction names with
  | nil => exact .refl _
  | cons name names ih =>
    rw [clientStubs, List.map_cons, List.flatMap_cons, topLevelNames_clientStub]
    split
    next => exact ih.cons name
    next => exact ih.cons_cons name

/-- **No two items of the server graph bind one name.** The import has a name that no identifier and
no export of the module has, no name that is kept is exported, and a stub is only made for an export
that is no allowed item. -/
theorem nodup_topLevelNames_clientModule {id : String} {used : Option String}
    (h : allowedItems marker module.children = .ok allowed)
    (hnodup : (module.children.flatMap topLevelNames).Nodup)
    (hidentifiers : ∀ item ∈ module.children, ∀ x ∈ item.occurrences, isReserved x = false)
    (hexports : ∀ x ∈ exportNames module, isReserved x = false) :
    ((clientItems module allowed used id).flatMap topLevelNames).Nodup := by
  have hretained := hnodup.sublist
    (sublist_topLevelNames_retainItems (keptNames module allowed) module.children)
  have hallowed := hnodup.sublist (sublist_allowedNames h)
  have hbound : (allowed.map (·.export used)).flatMap topLevelNames = allowed.map (·.name) := by
    simp only [List.flatMap_map, topLevelNames_export]
    exact List.map_eq_flatMap.symm
  rw [clientItems, List.flatMap_cons, List.flatMap_append, List.flatMap_append,
    topLevelNames_clientImport, hbound, List.singleton_append, List.nodup_cons]
  have hsub := sublist_topLevelNames_clientStubs (stubNames module allowed) id
  constructor
  · intro hmem
    have hunreserved : isReserved registerClient = false := by
      rcases List.mem_append.mp hmem with hmem | hstub
      · rcases List.mem_append.mp hmem with hkept | hname
        · obtain ⟨item, hitem, hx⟩ :=
            exists_item_of_mem_keptNames h (mem_of_mem_topLevelNames_retainItems hkept)
          exact hidentifiers item hitem _ hx
        · exact hexports _ (mem_exportNames_of_allowed h hname)
      · exact hexports _ (mem_stubNames.mp (hsub.subset hstub)).1
    exact absurd hunreserved (by decide)
  · refine List.Nodup.append (List.Nodup.append hretained hallowed ?_)
      ((nodup_stubNames module allowed).sublist hsub) ?_
    · intro x hkept hname
      exact not_mem_exportNames_of_mem_keptNames (mem_of_mem_topLevelNames_retainItems hkept)
        (mem_exportNames_of_allowed h hname)
    · intro x hmem hstub
      obtain ⟨hexport, hother⟩ := mem_stubNames.mp (hsub.subset hstub)
      rcases List.mem_append.mp hmem with hkept | hname
      · exact not_mem_exportNames_of_mem_keptNames (mem_of_mem_topLevelNames_retainItems hkept)
          hexport
      · exact hother hname

/-! ## The values of the exports -/

/-- The name of a declarator that is a plain name, with its value. -/
def declaredValue? : Node → Option (String × Node)
  | .mk (.stmt (.declarator _)) _ [.mk (.pattern (.binding name _)) _ _, value] =>
    some (name, value)
  | _ => none

/-- The names that an item exports with a value: exported variables, and an expression that is the
default. -/
def exportedValues : Node → List (String × Node)
  | .mk (.module .exportDecl) _ [.mk (.stmt (.variable_ _ _)) _ ds] => ds.filterMap declaredValue?
  | .mk (.module .exportDefaultExpr) _ [value] => [(defaultName, value)]
  | _ => []

/-- A call that registers a value as a client reference. -/
def clientRegistration (value : Node) (id name : String) : Node :=
  Build.call registerClient [value, Build.string id, Build.string name]

/-- The value that an allowed item is exported with. -/
def AllowedItem.exported (used : Option String) (a : AllowedItem) : Node :=
  match used with
  | none => a.value
  | some id => clientRegistration a.value id a.name

/-- The value of a stub: a function that throws, registered under the name of the export. -/
def stubValue (id name : String) : Node :=
  clientRegistration
    (Build.throwing
      ("It is not possible to invoke a client function from the server: " ++ id ++ "#" ++ name))
    id name

theorem exportedValues_export (used : Option String) (a : AllowedItem) :
    exportedValues (a.export used) = [(a.name, a.exported used)] := by
  cases used with
  | none => rfl
  | some id => rfl

theorem exportedValues_clientStub (id name : String) :
    exportedValues (clientStub id name) = [(name, stubValue id name)] := by
  rw [clientStub, Build.exportAs]
  split
  next h =>
    rw [beq_iff_eq] at h
    subst h
    rfl
  next => rfl

/-- What is left of an item exports nothing. -/
theorem exports_cutTo {names : List String} {item : Node} (h : hasNamed names item = true) :
    itemExports (cutTo names item) = [] ∧ exportedValues (cutTo names item) = [] := by
  rcases cutTo_cases h with ⟨t, sp, cs, heq⟩ | ⟨k, sp, cs, heq⟩
  · rw [heq]
    exact ⟨rfl, rfl⟩
  · rw [heq]
    exact ⟨rfl, rfl⟩

section Items

variable {used : Option String} {id : String}

/-- Every export of the server graph has a value where it stands. -/
theorem itemExports_eq_of_mem_clientItems {item : Node}
    (h : item ∈ clientItems module allowed used id) :
    itemExports item = (exportedValues item).map Prod.fst := by
  rcases mem_clientItems.mp h with rfl | ⟨source, _, hnamed, rfl⟩ | ⟨a, _, rfl⟩ | ⟨name, _, rfl⟩
  · rfl
  · rw [(exports_cutTo hnamed).1, (exports_cutTo hnamed).2]
    rfl
  · cases used with
    | none => rfl
    | some id => rfl
  · rw [exportedValues_clientStub, clientStub, Build.exportAs]
    split
    next h =>
      rw [beq_iff_eq] at h
      subst h
      rfl
    next => rfl

/-- **The exports of the server graph.** The allowed items come first, each with its own value, and
then the stubs. -/
theorem exportedValues_clientItems :
    (clientItems module allowed used id).flatMap exportedValues =
      allowed.map (fun a => (a.name, a.exported used)) ++
        (stubNames module allowed).map (fun name => (name, stubValue id name)) := by
  have hkept : (retainItems (keptNames module allowed) module.children).flatMap exportedValues =
      [] := by
    rw [List.flatMap_eq_nil_iff, retainItems_eq]
    intro item hitem
    obtain ⟨source, hsource, rfl⟩ := List.mem_map.mp hitem
    exact (exports_cutTo (List.mem_filter.mp hsource).2).2
  have himport : exportedValues clientImport = [] := rfl
  rw [clientItems, List.flatMap_cons, List.flatMap_append, List.flatMap_append, himport, hkept,
    List.nil_append, List.nil_append, clientStubs]
  simp only [List.flatMap_map, exportedValues_export, exportedValues_clientStub]
  rw [← List.map_eq_flatMap, ← List.map_eq_flatMap]

/-- The server graph exports each name of the module once, and no other. -/
theorem perm_itemExports_clientItems (h : allowedItems marker module.children = .ok allowed)
    (hnodup : (module.children.flatMap topLevelNames).Nodup) (used : Option String) (id : String) :
    ((clientItems module allowed used id).flatMap itemExports).Perm (exportNames module) := by
  have heq : (clientItems module allowed used id).flatMap itemExports =
      allowed.map (·.name) ++ stubNames module allowed := by
    calc (clientItems module allowed used id).flatMap itemExports
        = (clientItems module allowed used id).flatMap
            fun item => (exportedValues item).map Prod.fst :=
          List.flatMap_congr fun item hitem => itemExports_eq_of_mem_clientItems hitem
      _ = ((clientItems module allowed used id).flatMap exportedValues).map Prod.fst :=
          List.map_flatMap.symm
      _ = _ := by
          rw [exportedValues_clientItems, List.map_append, List.map_map, List.map_map]
          exact congrArg _ (List.map_id _)
  have hdisjoint : ∀ x ∈ allowed.map (·.name), ∀ y ∈ stubNames module allowed, x ≠ y := by
    rintro x hx y hy rfl
    exact (mem_stubNames.mp hy).2 hx
  have hboth : (allowed.map (·.name) ++ stubNames module allowed).Nodup := List.nodup_append.mpr
    ⟨hnodup.sublist (sublist_allowedNames h), nodup_stubNames module allowed, hdisjoint⟩
  rw [heq]
  refine (List.perm_ext_iff_of_nodup hboth (nodup_exportNames module)).mpr fun x => ?_
  rw [List.mem_append, mem_stubNames]
  constructor
  · rintro (hname | ⟨hexport, -⟩)
    · exact mem_exportNames_of_allowed h hname
    · exact hexport
  · intro hexport
    by_cases hname : x ∈ allowed.map (·.name)
    · exact .inl hname
    · exact .inr ⟨hexport, hname⟩

end Items

/-! ## The server graph of a client module -/

/-- What the server graph of a client module is: `allowed` are its allowed items, `stubs` the names
that it exports beside them, and `names` the names that the allowed items need. -/
structure ClientForm (id : ModuleId) (bare : Bool) (module out : Node) (clientId : String)
    (allowed : List AllowedItem) (stubs names : List String) : Prop where
  mem_allowed : ∀ a, a ∈ allowed ↔
    ∃ d ∈ module.children.flatMap exportedDeclarators, Allows (markerIn module.children) d a
  mem_stubs : ∀ name, name ∈ stubs ↔ name ∈ exportNames module ∧ name ∉ allowed.map (·.name)
  mem_names : ∀ name, name ∈ names ↔
    Reachable (module.children.flatMap topLevelDeclarations) (excludedNames module allowed)
      (seedNames allowed) name
  /-- An id is there if anything is registered. -/
  id_eq : id = .ok clientId ∨ stubs = [] ∧ (bare = true ∨ allowed = [])
  /-- It exports what the module exports, and each name once. -/
  exports : (out.children.flatMap itemExports).Perm (exportNames module)
  exports_nodup : (out.children.flatMap itemExports).Nodup
  /-- Every export has a value where it stands: an allowed item its own, which is registered unless
  it is exported bare, and any other export a stub that is registered. -/
  exports_eq : ∀ item ∈ out.children, itemExports item = (exportedValues item).map Prod.fst
  values : out.children.flatMap exportedValues =
    allowed.map (fun a => (a.name, a.exported (if bare then none else some clientId))) ++
      stubs.map (fun name => (name, stubValue clientId name))
  /-- Beside the import and the exports the items are left that have a piece with one of the names,
  cut down to such pieces. -/
  out_eq : out = withItems module (clientImport ::
    ((module.children.filter (hasNamed names)).map (cutTo names) ++
      allowed.map (·.export (if bare then none else some clientId)) ++ clientStubs stubs clientId))
  pieces_eq : ((module.children.filter (hasNamed names)).map (cutTo names)).flatMap pieces =
    (module.children.flatMap pieces).filter (isNamed names)
  only_stubs : allowed = [] →
    out = withItems module (clientImport :: clientStubs stubs clientId)
  /-- No two items bind one name. -/
  nodup : (out.children.flatMap topLevelNames).Nodup

/-- **Every export of a client module is declared once in the server graph.** Of a module that binds
every name once and has no name of the generated kind, each export is an allowed item or a stub,
what is left is what the allowed items need, and no two of these have one name. -/
theorem client_exports_are_declared_once {id : ModuleId} {bare : Bool} {module out : Node}
    (h : clientModule id bare module = .ok out)
    (hnodup : (module.children.flatMap topLevelNames).Nodup)
    (hidentifiers : ∀ item ∈ module.children, ∀ x ∈ item.occurrences, isReserved x = false)
    (hexports : ∀ x ∈ exportNames module, isReserved x = false) :
    ∃ clientId allowed stubs names,
      ClientForm id bare module out clientId allowed stubs names := by
  obtain ⟨allowed, clientId, ha, hid, rfl⟩ := clientModule_eq h
  have hperm := perm_itemExports_clientItems ha hnodup (if bare then none else some clientId)
    clientId
  refine ⟨clientId, allowed, stubNames module allowed, keptNames module allowed, ?_⟩
  exact {
    mem_allowed := (allowedAmong_ok ha).1
    mem_stubs := fun _ => mem_stubNames
    mem_names := fun _ => mem_reachableNames_iff
    id_eq := hid
    exports := hperm
    exports_nodup := hperm.nodup_iff.mpr (nodup_exportNames module)
    exports_eq := fun _ hitem => itemExports_eq_of_mem_clientItems hitem
    values := exportedValues_clientItems
    out_eq := by rw [clientItems, retainItems_eq]
    pieces_eq := by rw [← retainItems_eq, flatMap_pieces_retainItems]
    only_stubs := by
      intro hnone
      rw [clientItems, hnone, keptNames_nil, retainItems_nil]
      rfl
    nodup := nodup_topLevelNames_clientModule ha hnodup hidentifiers hexports }

/-- `sharedModule` exports `shared`, with its own value, and `View`, which becomes a stub. -/
theorem shared_module_declares_shared_and_view :
    (sharedModule.children.flatMap topLevelNames).Nodup ∧
    (∀ item ∈ sharedModule.children, ∀ x ∈ item.occurrences, isReserved x = false) ∧
    (∀ x ∈ exportNames sharedModule, isReserved x = false) ∧
    ∃ out clientId allowed stubs names,
      clientModule (.ok "m") false sharedModule = .ok out ∧
      ClientForm (.ok "m") false sharedModule out clientId allowed stubs names ∧
      out.children.flatMap itemExports = ["shared", "View"] ∧
      out.children.flatMap topLevelNames =
        ["__waku_registerClientReference", "helper", "base", "build", "shared", "View"] := by
  have hnodup : (sharedModule.children.flatMap topLevelNames).Nodup := by decide
  have hidentifiers : ∀ item ∈ sharedModule.children, ∀ x ∈ item.occurrences,
      isReserved x = false := by decide
  have hexports : ∀ x ∈ exportNames sharedModule, isReserved x = false := by decide
  refine ⟨hnodup, hidentifiers, hexports, ?_⟩
  obtain ⟨clientId, allowed, stubs, names, hform⟩ := client_exports_are_declared_once
    (show clientModule (.ok "m") false sharedModule = .ok _ from rfl) hnodup hidentifiers hexports
  exact ⟨_, clientId, allowed, stubs, names, rfl, hform, by decide, by decide⟩

end ServerBoundary.Boundary
