import ServerBoundary.Proofs.ClientModule.ClientForm
import ServerBoundary.Proofs.Grammar.Module
import ServerBoundary.Proofs.References.Stubs

/-!
# The names of generated stubs

A stub is an exported constant with the name of the export it stands for. A declaration can only
export a name that may be bound, but a clause may export anything under any name, and nothing looks
at these names when a constant is made of them.

> `stubs_are_well_formed`: the constants of a generated module have names that may be bound exactly
> if the clauses of the source name nothing else, and `this` is not exported. Stubs bind no name
> twice, unless an export has the name of one of the two functions that the references import.

> `clause_names_are_not_checked`: `export { f as class }` becomes the constant `class`, and an
> exported `callServerRsc` is bound twice.
-/

namespace ServerBoundary.Boundary

open Syntax Grammar

variable {src : List Char} {module stubs out : Node} {name : String}

/-! ## The names of exports -/

/-- The names that an item exports by a clause. -/
def exportClauseNames : Node → List String
  | .mk (.module (.exportNamed _)) _ (.mk .group _ specifiers :: _) =>
    specifiers.filterMap specifierName?
  | _ => []

theorem bindable_of_isNamed {written : Node} {cs : List Node} (h : IsNamed (written :: cs))
    (hname : writtenName? written = some name) : isBindable name = true := by
  unfold writtenName? at hname
  split at hname
  next =>
    cases hname
    exact h
  next => exact h.elim
  next => cases hname

theorem bindable_of_plainName? {d : Node} (hread : ReadFrom src d) (h : plainName? d = some name) :
    isBindable name = true ∨ name = "this" := by
  unfold plainName? at h
  split at h
  next =>
    cases h
    exact ((readFrom_iff rfl).mp hread).1
  next => cases h

/-- A name that is exported where it is declared may be bound. -/
theorem bindable_of_mem_declarationNames {d : Node} (hread : ReadFrom src d)
    (h : name ∈ declarationNames d) : isBindable name = true ∨ name = "this" := by
  unfold declarationNames at h
  split at h
  next => exact .inl (bindable_of_isNamed ((readFrom_iff rfl).mp hread).1 (Option.mem_toList.mp h))
  next => exact .inl (bindable_of_isNamed ((readFrom_iff rfl).mp hread).1 (Option.mem_toList.mp h))
  next =>
    obtain ⟨d', hd', hname⟩ := List.mem_filterMap.mp h
    exact bindable_of_plainName? (((readFrom_iff rfl).mp hread).2 d' hd') hname
  next => exact absurd h List.not_mem_nil

/-- An export is the default, is named in a clause, or is declared. -/
theorem mem_itemExports_cases {item : Node} (hread : ReadFrom src item)
    (h : name ∈ itemExports item) :
    name = defaultName ∨ name ∈ exportClauseNames item ∨ isBindable name = true ∨
      name = "this" := by
  unfold itemExports at h
  split at h
  next =>
    have hd := ((readFrom_iff rfl).mp hread).2 _ (List.mem_singleton_self _)
    exact .inr (.inr (bindable_of_mem_declarationNames hd h))
  next => exact .inr (.inl h)
  next => exact .inl (List.mem_singleton.mp h)
  next => exact .inl (List.mem_singleton.mp h)
  next => exact .inl (List.mem_singleton.mp h)
  next => exact .inl (List.mem_singleton.mp h)
  next => exact absurd h List.not_mem_nil

theorem mem_itemExports_of_exportClauseNames {item : Node} (h : name ∈ exportClauseNames item) :
    name ∈ itemExports item := by
  unfold exportClauseNames at h
  split at h
  next => exact h
  next => exact absurd h List.not_mem_nil

/-- That a clause names only what may be bound, or the default, and nothing is exported as `this`,
which is read as a name where types are written. -/
structure ExportsBindable (module : Node) : Prop where
  clauses : ∀ name ∈ module.children.flatMap exportClauseNames,
    name = defaultName ∨ isBindable name = true
  noThis : "this" ∉ exportNames module

/-- For a module that was read this is so exactly if every export may be bound or is the default. -/
theorem exportsBindable_iff (hread : IsModule src module) :
    ExportsBindable module ↔
      ∀ name ∈ exportNames module, name = defaultName ∨ isBindable name = true := by
  constructor
  · intro h name hname
    obtain ⟨item, hitem, hexport⟩ := List.mem_flatMap.mp (mem_distinct.mp hname)
    rcases mem_itemExports_cases (hread.items item hitem) hexport with rfl | hclause | hbinds | rfl
    · exact .inl rfl
    · exact h.clauses name (List.mem_flatMap.mpr ⟨item, hitem, hclause⟩)
    · exact .inr hbinds
    · exact absurd hname h.noThis
  · intro h
    refine ⟨fun name hname => ?_, fun hthis => absurd (h _ hthis) (by decide)⟩
    obtain ⟨item, hitem, hclause⟩ := List.mem_flatMap.mp hname
    exact h name (mem_distinct.mpr
      (List.mem_flatMap.mpr ⟨item, hitem, mem_itemExports_of_exportClauseNames hclause⟩))

/-! ## The constants of generated modules -/

/-- The names of the variables that an item exports. -/
def constantNames (item : Node) : List String := (exportedDeclarators item).filterMap plainName?

theorem constantNames_exportAs (name : String) (value : Node) :
    constantNames (Build.exportAs name value) = if name = defaultName then [] else [name] := by
  rw [exportAs_eq]
  split <;> rfl

/-- What is read off some stubs, if the default has nothing and any other stub its name. -/
theorem flatMap_exportAs {read : Node → List String} {value : String → Node}
    (hread : ∀ name, read (Build.exportAs name (value name)) =
      if name = defaultName then [] else [name]) (names : List String) :
    (names.map fun name => Build.exportAs name (value name)).flatMap read =
      names.filter (· != defaultName) := by
  induction names with
  | nil => rfl
  | cons name names ih =>
    rw [List.map_cons, List.flatMap_cons, hread, ih, List.filter_cons]
    by_cases h : name = defaultName
    · simp [h]
    · simp [h]

theorem mem_constantNames_renderingStubs (h : renderingStubs module = some stubs) :
    name ∈ stubs.children.flatMap constantNames ↔
      name ∈ exportNames module ∧ name ≠ defaultName := by
  unfold renderingStubs at h
  split at h
  next =>
    cases h
    rw [Build.module, Build.node, Node.children_mk,
      flatMap_exportAs fun name => constantNames_exportAs name _, List.mem_filter, bne_iff_ne]
  next => cases h

theorem mem_constantNames_serverReferences {id : ModuleId}
    (h : serverReferences id module = .ok (some stubs)) :
    name ∈ stubs.children.flatMap constantNames ↔
      name ∈ exportNames module ∧ name ≠ defaultName := by
  obtain ⟨s, -, rfl⟩ := exists_of_serverReferences h
  have himports : referenceImports.flatMap constantNames = [] := rfl
  rw [Build.module, Build.node, Node.children_mk, List.flatMap_append, himports, List.nil_append]
  show name ∈ ((exportNames module).map fun name => Build.exportAs name _).flatMap constantNames ↔ _
  rw [flatMap_exportAs fun name => constantNames_exportAs name _, List.mem_filter, bne_iff_ne]

theorem readFrom_of_mem_exportedDeclarators {item d : Node} (hread : ReadFrom src item)
    (h : d ∈ exportedDeclarators item) : ReadFrom src d := by
  unfold exportedDeclarators at h
  split at h
  next =>
    have hdeclaration := ((readFrom_iff rfl).mp hread).2 _ (List.mem_singleton_self _)
    exact ((readFrom_iff rfl).mp hdeclaration).2 d h
  next => exact absurd h List.not_mem_nil

theorem constantNames_export (used : Option String) (a : AllowedItem) :
    constantNames (a.export used) = [a.name] := by
  cases used <;> rfl

/-- What a client module becomes exports the names of the module, all but the default as constants:
the allowed items are declared under their names, and none is called `default`. -/
theorem mem_constantNames_clientModule {id : ModuleId} {bare : Bool} (hread : IsModule src module)
    (h : clientModule id bare module = .ok out) :
    name ∈ out.children.flatMap constantNames ↔
      name ∈ exportNames module ∧ name ≠ defaultName := by
  obtain ⟨allowed, clientId, ha, -, rfl⟩ := clientModule_eq h
  have hallowed : ∀ a ∈ allowed, a.name ∈ exportNames module ∧ a.name ≠ defaultName := by
    intro a hmem
    refine ⟨mem_exportNames_of_allowed ha (List.mem_map_of_mem hmem), ?_⟩
    obtain ⟨d, hd, hallows⟩ := ((allowedAmong_ok ha).1 a).mp hmem
    obtain ⟨item, hitem, hd⟩ := List.mem_flatMap.mp hd
    have hdeclarator := readFrom_of_mem_exportedDeclarators (hread.items item hitem) hd
    rcases bindable_of_plainName? hdeclarator hallows.name_eq with hbinds | hthis
    · intro hdefault
      rw [hdefault] at hbinds
      exact absurd hbinds (by decide)
    · rw [hthis]
      decide
  have hstub : ∀ stub, name ∈ constantNames (clientStub clientId stub) ↔
      name = stub ∧ stub ≠ defaultName := by
    intro stub
    rw [clientStub, constantNames_exportAs]
    split <;> simp_all
  rw [withItems, Node.children_mk, List.mem_flatMap]
  constructor
  · rintro ⟨item, hitem, hname⟩
    rcases mem_clientItems.mp hitem with rfl | ⟨source, _, hnamed, rfl⟩ | ⟨a, hmem, rfl⟩ |
      ⟨stub, hmem, rfl⟩
    · exact absurd hname List.not_mem_nil
    · have hexport := mem_itemExports_of_exportedDeclarators hname
      rw [(exports_cutTo hnamed).1] at hexport
      exact absurd hexport List.not_mem_nil
    · rw [constantNames_export, List.mem_singleton] at hname
      exact hname ▸ hallowed a hmem
    · obtain ⟨rfl, hdefault⟩ := (hstub stub).mp hname
      exact ⟨(mem_stubNames.mp hmem).1, hdefault⟩
  · rintro ⟨hexport, hdefault⟩
    by_cases hname : name ∈ allowed.map (·.name)
    · obtain ⟨a, hmem, rfl⟩ := List.mem_map.mp hname
      refine ⟨_, mem_clientItems.mpr (.inr (.inr (.inl ⟨a, hmem, rfl⟩))), ?_⟩
      rw [constantNames_export]
      exact List.mem_singleton_self _
    · have hmem := mem_stubNames.mpr ⟨hexport, hname⟩
      exact ⟨_, mem_clientItems.mpr (.inr (.inr (.inr ⟨name, hmem, rfl⟩))),
        (hstub name).mpr ⟨rfl, hdefault⟩⟩

/-! ## Stubs that bind a name twice -/

theorem nodup_exportNames_filter (module : Node) :
    ((exportNames module).filter (· != defaultName)).Nodup :=
  (nodup_distinct _).filter _

theorem nodup_topLevelNames_renderingStubs (h : renderingStubs module = some stubs) :
    (stubs.children.flatMap topLevelNames).Nodup := by
  unfold renderingStubs at h
  split at h
  next =>
    cases h
    rw [Build.module, Build.node, Node.children_mk,
      flatMap_exportAs fun name => topLevelNames_exportAs name _]
    exact nodup_exportNames_filter module
  next => cases h

/-- References bind a name twice exactly if a function that they import is exported. -/
theorem nodup_topLevelNames_serverReferences_iff {id : ModuleId}
    (h : serverReferences id module = .ok (some stubs)) :
    (stubs.children.flatMap topLevelNames).Nodup ↔
      "createServerReference" ∉ exportNames module ∧ "callServerRsc" ∉ exportNames module := by
  obtain ⟨s, -, rfl⟩ := exists_of_serverReferences h
  have himports : referenceImports.flatMap topLevelNames =
      ["createServerReference", "callServerRsc"] := by decide
  have hstubs : ((exportNames module).map (serverReference s)).flatMap topLevelNames =
      (exportNames module).filter (· != defaultName) :=
    flatMap_exportAs (fun name => topLevelNames_exportAs name _) _
  rw [Build.module, Build.node, Node.children_mk, List.flatMap_append, himports, hstubs,
    List.cons_append, List.cons_append, List.nil_append, List.nodup_cons, List.nodup_cons]
  have hother : "createServerReference" ≠ defaultName ∧ "callServerRsc" ≠ defaultName := by decide
  simp [nodup_exportNames_filter module, hother]

/-! ## Well-formed stubs -/

/-- How well formed the modules are that are generated from a module. -/
structure StubsWellFormed (module : Node) : Prop where
  client : ∀ id bare out, clientModule id bare module = .ok out →
    ((∀ name ∈ out.children.flatMap constantNames, isBindable name = true) ↔
      ExportsBindable module)
  references : ∀ id stubs, serverReferences id module = .ok (some stubs) →
    ((∀ name ∈ stubs.children.flatMap constantNames, isBindable name = true) ↔
      ExportsBindable module) ∧
    ((stubs.children.flatMap topLevelNames).Nodup ↔
      "createServerReference" ∉ exportNames module ∧ "callServerRsc" ∉ exportNames module)
  rendering : ∀ stubs, renderingStubs module = some stubs →
    ((∀ name ∈ stubs.children.flatMap constantNames, isBindable name = true) ↔
      ExportsBindable module) ∧
    (stubs.children.flatMap topLevelNames).Nodup

/-- **Stubs are well formed as far as the names of exports are.** Of a source that can be read, the
constants of all generated modules have names that may be bound exactly if its exports may be bound,
and only an export with the name of an imported function is bound twice. -/
theorem stubs_are_well_formed {file source : String} {parsed : Parsed}
    (hparse : parseFile file source = .ok parsed) : StubsWellFormed parsed.module := by
  have hread := isModule_of_parseFile hparse
  have hconstants : ∀ {names : List String},
      (∀ name, name ∈ names ↔ name ∈ exportNames parsed.module ∧ name ≠ defaultName) →
      ((∀ name ∈ names, isBindable name = true) ↔ ExportsBindable parsed.module) := by
    intro names hnames
    rw [exportsBindable_iff hread]
    constructor
    · intro h name hname
      by_cases hdefault : name = defaultName
      · exact .inl hdefault
      · exact .inr (h name ((hnames name).mpr ⟨hname, hdefault⟩))
    · intro h name hname
      obtain ⟨hexport, hdefault⟩ := (hnames name).mp hname
      exact (h name hexport).resolve_left hdefault
  exact {
    client := fun id bare out h => hconstants fun _ => mem_constantNames_clientModule hread h
    references := fun id stubs h => ⟨hconstants fun _ => mem_constantNames_serverReferences h,
      nodup_topLevelNames_serverReferences_iff h⟩
    rendering := fun stubs h => ⟨hconstants fun _ => mem_constantNames_renderingStubs h,
      nodup_topLevelNames_renderingStubs h⟩ }

/-- A server module that exports a function, a constant under another name, and a default. -/
def savingSource : String :=
  "'use server';\nexport async function save() \x7b\x7d\nconst limit = 3;\n" ++
    "export \x7b limit as most \x7d;\nexport default async () => 0;\n"

theorem stubs_of_saving_source :
    ∃ parsed, parseFile "save.ts" savingSource = .ok parsed ∧
      exportNames parsed.module = ["save", "most", "default"] ∧
      ExportsBindable parsed.module ∧ StubsWellFormed parsed.module := by
  have hnames : ((parseFile "save.ts" savingSource).map fun parsed => exportNames parsed.module) =
      .ok ["save", "most", "default"] := by decide +kernel
  obtain ⟨parsed, hparse, hexports⟩ := exists_of_parseFile_map hnames
  refine ⟨parsed, hparse, hexports, ?_, stubs_are_well_formed hparse⟩
  rw [exportsBindable_iff (isModule_of_parseFile hparse), hexports]
  decide

/-- What a module binds and exports, and whether it is a server module. -/
def outline (parsed : Parsed) : List String × List String × Bool :=
  (parsed.module.children.flatMap topLevelNames, parsed.module.children.flatMap itemExports,
    isServerModule parsed.module)

/-- The clause of a server module names its function `class`, and another server module exports a
function that is called as one that references import. Neither binds or exports a name twice. -/
theorem clause_names_are_not_checked :
    (∃ parsed stubs,
      parseFile "f.ts" ("'use server';\nasync function f() \x7b\x7d\n" ++
        "export \x7b f as class \x7d;\n") = .ok parsed ∧
      (parsed.module.children.flatMap topLevelNames).Nodup ∧
      (parsed.module.children.flatMap itemExports).Nodup ∧
      serverReferences (.ok "m") parsed.module = .ok (some stubs) ∧
      "class" ∈ stubs.children.flatMap constantNames ∧ isBindable "class" = false) ∧
    ∃ parsed stubs,
      parseFile "call.ts" "'use server';\nexport async function callServerRsc() \x7b\x7d\n" =
        .ok parsed ∧
      (parsed.module.children.flatMap topLevelNames).Nodup ∧
      (parsed.module.children.flatMap itemExports).Nodup ∧
      serverReferences (.ok "m") parsed.module = .ok (some stubs) ∧
      ¬(stubs.children.flatMap topLevelNames).Nodup := by
  constructor
  · have hread : ((parseFile "f.ts" ("'use server';\nasync function f() \x7b\x7d\n" ++
        "export \x7b f as class \x7d;\n")).map outline) = .ok (["f"], ["class"], true) := by
      decide +kernel
    obtain ⟨parsed, hparse, houtline⟩ := exists_of_parseFile_map hread
    obtain ⟨hbound, hrest⟩ := Prod.mk.inj houtline
    obtain ⟨hexports, hserver⟩ := Prod.mk.inj hrest
    have hnames : exportNames parsed.module = ["class"] := by rw [exportNames, hexports]; decide
    have hstubs := serverReferences_of_isServerModule hserver "m"
    refine ⟨parsed, _, hparse, by rw [hbound]; decide, by rw [hexports]; decide, hstubs, ?_,
      by decide⟩
    rw [mem_constantNames_serverReferences hstubs, hnames]
    decide
  · have hread : ((parseFile "call.ts"
        "'use server';\nexport async function callServerRsc() \x7b\x7d\n").map outline) =
          .ok (["callServerRsc"], ["callServerRsc"], true) := by
      decide +kernel
    obtain ⟨parsed, hparse, houtline⟩ := exists_of_parseFile_map hread
    obtain ⟨hbound, hrest⟩ := Prod.mk.inj houtline
    obtain ⟨hexports, hserver⟩ := Prod.mk.inj hrest
    have hnames : exportNames parsed.module = ["callServerRsc"] := by
      rw [exportNames, hexports]
      decide
    have hstubs := serverReferences_of_isServerModule hserver "m"
    refine ⟨parsed, _, hparse, by rw [hbound]; decide, by rw [hexports]; decide, hstubs, ?_⟩
    rw [nodup_topLevelNames_serverReferences_iff hstubs, hnames]
    decide

end ServerBoundary.Boundary
