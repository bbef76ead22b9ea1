import ServerBoundary.Proofs.ClientModule.ClientForm

/-!
# What the names in the server graph of a client module stand for

A declaration that is left, or the value of an allowed item, may use any name that the module binds
at its top level. `StillBound` says that the server graph binds the name to what the module binds it
to.

> `retained_names_are_bound`: this is so if the name is bound by a piece that can be left, and if
> nothing else is exported under it.

> `bindsPlainly_of_stillBound`: and only then.

> `destructured_and_aliased_names_dangle`: a name in a pattern is followed, but the declarator with
> the pattern is not left. A name under which something else is exported is not even followed, and
> stands for the stub of that export.
-/

namespace ServerBoundary.Boundary

open Syntax

/-! ## Uses and bindings -/

/-- Whether a node is a statement. In the server graph these are the declarations that are left. -/
def isStatement (n : Node) : Bool :=
  match n.kind with
  | .stmt _ => true
  | _ => false

/-- A name stands in a declaration that is left of a module, or in the value of an allowed item. -/
inductive IsUsed (module out : Node) (x : String) : Prop
  | declaration {item : Node} : item ∈ out.children → isStatement item = true →
      x ∈ item.occurrences → IsUsed module out x
  | value {allowed : List AllowedItem} {a : AllowedItem} :
      allowedItems (markerIn module.children) module.children = .ok allowed → a ∈ allowed →
      x ∈ a.value.occurrences → IsUsed module out x

/-- The name of an export specifier that has no alias, or its own name as its alias. -/
def selfExport? : Node → Option String
  | .mk (.module (.exportSpecifier _)) _ [own, exported] =>
    if exported.isPresent && writtenName? exported != writtenName? own then none
    else writtenName? own
  | _ => none

/-- The names that an item exports for what the module binds to them: those that it declares, and
those of its specifiers, unless these stand for names of another module. -/
def selfExports : Node → List String
  | .mk (.module .exportDecl) _ [d] => declarationNames d
  | .mk (.module (.exportNamed _)) _ (.mk .group _ specifiers :: source :: _) =>
    if source.isPresent then [] else specifiers.filterMap selfExport?
  | _ => []

/-- The server graph binds a name to what the module binds it to: the declaration is left, or it is
exported under this name and has a stub, or the value of an allowed item, in its place. -/
def StillBound (module out : Node) (x : String) : Prop :=
  x ∈ out.children.flatMap topLevelNames ∧
    ((∃ d, (some x, d) ∈ module.children.flatMap pieces ∧
        (some x, d) ∈ out.children.flatMap pieces) ∨
      x ∈ module.children.flatMap selfExports ∧ x ∈ out.children.flatMap itemExports)

/-- A module binds a name by a piece that can be left and exports nothing under it, or exports what
it binds to the name under the name. -/
inductive BindsPlainly (module : Node) (x : String) : Prop
  | piece {item d : Node} : item ∈ module.children → x ∈ topLevelNames item →
      (some x, d) ∈ pieces item → x ∉ exportNames module → BindsPlainly module x
  | exported : x ∈ module.children.flatMap selfExports → BindsPlainly module x

/-! ## Names that are kept -/

/-- What an item exports under its own name is among what it exports. -/
theorem mem_itemExports_of_selfExports {item : Node} {x : String} (h : x ∈ selfExports item) :
    x ∈ itemExports item := by
  unfold selfExports at h
  split at h
  next => exact h
  next t sp gsp specifiers source rest =>
    split at h
    next => exact absurd h List.not_mem_nil
    next =>
      obtain ⟨s, hs, hx⟩ := List.mem_filterMap.mp h
      refine List.mem_filterMap.mpr ⟨s, hs, ?_⟩
      unfold selfExport? at hx
      split at hx
      next own exported =>
        rw [specifierName?]
        split at hx
        next => exact absurd hx (by simp)
        next hself =>
          split
          next hpresent =>
            rw [hpresent, Bool.true_and, Bool.not_eq_true, bne_eq_false_iff_eq] at hself
            rw [hself, hx]
          next => exact hx
      next => exact absurd hx (by simp)
  next => exact absurd h List.not_mem_nil

variable {names : List String}

/-- An item binds a name that is kept also when it is cut down, if it binds it by a piece. -/
theorem mem_topLevelNames_cutTo {item d : Node} {x : String} (hx : x ∈ topLevelNames item)
    (hd : (some x, d) ∈ pieces item) (hname : x ∈ names) :
    x ∈ topLevelNames (cutTo names item) := by
  have hkept : (some x).any names.contains = true := by
    rw [Option.any_some, List.contains_iff_mem]
    exact hname
  unfold pieces at hd
  split at hd
  next t sp gsp specifiers rest =>
    obtain ⟨s, hs, heq⟩ := List.mem_map.mp hd
    obtain ⟨hlocal, rfl⟩ := Prod.mk.inj heq
    rw [cutTo, pieces, map_snd_filter_isNamed]
    refine List.mem_filterMap.mpr ⟨s, List.mem_filter.mpr ⟨hs, ?_⟩, hlocal⟩
    rw [hlocal]
    exact hkept
  next w b sp ds =>
    obtain ⟨d', hd', heq⟩ := List.mem_map.mp hd
    obtain ⟨hplain, rfl⟩ := Prod.mk.inj heq
    rw [cutTo, pieces, map_snd_filter_isNamed]
    refine List.mem_flatMap.mpr ⟨d', List.mem_filter.mpr ⟨hd', ?_⟩, ?_⟩
    · rw [hplain]
      exact hkept
    · rw [boundNames_of_plainName? hplain]
      exact List.mem_singleton_self x
  next => exact hx
  next => exact hx
  next => exact absurd hd List.not_mem_nil

theorem kind_cutTo (names : List String) (item : Node) : (cutTo names item).kind = item.kind := by
  unfold cutTo withPieces
  split
  next => rfl
  next => rfl
  next => rfl

section ClientItems

variable {module : Node} {allowed : List AllowedItem} {used : Option String} {id x : String}

/-- The statements of the server graph are what is left of the statements of the module. -/
theorem exists_statement_of_mem_clientItems {item : Node}
    (h : item ∈ clientItems module allowed used id) (hstatement : isStatement item = true) :
    ∃ source ∈ module.children, isImport source = false ∧
      hasNamed (keptNames module allowed) source = true ∧
      item = cutTo (keptNames module allowed) source := by
  rcases mem_clientItems.mp h with
    rfl | ⟨source, hsource, hnamed, rfl⟩ | ⟨a, _, rfl⟩ | ⟨name, _, rfl⟩
  · exact absurd hstatement (by decide)
  · refine ⟨source, hsource, ?_, hnamed, rfl⟩
    rw [isStatement, kind_cutTo] at hstatement
    unfold isImport
    split
    next => exact absurd hstatement (by simp)
    next => rfl
  · cases used with
    | none => cases hstatement
    | some id => cases hstatement
  · rw [clientStub, Build.exportAs] at hstatement
    split at hstatement
    next => cases hstatement
    next => cases hstatement

/-- **A name that is used is kept**, unless it is the marker or something is exported under it. -/
theorem mem_keptNames_of_isUsed
    (ha : allowedItems (markerIn module.children) module.children = .ok allowed)
    (hused : IsUsed module (withItems module (clientItems module allowed used id)) x)
    (hmarker : x ≠ markerIn module.children) (hexport : x ∉ exportNames module) :
    x ∈ keptNames module allowed := by
  have hexcluded : x ∉ excludedNames module allowed := by
    rw [mem_excludedNames, not_or, not_or]
    exact ⟨fun hname => hexport (mem_exportNames_of_allowed ha hname), hexport, hmarker⟩
  refine mem_reachableNames_iff.mpr ?_
  cases hused with
  | declaration hitem hstatement hx =>
    obtain ⟨source, hsource, himport, hnamed, rfl⟩ :=
      exists_statement_of_mem_clientItems hitem hstatement
    obtain ⟨name, d, hd, hname, hx⟩ :=
      exists_declaration_of_mem_occurrences_cutTo himport hnamed hx
    exact .use (mem_reachableNames_iff.mp hname) (List.mem_flatMap.mpr ⟨source, hsource, hd⟩) hx
      hexcluded
  | value ha' hmem hx =>
    obtain rfl := Except.ok.inj (ha.symm.trans ha')
    exact .seed (List.mem_flatMap.mpr ⟨_, hmem, mem_distinct.mpr hx⟩) hexcluded

/-- A name that is kept is bound by the pieces that are left, which are pieces of the module. -/
theorem stillBound_of_mem_keptNames {item d : Node} (hitem : item ∈ module.children)
    (hbound : x ∈ topLevelNames item) (hd : (some x, d) ∈ pieces item)
    (hkept : x ∈ keptNames module allowed) :
    StillBound module (withItems module (clientItems module allowed used id)) x := by
  have hisNamed : isNamed (keptNames module allowed) (some x, d) = true := by
    rw [isNamed, Option.any_some, List.contains_iff_mem]
    exact hkept
  have hnamed : hasNamed (keptNames module allowed) item = true :=
    List.any_eq_true.mpr ⟨_, hd, hisNamed⟩
  have hleft : cutTo (keptNames module allowed) item ∈ clientItems module allowed used id :=
    mem_clientItems.mpr (.inr (.inl ⟨item, hitem, hnamed, rfl⟩))
  refine ⟨List.mem_flatMap.mpr ⟨_, hleft, mem_topLevelNames_cutTo hbound hd hkept⟩,
    .inl ⟨d, List.mem_flatMap.mpr ⟨item, hitem, hd⟩, List.mem_flatMap.mpr ⟨_, hleft, ?_⟩⟩⟩
  rw [pieces_cutTo hnamed]
  exact List.mem_filter.mpr ⟨hd, hisNamed⟩

/-- A name under which the module exports what it binds to it is bound by an allowed item or by a
stub. -/
theorem stillBound_of_selfExports (hdefault : x ≠ defaultName)
    (h : x ∈ module.children.flatMap selfExports) :
    StillBound module (withItems module (clientItems module allowed used id)) x := by
  obtain ⟨item, hitem, hself⟩ := List.mem_flatMap.mp h
  have hexport : x ∈ exportNames module := mem_distinct.mpr
    (List.mem_flatMap.mpr ⟨item, hitem, mem_itemExports_of_selfExports hself⟩)
  -- Either is an exported constant of that name.
  have hconst : ∃ value, Build.exportConst x value ∈ clientItems module allowed used id := by
    by_cases hname : x ∈ allowed.map (·.name)
    · obtain ⟨a, ha, rfl⟩ := List.mem_map.mp hname
      have hmem : a.export used ∈ clientItems module allowed used id :=
        mem_clientItems.mpr (.inr (.inr (.inl ⟨a, ha, rfl⟩)))
      cases used with
      | none => exact ⟨_, hmem⟩
      | some id => exact ⟨_, hmem⟩
    · have hmem : clientStub id x ∈ clientItems module allowed used id :=
        mem_clientItems.mpr (.inr (.inr (.inr ⟨x, mem_stubNames.mpr ⟨hexport, hname⟩, rfl⟩)))
      rw [clientStub, Build.exportAs, if_neg (by simpa [defaultName] using hdefault)] at hmem
      exact ⟨_, hmem⟩
  obtain ⟨value, hmem⟩ := hconst
  exact ⟨List.mem_flatMap.mpr ⟨_, hmem, List.mem_singleton_self x⟩,
    .inr ⟨h, List.mem_flatMap.mpr ⟨_, hmem, List.mem_singleton_self x⟩⟩⟩

/-- The pieces of the server graph have names that are kept, apart from its own import. -/
theorem mem_keptNames_of_piece {item d : Node} (hregister : x ≠ registerClient)
    (hitem : item ∈ clientItems module allowed used id) (hd : (some x, d) ∈ pieces item) :
    x ∈ keptNames module allowed := by
  rcases mem_clientItems.mp hitem with
    rfl | ⟨source, _, hnamed, rfl⟩ | ⟨a, _, rfl⟩ | ⟨name, _, rfl⟩
  · have hname : some x ∈ (pieces clientImport).map Prod.fst := List.mem_map_of_mem hd
    exact absurd (Option.some.inj (List.mem_singleton.mp hname)) hregister
  · rw [pieces_cutTo hnamed, List.mem_filter, isNamed, Option.any_some,
      List.contains_iff_mem] at hd
    exact hd.2
  · cases used with
    | none => exact absurd hd List.not_mem_nil
    | some id => exact absurd hd List.not_mem_nil
  · rw [clientStub, Build.exportAs] at hd
    split at hd
    next => exact absurd hd List.not_mem_nil
    next => exact absurd hd List.not_mem_nil

/-- A name that is kept and bound in the server graph is bound plainly by the module. -/
theorem bindsPlainly_of_mem_keptNames {item : Node}
    (ha : allowedItems (markerIn module.children) module.children = .ok allowed)
    (hregister : x ≠ registerClient) (hkept : x ∈ keptNames module allowed)
    (hitem : item ∈ clientItems module allowed used id) (hx : x ∈ topLevelNames item) :
    BindsPlainly module x := by
  have hexport := not_mem_exportNames_of_mem_keptNames hkept
  rcases mem_clientItems.mp hitem with
    rfl | ⟨source, hsource, hnamed, rfl⟩ | ⟨a, hmem, rfl⟩ | ⟨name, hstub, rfl⟩
  · rw [topLevelNames_clientImport, List.mem_singleton] at hx
    exact absurd hx hregister
  · obtain ⟨d, hd⟩ := exists_piece_of_mem_topLevelNames hnamed hx
    rw [pieces_cutTo hnamed] at hd
    exact .piece hsource ((sublist_topLevelNames_cutTo hnamed).subset hx) (List.mem_filter.mp hd).1
      hexport
  · rw [topLevelNames_export, List.mem_singleton] at hx
    subst hx
    exact absurd (mem_exportNames_of_allowed ha (List.mem_map_of_mem hmem)) hexport
  · rw [topLevelNames_clientStub] at hx
    split at hx
    next => exact absurd hx List.not_mem_nil
    next =>
      obtain rfl := List.mem_singleton.mp hx
      exact absurd (mem_stubNames.mp hstub).1 hexport

end ClientItems

/-! ## The server graph of a client module -/

/-- **Names keep their meaning in the server graph of a client module.** A name other than the
marker that is used there, and that the module binds plainly, stands for what the module binds to
it. -/
theorem retained_names_are_bound {id : ModuleId} {bare : Bool} {module out : Node} {x : String}
    (h : clientModule id bare module = .ok out) (hused : IsUsed module out x)
    (hmarker : x ≠ markerIn module.children) (hdefault : x ≠ defaultName)
    (hbinds : BindsPlainly module x) : StillBound module out x := by
  obtain ⟨allowed, clientId, ha, -, rfl⟩ := clientModule_eq h
  cases hbinds with
  | piece hitem hbound hd hexport =>
    exact stillBound_of_mem_keptNames hitem hbound hd
      (mem_keptNames_of_isUsed ha hused hmarker hexport)
  | exported hself => exact stillBound_of_selfExports hdefault hself

/-- **The converse.** Only such a name stands for what the module binds to it, apart from the name
that the import of the server graph binds. So any other name that is used dangles: one in a pattern,
the name of a default function or class, and one under which something else is exported. -/
theorem bindsPlainly_of_stillBound {id : ModuleId} {bare : Bool} {module out : Node} {x : String}
    (h : clientModule id bare module = .ok out) (hregister : x ≠ registerClient)
    (hbound : StillBound module out x) : BindsPlainly module x := by
  obtain ⟨allowed, clientId, ha, -, rfl⟩ := clientModule_eq h
  obtain ⟨hbinds, ⟨d, -, hd⟩ | ⟨hself, -⟩⟩ := hbound
  · obtain ⟨item, hitem, hd⟩ := List.mem_flatMap.mp hd
    obtain ⟨item', hitem', hx⟩ := List.mem_flatMap.mp hbinds
    exact bindsPlainly_of_mem_keptNames ha hregister (mem_keptNames_of_piece hregister hitem hd)
      hitem' hx
  · exact .exported hself

/-- In `sharedModule` the value that is allowed uses `build`, whose declaration is left. -/
theorem build_is_bound :
    ∃ out, clientModule (.ok "m") false sharedModule = .ok out ∧ IsUsed sharedModule out "build" ∧
      "build" ≠ markerIn sharedModule.children ∧ "build" ≠ defaultName ∧
      BindsPlainly sharedModule "build" ∧ StillBound sharedModule out "build" := by
  have hmarker : "build" ≠ markerIn sharedModule.children := by decide
  have hdefault : "build" ≠ defaultName := by decide
  have hused : ∀ out, IsUsed sharedModule out "build" := fun out =>
    .value (a := ⟨"shared", Build.call "build" []⟩) rfl (List.mem_singleton_self _) (by decide)
  have hbinds : BindsPlainly sharedModule "build" :=
    .piece (List.mem_of_getElem? (show sharedModule.children[4]? = some _ from rfl)) (by decide)
      (List.mem_singleton_self _) (by decide)
  refine ⟨_, rfl, hused _, hmarker, hdefault, hbinds, ?_⟩
  exact retained_names_are_bound (show clientModule (.ok "m") false sharedModule = .ok _ from rfl)
    (hused _) hmarker hdefault hbinds

/-! ## Names that dangle -/

/-- Every name of the server graph that the module binds, other than the marker, still stands for
what the module binds to it. -/
def NothingDangles (module out : Node) : Prop :=
  ∀ x, IsUsed module out x → x ≠ markerIn module.children →
    x ∈ module.children.flatMap topLevelNames → StillBound module out x

/-- A module that imports `settings`, takes `theme` out of it with a pattern, and allows `theme` on
the server. -/
def destructuringModule : Node :=
  let shorthand (name : String) : Node :=
    Build.node (.pattern .shorthand) [Build.binding name, .absent]
  Build.module [
    Build.statement (Build.string Directive.useClient.text),
    Build.importAs markerName markerName markerSource,
    Build.importAs "settings" "settings" "./settings",
    Build.constant (Build.node (.pattern (.object false)) [.group [shorthand "theme"], .absent])
      (Build.ident "settings"),
    Build.exportConst "title" (Build.call markerName [Build.ident "theme"])]

/-- A module that declares `first` and `second`, exports `first` under the name `second`, and allows
`second` on the server. -/
def aliasingModule : Node :=
  Build.module [
    Build.statement (Build.string Directive.useClient.text),
    Build.importAs markerName markerName markerSource,
    Build.constant (Build.binding "first") (Build.string "a"),
    Build.constant (Build.binding "second") (Build.string "b"),
    Build.node (.module (.exportNamed false)) [
      .group [Build.node (.module (.exportSpecifier false))
        [Build.ident "first", Build.ident "second"]],
      .absent, .absent],
    Build.exportConst "title" (Build.call markerName [Build.ident "second"])]

/-- In the server graph of the first module nothing binds `theme`. In that of the second one
`second` is the stub of the export and not the constant. -/
theorem destructured_and_aliased_names_dangle :
    (destructuringModule.children.flatMap topLevelNames).Nodup ∧
    (aliasingModule.children.flatMap topLevelNames).Nodup ∧
    (∃ out, clientModule (.ok "m") false destructuringModule = .ok out ∧
      ¬ NothingDangles destructuringModule out) ∧
    ∃ out, clientModule (.ok "m") false aliasingModule = .ok out ∧
      ¬ NothingDangles aliasingModule out := by
  refine ⟨by decide, by decide, ⟨_, rfl, fun h => ?_⟩, ⟨_, rfl, fun h => ?_⟩⟩
  · have hused : ∀ out, IsUsed destructuringModule out "theme" := fun _ =>
      .value (a := ⟨"title", Build.ident "theme"⟩) rfl (List.mem_singleton_self _) (by decide)
    exact absurd (h "theme" (hused _) (by decide) (by decide)).1 (by decide)
  · have hused : ∀ out, IsUsed aliasingModule out "second" := fun _ =>
      .value (a := ⟨"title", Build.ident "second"⟩) rfl (List.mem_singleton_self _) (by decide)
    rcases (h "second" (hused _) (by decide) (by decide)).2 with ⟨d, -, hd⟩ | ⟨hself, -⟩
    · have hname : some "second" ∈ List.map Prod.fst _ := List.mem_map_of_mem hd
      exact absurd hname (by decide)
    · exact absurd hself (by decide)

end ServerBoundary.Boundary
