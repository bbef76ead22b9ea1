import ServerBoundary.Proofs.ClientModule.ClientForm

/-!
# The name under which the marker is imported

A client module calls the marker by the name that its imports give it, and `markerIn` finds this
name from one import alone: the first from the marker's module, whatever that one imports.

> `allowedItems_eq_error_iff`: the allowed items of a module are found unless some call of the
> marker is misused.

> `marker_is_recognised_iff`: of a module that imports the marker under one name only, the calls
> under this name are recognised if and only if it is the marker's own name or the first import from
> its module brings it. Then they are all treated as allowed, however the imports are split and
> ordered.

> `marker_of_a_later_import_is_missed`: the calls under a name that a later import brings are not.
-/

namespace ServerBoundary.Boundary

open Syntax

/-! ## Calls of the marker -/

/-- A declarator that misuses the marker: its value is a call of it that has not one argument, or
one that is spread. -/
inductive Misuses (marker : String) : Node → Prop
  | call {definite o : Bool} {sp psp csp isp gsp : Span} {pcs ics args : List Node} {name : String}
      {typeArguments : Node} : (args.length ≠ 1 ∨ ∃ arg ∈ args, arg.kind = .expr .spread) →
      Misuses marker
        (.mk (.stmt (.declarator definite)) sp [.mk (.pattern (.binding name o)) psp pcs,
          .mk (.expr (.call false)) csp
            [.mk (.ident marker) isp ics, .mk .group gsp args, typeArguments]])

variable {marker : String}

/-- A declarator is refused if it misuses the marker, and for no other reason. -/
theorem allowedDeclarator_eq_error_iff {d : Node} {e : BoundaryError} :
    allowedDeclarator marker d = .error e ↔ e = .markerArguments ∧ Misuses marker d := by
  constructor
  · intro h
    unfold allowedDeclarator at h
    split at h
    next =>
      split at h
      next hmarker =>
        rw [beq_iff_eq] at hmarker
        subst hmarker
        split at h
        next arg =>
          split at h
          next hspread =>
            cases h
            exact ⟨rfl, .call (.inr ⟨arg, List.mem_singleton_self arg, hspread⟩)⟩
          next => cases h
        next args hone =>
          cases h
          refine ⟨rfl, .call (.inl fun hlength => ?_)⟩
          obtain ⟨arg, rfl⟩ := List.length_eq_one_iff.mp hlength
          exact hone arg rfl
      next => cases h
    next => cases h
  · rintro ⟨rfl, ⟨hargs⟩⟩
    unfold allowedDeclarator
    dsimp only
    rw [if_pos (beq_self_eq_true marker)]
    split
    next arg =>
      split
      next => rfl
      next hspread =>
        rcases hargs with hlength | ⟨arg', harg, hkind⟩
        · exact absurd rfl hlength
        · rw [List.mem_singleton.mp harg] at hkind
          exact absurd hkind hspread
    next => rfl

theorem allowedAmong_eq_error_iff {ds : List Node} {e : BoundaryError} :
    allowedAmong marker ds = .error e ↔ e = .markerArguments ∧ ∃ d ∈ ds, Misuses marker d := by
  induction ds with
  | nil => simp [allowedAmong]
  | cons d ds ih =>
    rw [List.exists_mem_cons_iff, and_or_left, ← ih, ← allowedDeclarator_eq_error_iff, allowedAmong]
    cases hd : allowedDeclarator marker d with
    | error e' =>
      -- The other declarators are not looked at, and could be refused for the same reason only.
      constructor
      · rintro ⟨⟩
        exact .inl rfl
      · rintro (h | h)
        · exact congrArg _ (Except.error.inj h)
        · rw [(allowedDeclarator_eq_error_iff.mp hd).1, (ih.mp h).1]
          rfl
    | ok found =>
      cases hds : allowedAmong marker ds with
      | error e' =>
        constructor
        · rintro ⟨⟩
          exact .inr rfl
        · rintro (h | h)
          · cases h
          · exact congrArg _ (Except.error.inj h)
      | ok rest =>
        constructor
        · intro h
          cases h
        · rintro (h | h)
          · cases h
          · cases h

/-- **The allowed items of a module are found unless the marker is misused.** -/
theorem allowedItems_eq_error_iff {items : List Node} {e : BoundaryError} :
    allowedItems marker items = .error e ↔
      e = .markerArguments ∧ ∃ d ∈ items.flatMap exportedDeclarators, Misuses marker d :=
  allowedAmong_eq_error_iff

section Outcome

variable {clientId : String} {bare : Bool} {module : Node} {allowed : List AllowedItem}

/-- With an id at hand a client module whose allowed items are found is kept. -/
theorem keepAllowed_of_allowedItems
    (h : allowedItems (markerIn module.children) module.children = .ok allowed) :
    keepAllowed (.ok clientId) bare module = .ok ⟨.mk module.kind module.span
      (retainItems (keptNames module allowed) module.children ++
        allowed.map (·.export (if bare then none else some clientId))),
      stubNames module allowed⟩ := by
  unfold keepAllowed
  dsimp only
  rw [h]
  cases allowed with
  | nil =>
    rw [List.map_nil, List.append_nil]
    rfl
  | cons a allowed =>
    cases bare with
    | true => rfl
    | false => rfl

theorem clientModule_of_allowedItems
    (h : allowedItems (markerIn module.children) module.children = .ok allowed) :
    clientModule (.ok clientId) bare module = .ok (withItems module
      (clientItems module allowed (if bare then none else some clientId) clientId)) := by
  unfold clientModule
  rw [keepAllowed_of_allowedItems h]
  change (if (stubNames module allowed).isEmpty then _ else _) = _
  cases hempty : (stubNames module allowed).isEmpty with
  | true =>
    rw [if_pos rfl, clientItems, List.isEmpty_iff.mp hempty, clientStubs, List.map_nil,
      List.append_nil]
    rfl
  | false => rfl

theorem clientModule_of_error {e : BoundaryError}
    (h : allowedItems (markerIn module.children) module.children = .error e) (id : ModuleId) :
    clientModule id bare module = .error e := by
  unfold clientModule keepAllowed
  dsimp only
  rw [h]
  rfl

/-- **With an id at hand only a misused marker keeps a client module from the server graph.** -/
theorem clientModule_eq_error_iff {e : BoundaryError} :
    clientModule (.ok clientId) bare module = .error e ↔
      e = .markerArguments ∧
        ∃ d ∈ module.children.flatMap exportedDeclarators,
          Misuses (markerIn module.children) d := by
  rw [← allowedItems_eq_error_iff]
  cases h : allowedItems (markerIn module.children) module.children with
  | error e' =>
    rw [clientModule_of_error h, Except.error.injEq, Except.error.injEq]
  | ok allowed =>
    rw [clientModule_of_allowedItems h]
    exact iff_of_false (by simp) (by simp)

theorem exists_clientModule_iff :
    (∃ out, clientModule (.ok clientId) bare module = .ok out) ↔
      ∀ d ∈ module.children.flatMap exportedDeclarators,
        ¬ Misuses (markerIn module.children) d := by
  cases h : clientModule (.ok clientId) bare module with
  | error e =>
    obtain ⟨-, d, hd, hmisuse⟩ := clientModule_eq_error_iff.mp h
    exact iff_of_false (by simp) fun hnone => hnone d hd hmisuse
  | ok out =>
    refine ⟨fun _ d hd hmisuse => ?_, fun _ => ⟨out, rfl⟩⟩
    rw [clientModule_eq_error_iff.mpr ⟨rfl, d, hd, hmisuse⟩] at h
    cases h

end Outcome

/-! ## The name of the marker -/

/-- Whether an item is an import from the module that exports the marker. -/
def isMarkerImport (item : Node) : Bool := importSource? item == some markerSource

/-- The name that a specifier asks its module for. -/
def importedName? : Node → Option String
  | .mk (.module (.importNamed _)) _ [name, imported] =>
    if imported.isPresent then writtenName? imported else writtenName? name
  | _ => none

/-- The local name of a specifier that imports the marker, whether it renames it or not. -/
def markerLocal? (s : Node) : Option String :=
  if importedName? s == some markerName then localName? s else none

/-- The names under which an item imports the marker. -/
def markerNames (item : Node) : List String :=
  if isMarkerImport item then (importSpecifiers item).filterMap markerLocal? else []

/-- Some import brings the marker under a name, and none brings it under another. -/
structure ImportsMarkerAs (items : List Node) (name : String) : Prop where
  imported : ∃ item ∈ items, name ∈ markerNames item
  only : ∀ item ∈ items, ∀ other ∈ markerNames item, other = name

/-- The name is the marker's own, or the first import from its module brings the marker under it. -/
def IsFoundFirst (items : List Node) (name : String) : Prop :=
  name = markerName ∨ ∃ first, items.find? isMarkerImport = some first ∧ name ∈ markerNames first

theorem mem_markerNames {item : Node} {name : String} :
    name ∈ markerNames item ↔
      isMarkerImport item = true ∧ ∃ s ∈ importSpecifiers item, markerLocal? s = some name := by
  rw [markerNames]
  cases isMarkerImport item with
  | true => simp
  | false => simp

/-- A specifier that renames the marker imports it. -/
theorem markerLocal?_of_renamedMarker? {s : Node} {name : String}
    (h : renamedMarker? s = some name) : markerLocal? s = some name := by
  unfold renamedMarker? at h
  split at h
  next own imported =>
    split at h
    next hrenamed =>
      rw [Bool.and_eq_true] at hrenamed
      rw [markerLocal?, importedName?, if_pos hrenamed.1, if_pos hrenamed.2]
      exact h
    next => cases h
  next => cases h

/-- A specifier that imports the marker under another name than its own renames it. -/
theorem renamedMarker?_of_markerLocal? {s : Node} {name : String} (h : markerLocal? s = some name)
    (hname : name ≠ markerName) : renamedMarker? s = some name := by
  obtain ⟨himports, hlocal⟩ := Option.ite_none_right_eq_some.mp h
  rw [beq_iff_eq] at himports
  unfold importedName? at himports
  split at himports
  next own imported =>
    change writtenName? own = some name at hlocal
    split at himports
    next hpresent => rw [renamedMarker?, hpresent, himports, beq_self_eq_true, hlocal]; rfl
    next => exact absurd (Option.some.inj (hlocal.symm.trans himports)) hname
  next => cases himports

/-- **The search for the name of the marker.** It finds the name of the marker if, and only if, this
is the marker's own or that of the first import from its module. -/
theorem markerIn_eq_iff {items : List Node} {name : String} (h : ImportsMarkerAs items name) :
    markerIn items = name ↔ IsFoundFirst items name := by
  obtain ⟨⟨item, hitem, hmem⟩, honly⟩ := h
  have hsome : (items.find? isMarkerImport).isSome = true :=
    List.find?_isSome.mpr ⟨item, hitem, (mem_markerNames.mp hmem).1⟩
  obtain ⟨first, hfirst⟩ := Option.isSome_iff_exists.mp hsome
  have hmarker : markerIn items =
      ((importSpecifiers first).findSome? renamedMarker?).getD markerName := by
    unfold isMarkerImport at hfirst
    rw [markerIn, hfirst]
  rw [hmarker]
  cases hrenamed : (importSpecifiers first).findSome? renamedMarker? with
  | some other =>
    -- The first import renames the marker, and no import gives it another name.
    obtain ⟨s, hs, hother⟩ := List.exists_of_findSome?_eq_some hrenamed
    have hbrings : other ∈ markerNames first := mem_markerNames.mpr
      ⟨List.find?_some hfirst, s, hs, markerLocal?_of_renamedMarker? hother⟩
    obtain rfl := honly first (List.mem_of_find?_eq_some hfirst) other hbrings
    exact ⟨fun _ => .inr ⟨first, hfirst, hbrings⟩, fun _ => rfl⟩
  | none =>
    constructor
    · exact fun heq => .inl heq.symm
    · rintro (rfl | ⟨first', hfirst', hbrings⟩)
      · rfl
      · obtain rfl := Option.some.inj (hfirst.symm.trans hfirst')
        obtain ⟨-, s, hs, hlocal⟩ := mem_markerNames.mp hbrings
        by_contra hne
        have hnone := List.findSome?_eq_none_iff.mp hrenamed s hs
        rw [renamedMarker?_of_markerLocal? hlocal (Ne.symm hne)] at hnone
        cases hnone

/-! ## Splitting and ordering the imports -/

/-- Two modules that differ only in how their imports from the marker's module are split and
ordered. -/
structure SameImports (module other : Node) : Prop where
  items_eq : (other.children.filter fun item => !isMarkerImport item) =
    module.children.filter fun item => !isMarkerImport item
  specifiers : ((other.children.filter isMarkerImport).flatMap importSpecifiers).Perm
    ((module.children.filter isMarkerImport).flatMap importSpecifiers)

/-- The names under which the marker is imported stand in the specifiers of its imports. -/
theorem flatMap_markerNames (items : List Node) :
    items.flatMap markerNames =
      ((items.filter isMarkerImport).flatMap importSpecifiers).filterMap markerLocal? := by
  induction items with
  | nil => rfl
  | cons item items ih =>
    rw [List.flatMap_cons, ih, markerNames, List.filter_cons]
    split
    next => rw [List.flatMap_cons, List.filterMap_append]
    next => rw [List.nil_append]

/-- The imports from the marker's module export nothing. -/
theorem flatMap_exportedDeclarators_filter (items : List Node) :
    (items.filter fun item => !isMarkerImport item).flatMap exportedDeclarators =
      items.flatMap exportedDeclarators := by
  induction items with
  | nil => rfl
  | cons item items ih =>
    rw [List.flatMap_cons, ← ih, List.filter_cons]
    split
    next => rw [List.flatMap_cons]
    next himport =>
      have hnone : exportedDeclarators item = [] := by
        unfold exportedDeclarators
        split
        next => exact absurd rfl himport
        next => rfl
      rw [hnone, List.nil_append]

section SameImports

variable {module other : Node} {name : String}

theorem SameImports.importsMarkerAs (hsame : SameImports module other)
    (h : ImportsMarkerAs module.children name) : ImportsMarkerAs other.children name := by
  have hperm : (other.children.flatMap markerNames).Perm (module.children.flatMap markerNames) := by
    rw [flatMap_markerNames, flatMap_markerNames]
    exact hsame.specifiers.filterMap _
  constructor
  · exact List.mem_flatMap.mp (hperm.mem_iff.mpr (List.mem_flatMap.mpr h.imported))
  · intro item hitem x hx
    obtain ⟨item', hitem', hx'⟩ := List.mem_flatMap.mp
      (hperm.mem_iff.mp (List.mem_flatMap.mpr ⟨item, hitem, hx⟩))
    exact h.only item' hitem' x hx'

/-- The exported declarators are the same. -/
theorem SameImports.exportedDeclarators_eq (hsame : SameImports module other) :
    other.children.flatMap exportedDeclarators = module.children.flatMap exportedDeclarators := by
  rw [← flatMap_exportedDeclarators_filter, hsame.items_eq, flatMap_exportedDeclarators_filter]

end SameImports

/-! ## What becomes of the calls -/

/-- The server graph `out` of a client module treats every call of the marker as an allowed item:
`allowed` are these items, `stubs` the names that it exports beside them. -/
structure AllowsCalls (marker clientId : String) (bare : Bool) (module out : Node)
    (allowed : List AllowedItem) (stubs : List String) : Prop where
  mem_allowed : ∀ a, a ∈ allowed ↔
    ∃ d ∈ module.children.flatMap exportedDeclarators, Allows marker d a
  mem_stubs : ∀ name, name ∈ stubs ↔ name ∈ exportNames module ∧ name ∉ allowed.map (·.name)
  /-- Each is exported with its own value, registered unless it is exported bare. Only the other
  names have stubs. -/
  values : out.children.flatMap exportedValues =
    allowed.map (fun a => (a.name, a.exported (if bare then none else some clientId))) ++
      stubs.map (fun name => (name, stubValue clientId name))
  /-- What the value needs is left, as far as it is reached without entering an export. -/
  pieces : ∀ a ∈ allowed, ∀ name, Reachable (module.children.flatMap topLevelDeclarations)
      (exportNames module ++ [marker]) a.value.occurrences name →
    ∀ d, (some name, d) ∈ module.children.flatMap pieces →
      (some name, d) ∈ out.children.flatMap pieces

/-- What a value needs is among the names that are kept. -/
theorem mem_keptNames_of_reachable {module : Node} {allowed : List AllowedItem} {a : AllowedItem}
    {name : String}
    (h : allowedItems (markerIn module.children) module.children = .ok allowed) (ha : a ∈ allowed)
    (hname : Reachable (module.children.flatMap topLevelDeclarations)
      (exportNames module ++ [markerIn module.children]) a.value.occurrences name) :
    name ∈ keptNames module allowed := by
  refine mem_reachableNames_iff.mpr (hname.congr ?_ ?_)
  · exact fun x hx => List.mem_flatMap.mpr ⟨a, ha, mem_distinct.mpr hx⟩
  · intro x hx
    rw [List.mem_append, List.mem_singleton]
    rcases mem_excludedNames.mp hx with hallowed | hexport | hmarker
    · exact .inl (mem_exportNames_of_allowed h hallowed)
    · exact .inl hexport
    · exact .inr hmarker

/-- The server graph of a client module treats the calls of the name that is found as allowed. -/
theorem allowsCalls_of_clientModule {clientId : String} {bare : Bool} {module out : Node}
    (h : clientModule (.ok clientId) bare module = .ok out) :
    ∃ allowed stubs,
      AllowsCalls (markerIn module.children) clientId bare module out allowed stubs := by
  obtain ⟨allowed, id, ha, -, hout⟩ := clientModule_eq h
  rw [clientModule_of_allowedItems ha, Except.ok.injEq] at h
  subst h
  exact ⟨allowed, stubNames module allowed,
    { mem_allowed := (allowedAmong_ok ha).1
      mem_stubs := fun _ => mem_stubNames
      values := exportedValues_clientItems
      pieces := by
        intro a hmem name hname d hd
        have hkept : isNamed (keptNames module allowed) (some name, d) = true := by
          rw [isNamed, Option.any_some, List.contains_iff_mem]
          exact mem_keptNames_of_reachable ha hmem hname
        rw [withItems, Node.children_mk, clientItems, List.flatMap_cons, List.flatMap_append,
          List.flatMap_append, flatMap_pieces_retainItems]
        exact List.mem_append_right _ (List.mem_append_left _ (List.mem_append_left _
          (List.mem_filter.mpr ⟨hd, hkept⟩))) }⟩

/-- What the name under which a module imports the marker does for its calls. -/
structure MarkerSearch (module : Node) (name : String) : Prop where
  found_iff : markerIn module.children = name ↔ IsFoundFirst module.children name
  /-- If it is found, the module is kept unless a call of it is misused, -/
  kept_iff : IsFoundFirst module.children name → ∀ clientId bare,
    (∃ out, clientModule (.ok clientId) bare module = .ok out) ↔
      ∀ d ∈ module.children.flatMap exportedDeclarators, ¬ Misuses name d
  /-- and then all calls of it are allowed items. -/
  allows : IsFoundFirst module.children name → ∀ clientId bare out,
    clientModule (.ok clientId) bare module = .ok out →
      ∃ allowed stubs, AllowsCalls name clientId bare module out allowed stubs
  /-- How the imports are split and ordered makes no difference while it is found. -/
  same : ∀ other, SameImports module other → IsFoundFirst module.children name →
    IsFoundFirst other.children name →
      allowedItems (markerIn other.children) other.children =
        allowedItems (markerIn module.children) module.children

/-- **Which imports of the marker are recognised.** Where a module imports the marker under one name
only, the calls of this name are allowed items exactly if it is the marker's own name or comes from
the first import from the marker's module. -/
theorem marker_is_recognised_iff {module : Node} {name : String}
    (h : ImportsMarkerAs module.children name) : MarkerSearch module name where
  found_iff := markerIn_eq_iff h
  kept_iff := by
    intro hfound clientId bare
    rw [exists_clientModule_iff, (markerIn_eq_iff h).mpr hfound]
  allows := by
    intro hfound clientId bare out hout
    rw [← (markerIn_eq_iff h).mpr hfound]
    exact allowsCalls_of_clientModule hout
  same := by
    intro other hsame hfound hother
    rw [(markerIn_eq_iff h).mpr hfound, (markerIn_eq_iff (hsame.importsMarkerAs h)).mpr hother,
      allowedItems, allowedItems, hsame.exportedDeclarators_eq]

/-- A client module with some imports that exports `allow("3")` as `limit`. -/
def limitModule (imports : List Node) : Node :=
  Build.module (Build.statement (Build.string Directive.useClient.text) :: imports ++
    [Build.exportConst "limit" (Build.call "allow" [Build.string "3"])])

/-- An import of the marker as `allow`. -/
def allowImport : Node := Build.importAs markerName "allow" markerSource

/-- An import of something else from the marker's module. -/
def slotImport : Node := Build.importAs "Slot" "Slot" markerSource

/-- Imported first the marker is recognised as `allow`, and `limit` is exported with its value. -/
theorem marker_of_the_first_import_is_recognised :
    ImportsMarkerAs (limitModule [allowImport, slotImport]).children "allow" ∧
    MarkerSearch (limitModule [allowImport, slotImport]) "allow" ∧
    IsFoundFirst (limitModule [allowImport, slotImport]).children "allow" ∧
    ∃ out, clientModule (.ok "m") false (limitModule [allowImport, slotImport]) = .ok out ∧
      out.children.flatMap exportedValues =
        [("limit", clientRegistration (Build.string "3") "m" "limit")] := by
  have himports : ImportsMarkerAs (limitModule [allowImport, slotImport]).children "allow" :=
    ⟨⟨allowImport, .tail _ (.head _), by decide⟩, by decide⟩
  exact ⟨himports, marker_is_recognised_iff himports,
    .inr ⟨allowImport, rfl, by decide⟩, _, rfl, rfl⟩

/-- With the two imports in the other order the call is not recognised: `limit` becomes a stub that
throws. -/
theorem marker_of_a_later_import_is_missed :
    moduleDirective (limitModule [slotImport, allowImport]) = some (0, .useClient) ∧
    SameImports (limitModule [allowImport, slotImport]) (limitModule [slotImport, allowImport]) ∧
    ImportsMarkerAs (limitModule [slotImport, allowImport]).children "allow" ∧
    (∃ d ∈ (limitModule [slotImport, allowImport]).children.flatMap exportedDeclarators,
      Allows "allow" d ⟨"limit", Build.string "3"⟩) ∧
    ∃ out, clientModule (.ok "m") false (limitModule [slotImport, allowImport]) = .ok out ∧
      out.children.flatMap exportedValues = [("limit", stubValue "m" "limit")] := by
  have hsame : SameImports (limitModule [allowImport, slotImport])
      (limitModule [slotImport, allowImport]) := ⟨rfl, List.Perm.swap _ _ _⟩
  exact ⟨rfl, hsame, ⟨⟨allowImport, .tail _ (.tail _ (.head _)), by decide⟩, by decide⟩,
    ⟨_, List.mem_singleton_self _, .call (by decide)⟩, _, rfl, rfl⟩

end ServerBoundary.Boundary
