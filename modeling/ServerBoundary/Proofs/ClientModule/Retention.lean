import ServerBoundary.Proofs.ClientModule.Reachability

/-!
# What is left of a client module

The server graph keeps a client module piece by piece: import specifiers, declarators of variable
statements that are not exported, and functions and classes that are not exported. A piece is kept
if its name is reachable from the arguments of the marker calls.

> `retainItems_eq`: the items with such a piece are left, in their order, each cut down to these
> pieces.

> `client_module_keeps_dependencies`: this is all that is left of an accepted module, and the names
> are the least fixed point that `Reachable` describes.
-/

namespace ServerBoundary.Boundary

open Syntax

/-! ## Pieces -/

/-- The pieces of an item, each with its name. A declarator with a pattern has no name, and an item
that is exported has no pieces. -/
def pieces : Node → List (Option String × Node)
  | .mk (.module (.import_ _)) _ (.mk .group _ specifiers :: _) =>
    specifiers.map fun s => (localName? s, s)
  | .mk (.stmt (.variable_ _ _)) _ ds => ds.map fun d => (plainName? d, d)
  | .mk (.stmt (.function b)) sp (.mk (.ident name) isp ics :: cs) =>
    [(some name, .mk (.stmt (.function b)) sp (.mk (.ident name) isp ics :: cs))]
  | .mk (.stmt (.class_ b)) sp (.mk (.ident name) isp ics :: cs) =>
    [(some name, .mk (.stmt (.class_ b)) sp (.mk (.ident name) isp ics :: cs))]
  | _ => []

/-- Whether a piece has one of some names. -/
def isNamed (names : List String) (piece : Option String × Node) : Bool :=
  piece.1.any names.contains

/-- An item with other pieces in the place of its own. A function or a class is its one piece. -/
def withPieces (item : Node) (left : List Node) : Node :=
  match item with
  | .mk (.module (.import_ t)) sp (.mk .group gsp _ :: rest) =>
    .mk (.module (.import_ t)) sp (.mk .group gsp left :: rest)
  | .mk (.stmt (.variable_ w b)) sp _ => .mk (.stmt (.variable_ w b)) sp left
  | item => item

/-- An item cut down to its pieces with some names. -/
def cutTo (names : List String) (item : Node) : Node :=
  withPieces item (((pieces item).filter (isNamed names)).map Prod.snd)

/-- Whether an item has a piece with one of some names. -/
def hasNamed (names : List String) (item : Node) : Bool := (pieces item).any (isNamed names)

/-- The dependencies are followed through the pieces that have a name, other than import
specifiers. -/
theorem topLevelDeclarations_eq {item : Node} (h : isImport item = false) :
    topLevelDeclarations item = (pieces item).filterMap fun (name?, d) => name?.map (·, d) := by
  unfold pieces
  split
  next => exact absurd h (by simp [isImport])
  next w b sp ds =>
    rw [topLevelDeclarations, List.filterMap_map]
    rfl
  next => rfl
  next => rfl
  next hvariable hfunction hclass =>
    unfold topLevelDeclarations
    split
    next => exact absurd rfl (hvariable _ _ _ _)
    next => exact absurd rfl (hfunction _ _ _ _ _ _)
    next => exact absurd rfl (hclass _ _ _ _ _ _)
    next => rfl

/-! ## What is left of an item -/

variable {names : List String}

/-- Filtering pieces is filtering what they are pieces of by their names. -/
theorem map_snd_filter_isNamed (name? : Node → Option String) (ps : List Node) :
    ((ps.map fun p => (name? p, p)).filter (isNamed names)).map Prod.snd =
      ps.filter fun p => (name? p).any names.contains := by
  rw [List.filter_map, List.map_map]
  exact List.map_id' _

theorem any_isNamed_eq (name? : Node → Option String) (ps : List Node) :
    (ps.map fun p => (name? p, p)).any (isNamed names) =
      !(ps.filter fun p => (name? p).any names.contains).isEmpty := by
  rw [List.any_map]
  induction ps with
  | nil => rfl
  | cons p ps ih =>
    rw [List.any_cons, ih, List.filter_cons]
    show ((name? p).any names.contains || _) = _
    cases (name? p).any names.contains with
    | true => rfl
    | false => rfl

/-- An item is kept if it has a piece with one of the names, cut down to these pieces. -/
theorem retainItem_eq (names : List String) (item : Node) :
    retainItem names item = if hasNamed names item then some (cutTo names item) else none := by
  unfold retainItem
  split
  next t sp gsp specifiers rest =>
    rw [hasNamed, cutTo, pieces, any_isNamed_eq, map_snd_filter_isNamed, withPieces]
    dsimp only
    cases (specifiers.filter fun s => (localName? s).any names.contains).isEmpty with
    | true => rfl
    | false => rfl
  next w b sp ds =>
    rw [hasNamed, cutTo, pieces, any_isNamed_eq, map_snd_filter_isNamed, withPieces]
    dsimp only
    cases (ds.filter fun d => (plainName? d).any names.contains).isEmpty with
    | true => rfl
    | false => rfl
  next =>
    rw [hasNamed, pieces, List.any_cons, List.any_nil, Bool.or_false]
    rfl
  next =>
    rw [hasNamed, pieces, List.any_cons, List.any_nil, Bool.or_false]
    rfl
  next himport hvariable hfunction hclass =>
    have hpieces : pieces item = [] := by
      unfold pieces
      split
      next => exact absurd rfl (himport _ _ _ _ _)
      next => exact absurd rfl (hvariable _ _ _ _)
      next => exact absurd rfl (hfunction _ _ _ _ _ _)
      next => exact absurd rfl (hclass _ _ _ _ _ _)
      next => rfl
    rw [hasNamed, hpieces]
    rfl

/-- The items with a piece of one of the names are left, in their order, each cut down to these
pieces. -/
theorem retainItems_eq (names : List String) (items : List Node) :
    retainItems names items = (items.filter (hasNamed names)).map (cutTo names) := by
  induction items with
  | nil => rfl
  | cons item items ih =>
    cases h : hasNamed names item with
    | true =>
      rw [List.filter_cons_of_pos h, List.map_cons, ← ih]
      exact List.filterMap_cons_some (by rw [retainItem_eq, if_pos h])
    | false =>
      rw [List.filter_cons_of_neg (by rw [h]; decide), ← ih]
      exact List.filterMap_cons_none (by rw [retainItem_eq, h]; rfl)

/-- An item that is cut down has the pieces with the names, and no others. -/
theorem pieces_cutTo {item : Node} (h : hasNamed names item = true) :
    pieces (cutTo names item) = (pieces item).filter (isNamed names) := by
  rw [hasNamed] at h
  unfold pieces at h
  split at h
  next t sp gsp specifiers rest =>
    rw [cutTo, pieces, map_snd_filter_isNamed, withPieces, pieces, List.filter_map]
    rfl
  next w b sp ds =>
    rw [cutTo, pieces, map_snd_filter_isNamed, withPieces, pieces, List.filter_map]
    rfl
  next =>
    rw [List.any_cons, List.any_nil, Bool.or_false] at h
    rw [pieces, List.filter_cons_of_pos h]
    rfl
  next =>
    rw [List.any_cons, List.any_nil, Bool.or_false] at h
    rw [pieces, List.filter_cons_of_pos h]
    rfl
  next => exact absurd h (by simp)

/-- The pieces that are left are those with the names, in their order. -/
theorem flatMap_pieces_retainItems (names : List String) (items : List Node) :
    (retainItems names items).flatMap pieces =
      (items.flatMap pieces).filter (isNamed names) := by
  rw [retainItems_eq]
  induction items with
  | nil => rfl
  | cons item items ih =>
    rw [List.flatMap_cons, List.filter_append, ← ih]
    cases h : hasNamed names item with
    | true => rw [List.filter_cons_of_pos h, List.map_cons, List.flatMap_cons, pieces_cutTo h]
    | false =>
      have hnone : (pieces item).filter (isNamed names) = [] := by
        rw [hasNamed, List.any_eq_false] at h
        exact List.filter_eq_nil_iff.mpr h
      rw [List.filter_cons_of_neg (by rw [h]; decide), hnone, List.nil_append]

/-! ## What is left of a module -/

/-- The names that the server graph of a module does not enter: allowed items, other exports and the
marker. -/
def excludedNames (module : Node) (allowed : List AllowedItem) : List String :=
  let names := allowed.map (·.name)
  ((exportNames module).filter fun n => !names.contains n) ++ names ++ [markerIn module.children]

/-- The names that the arguments of the marker calls use. -/
def seedNames (allowed : List AllowedItem) : List String :=
  allowed.flatMap fun a => a.value.identifiers

theorem mem_excludedNames {module : Node} {allowed : List AllowedItem} {name : String} :
    name ∈ excludedNames module allowed ↔
      name ∈ allowed.map (·.name) ∨ name ∈ exportNames module ∨
        name = markerIn module.children := by
  simp only [excludedNames, List.mem_append, List.mem_filter, List.mem_singleton,
    Bool.not_eq_true', List.contains_eq_mem, decide_eq_false_iff_not]
  grind

/-- The names that are kept of a module with some allowed items. -/
def keptNames (module : Node) (allowed : List AllowedItem) : List String :=
  reachableNames module.children (seedNames allowed) (excludedNames module allowed)

/-- The exported names that become stubs. -/
def stubNames (module : Node) (allowed : List AllowedItem) : List String :=
  (exportNames module).filter fun name => !(allowed.map (·.name)).contains name

theorem mem_stubNames {module : Node} {allowed : List AllowedItem} {name : String} :
    name ∈ stubNames module allowed ↔
      name ∈ exportNames module ∧ name ∉ allowed.map (·.name) := by
  rw [stubNames, List.mem_filter, Bool.not_eq_true', List.contains_eq_mem, decide_eq_false_iff_not]

theorem nodup_exportNames (module : Node) : (exportNames module).Nodup := nodup_distinct _

theorem nodup_stubNames (module : Node) (allowed : List AllowedItem) :
    (stubNames module allowed).Nodup :=
  (nodup_exportNames module).filter _

/-- There is a text that is the id if there is an id. -/
theorem exists_clientId (id : ModuleId) : ∃ clientId, ∀ c, id = .ok c → c = clientId := by
  cases id with
  | error e => exact ⟨"", fun c hc => nomatch hc⟩
  | ok c => exact ⟨c, fun _ hc => (Except.ok.inj hc).symm⟩

/-- What is kept of an accepted module. An id is there if the allowed items are registered. -/
theorem keepAllowed_cases {id : ModuleId} {bare : Bool} {module : Node} {kept : KeptClient}
    {clientId : String} (hid : ∀ c, id = .ok c → c = clientId)
    (h : keepAllowed id bare module = .ok kept) :
    ∃ allowed, allowedItems (markerIn module.children) module.children = .ok allowed ∧
      (id = .ok clientId ∨ bare = true ∨ allowed = []) ∧
      kept = ⟨.mk module.kind module.span
        (retainItems (keptNames module allowed) module.children ++
          allowed.map (·.export (if bare then none else some clientId))),
        stubNames module allowed⟩ := by
  unfold keepAllowed at h
  dsimp only at h
  cases ha : allowedItems (markerIn module.children) module.children with
  | error e =>
    rw [ha] at h
    cases h
  | ok allowed =>
    rw [ha] at h
    change (if allowed.isEmpty then _ else _) = Except.ok kept at h
    refine ⟨allowed, rfl, ?_⟩
    cases hempty : allowed.isEmpty with
    | true =>
      rw [hempty] at h
      cases h
      rw [List.isEmpty_iff] at hempty
      have hnone : allowed.map (·.export (if bare then none else some clientId)) = [] := by
        rw [hempty, List.map_nil]
      refine ⟨.inr (.inr hempty), ?_⟩
      rw [hnone, List.append_nil]
      rfl
    | false =>
      rw [hempty] at h
      cases bare with
      | true =>
        cases h
        exact ⟨.inr (.inl rfl), rfl⟩
      | false =>
        cases id with
        | error e => cases h
        | ok c =>
          obtain rfl := hid c rfl
          cases h
          exact ⟨.inl rfl, rfl⟩

/-- What the loop that collects the dependencies does, for any seeds and any excluded names. -/
structure LeastFixedPoint (items : List Node) (seeds excluded names : List String) : Prop where
  /-- It ends by itself, with these names. -/
  ends : Follows (items.flatMap topLevelDeclarations) excluded (addNames excluded seeds [] []).1
    (addNames excluded seeds [] []).2 names
  /-- They are the names that are reachable, each once. -/
  mem_iff : ∀ name,
    name ∈ names ↔ Reachable (items.flatMap topLevelDeclarations) excluded seeds name
  nodup : names.Nodup
  /-- They are the same whatever the order of the seeds. -/
  order : ∀ seeds', (∀ x, x ∈ seeds' ↔ x ∈ seeds) →
    ∀ name, name ∈ reachableNames items seeds' excluded ↔ name ∈ names
  /-- Started with them the loop finds them again. -/
  idem : reachableNames items names excluded = names

theorem leastFixedPoint_reachableNames (items : List Node) (seeds excluded : List String) :
    LeastFixedPoint items seeds excluded (reachableNames items seeds excluded) where
  ends := follows_reachableNames items seeds excluded
  mem_iff _ := mem_reachableNames_iff
  nodup := nodup_reachableNames items seeds excluded
  order seeds' h name := by
    rw [mem_reachableNames_iff, mem_reachableNames_iff]
    constructor
    · exact Reachable.congr (fun x => (h x).mp) fun _ hx => hx
    · exact Reachable.congr (fun x => (h x).mpr) fun _ hx => hx
  idem := reachableNames_idem items seeds excluded

/-- What is kept of a module with some allowed items: `excluded` are the names that are not entered,
`names` the names that the allowed items need. -/
structure KeepsDependencies (module : Node) (allowed : List AllowedItem)
    (excluded names : List String) (kept : KeptClient) : Prop where
  mem_excluded : ∀ name, name ∈ excluded ↔
    name ∈ allowed.map (·.name) ∨ name ∈ exportNames module ∨ name = markerIn module.children
  fixedPoint : LeastFixedPoint module.children (seedNames allowed) excluded names
  /-- The declarations that are followed are the named pieces, other than import specifiers. -/
  followed : ∀ item ∈ module.children, isImport item = false →
    topLevelDeclarations item = (pieces item).filterMap fun (name?, d) => name?.map (·, d)
  /-- The items with a piece of one of the names are left, each cut down to such pieces and in its
  place, and nothing but the exports of the allowed items is added. -/
  items_eq : ∃ used, kept.module = .mk module.kind module.span
    ((module.children.filter (hasNamed names)).map (cutTo names) ++
      allowed.map (·.export used))
  /-- Of all pieces of the module, those with one of the names are left. -/
  pieces_eq : ((module.children.filter (hasNamed names)).map (cutTo names)).flatMap pieces =
    (module.children.flatMap pieces).filter (isNamed names)

/-- **A client module keeps what its allowed items need.** Of a module that is accepted, the import
specifiers, declarators, functions and classes are left whose names are reachable from the arguments
of the marker calls, and these names are found in whatever order the arguments name them. -/
theorem client_module_keeps_dependencies {id : ModuleId} {bare : Bool} {module : Node}
    {kept : KeptClient} (h : keepAllowed id bare module = .ok kept) :
    ∃ allowed excluded names,
      allowedItems (markerIn module.children) module.children = .ok allowed ∧
      KeepsDependencies module allowed excluded names kept := by
  obtain ⟨clientId, hid⟩ := exists_clientId id
  obtain ⟨allowed, ha, -, rfl⟩ := keepAllowed_cases hid h
  refine ⟨allowed, excludedNames module allowed, keptNames module allowed, ha,
    ⟨fun _ => mem_excludedNames, leastFixedPoint_reachableNames _ _ _,
      fun _ _ => topLevelDeclarations_eq, ⟨if bare then none else some clientId, ?_⟩, ?_⟩⟩
  · rw [retainItems_eq]
  · rw [← retainItems_eq, flatMap_pieces_retainItems]

/-- A module that imports `helper` and `other`, declares `base` with `helper`, `unused` and a
function `build` with `base`, and allows `build()` on the server. -/
def sharedModule : Node :=
  let declarator (name : String) (value : Node) : Node :=
    Build.node (.stmt (.declarator false)) [Build.binding name, value]
  let specifier (name : String) : Node :=
    Build.node (.module (.importNamed false)) [Build.ident name, .absent]
  Build.module [
    Build.statement (Build.string Directive.useClient.text),
    Build.importAs markerName "allow" markerSource,
    Build.node (.module (.import_ false))
      [.group [specifier "helper", specifier "other"], Build.string "./lib", .absent],
    Build.node (.stmt (.variable_ .const_ false))
      [declarator "base" (Build.call "helper" []), declarator "unused" (Build.string "no")],
    Build.node (.stmt (.function false)) [
      Build.ident "build",
      Build.node (.member (.function {})) [
        .group [], .group [],
        Build.node (.stmt .block) [Build.node (.stmt .return_) [Build.ident "base"]],
        .absent, .absent]],
    Build.exportConst "shared" (Build.call "allow" [Build.call "build" []]),
    Build.exportConst "View" (Build.throwing "client only")]

/-- The value that it allows needs `build`, and through it `base` and `helper`. -/
theorem shared_value_keeps_its_dependencies :
    ∃ kept, keepAllowed (.ok "m") false sharedModule = .ok kept ∧
      (kept.module.children.flatMap pieces).filterMap Prod.fst = ["helper", "base", "build"] ∧
      ∃ allowed excluded names,
        allowedItems (markerIn sharedModule.children) sharedModule.children = .ok allowed ∧
        KeepsDependencies sharedModule allowed excluded names kept := by
  refine ⟨_, rfl, by decide, ?_⟩
  exact client_module_keeps_dependencies
    (show keepAllowed (.ok "m") false sharedModule = .ok _ from rfl)

end ServerBoundary.Boundary
