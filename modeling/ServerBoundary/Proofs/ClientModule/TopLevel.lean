import Mathlib.Data.List.Flatten
import ServerBoundary.Boundary.Registration
import ServerBoundary.Proofs.ClientModule.Retention
import ServerBoundary.Proofs.Syntax.Scope

/-!
# What a client module binds at its top level

The items of a module bind names: its imports, its declarations whether they are exported or not,
and the function or class that it exports as its default if that has a name. The server graph of a
client module has three kinds of items that bind names, which are computed apart from each other.

> `clientModule_eq`: these are the items that are left, the exports of the allowed items, and the
> stubs of the other exports.

> `sublist_topLevelNames_retainItems`, `mem_of_mem_topLevelNames_retainItems`: the items that are
> left bind names that the module binds, in the same order, and only names that are kept.
-/

namespace ServerBoundary.Boundary

open Syntax

/-! ## Names -/

/-- The names that a statement binds. A function that is only declared binds none: its name is bound
by the function that it is a signature of. -/
def statementNames : Node → List String
  | .mk (.stmt (.variable_ _ _)) _ ds => Node.declaratorNames ds
  | .mk (.stmt (.function _)) _ (name :: f :: _) => if hasBody f then Node.identName name else []
  | .mk (.stmt (.class_ _)) _ (name :: _) => Node.identName name
  | _ => []

/-- The names that an item of a module binds. -/
def topLevelNames : Node → List String
  | .mk (.module (.import_ _)) _ (.mk .group _ specifiers :: _) => specifiers.filterMap localName?
  | .mk (.module .exportDecl) _ [d] => statementNames d
  | .mk (.module .exportDefaultFunction) _ [name, f] =>
    if hasBody f then Node.identName name else []
  | .mk (.module .exportDefaultClass) _ (name :: _) => Node.identName name
  | item => statementNames item

/-- A declarator that is a plain name binds that name. -/
theorem boundNames_of_plainName? {d : Node} {name : String} (h : plainName? d = some name) :
    (d.part 0).boundNames = [name] := by
  unfold plainName? at h
  split at h
  next =>
    cases h
    rfl
  next => exact absurd h (by simp)

/-- The plain names among those of some declarators. -/
theorem sublist_declaratorNames (ds : List Node) :
    (ds.filterMap plainName?).Sublist (Node.declaratorNames ds) := by
  induction ds with
  | nil => exact .refl _
  | cons d ds ih =>
    rw [Node.declaratorNames, List.flatMap_cons]
    cases h : plainName? d with
    | none =>
      rw [List.filterMap_cons_none h]
      exact ih.trans (List.sublist_append_right _ _)
    | some name =>
      rw [List.filterMap_cons_some h, boundNames_of_plainName? h]
      exact ih.cons_cons name

/-! ## The items that are left -/

variable {names : List String}

/-- What is left of an item binds names that the item binds, in the same order. -/
theorem sublist_topLevelNames_cutTo {item : Node} (h : hasNamed names item = true) :
    (topLevelNames (cutTo names item)).Sublist (topLevelNames item) := by
  rw [hasNamed] at h
  unfold pieces at h
  split at h
  next t sp gsp specifiers rest =>
    rw [cutTo, pieces, map_snd_filter_isNamed]
    exact List.filter_sublist.filterMap _
  next w b sp ds =>
    rw [cutTo, pieces, map_snd_filter_isNamed]
    exact List.filter_sublist.flatMap _
  next => exact .refl _
  next => exact .refl _
  next => exact absurd h (by simp)

/-- What is left of an item binds its names by its pieces: a pattern is not left. -/
theorem exists_piece_of_mem_topLevelNames {item : Node} {x : String}
    (h : hasNamed names item = true) (hx : x ∈ topLevelNames (cutTo names item)) :
    ∃ d, (some x, d) ∈ pieces (cutTo names item) := by
  rw [hasNamed] at h
  unfold pieces at h
  split at h
  next t sp gsp specifiers rest =>
    rw [cutTo, pieces, map_snd_filter_isNamed] at hx ⊢
    obtain ⟨s, hs, hname⟩ := List.mem_filterMap.mp hx
    exact ⟨s, List.mem_map.mpr ⟨s, hs, congrArg (·, s) hname⟩⟩
  next w b sp ds =>
    rw [cutTo, pieces, map_snd_filter_isNamed] at hx ⊢
    obtain ⟨d, hd, hname⟩ := List.mem_flatMap.mp hx
    have hkept := (List.mem_filter.mp hd).2
    cases hplain : plainName? d with
    | none =>
      rw [hplain] at hkept
      exact absurd hkept (by simp)
    | some name =>
      rw [boundNames_of_plainName? hplain, List.mem_singleton] at hname
      subst hname
      exact ⟨d, List.mem_map.mpr ⟨d, hd, congrArg (·, d) hplain⟩⟩
  next b sp name isp ics cs =>
    have hname : x ∈ topLevelNames
        (.mk (.stmt (.function b)) sp (.mk (.ident name) isp ics :: cs)) := hx
    cases cs with
    | nil => exact absurd hname List.not_mem_nil
    | cons f cs =>
      rw [topLevelNames, statementNames] at hname
      split at hname
      next =>
        obtain rfl := List.mem_singleton.mp hname
        exact ⟨_, List.mem_singleton_self _⟩
      next => exact absurd hname List.not_mem_nil
      · simp
      · simp
      · simp
      · simp
  next b sp name isp ics cs =>
    obtain rfl : x = name := List.mem_singleton.mp hx
    exact ⟨_, List.mem_singleton_self _⟩
  next => exact absurd h (by simp)

/-- What is left of an item binds names that are kept. -/
theorem mem_of_mem_topLevelNames_cutTo {item : Node} {x : String}
    (h : hasNamed names item = true) (hx : x ∈ topLevelNames (cutTo names item)) : x ∈ names := by
  obtain ⟨d, hd⟩ := exists_piece_of_mem_topLevelNames h hx
  rw [pieces_cutTo h, List.mem_filter, isNamed, Option.any_some, List.contains_iff_mem] at hd
  exact hd.2

/-- The items that are left bind names that the module binds, in the same order. -/
theorem sublist_topLevelNames_retainItems (names : List String) (items : List Node) :
    ((retainItems names items).flatMap topLevelNames).Sublist (items.flatMap topLevelNames) := by
  rw [retainItems_eq, List.flatMap_map]
  refine (List.Sublist.flatMap_right _ fun item hitem => ?_).trans (List.filter_sublist.flatMap _)
  exact sublist_topLevelNames_cutTo (List.mem_filter.mp hitem).2

/-- The items that are left bind names that are kept. -/
theorem mem_of_mem_topLevelNames_retainItems {items : List Node} {x : String}
    (h : x ∈ (retainItems names items).flatMap topLevelNames) : x ∈ names := by
  rw [retainItems_eq, List.flatMap_map] at h
  obtain ⟨item, hitem, hx⟩ := List.mem_flatMap.mp h
  exact mem_of_mem_topLevelNames_cutTo (List.mem_filter.mp hitem).2 hx

/-- What is left of an item is an import or a statement, and so no export. -/
theorem cutTo_cases {item : Node} (h : hasNamed names item = true) :
    (∃ t sp cs, cutTo names item = .mk (.module (.import_ t)) sp cs) ∨
      ∃ k sp cs, cutTo names item = .mk (.stmt k) sp cs := by
  rw [hasNamed] at h
  unfold pieces at h
  split at h
  next => exact .inl ⟨_, _, _, rfl⟩
  next => exact .inr ⟨_, _, _, rfl⟩
  next => exact .inr ⟨_, _, _, rfl⟩
  next => exact .inr ⟨_, _, _, rfl⟩
  next => exact absurd h (by simp)

/-- A name that stands in what is left of a statement stands in a declaration with a name that is
kept. -/
theorem exists_declaration_of_mem_occurrences_cutTo {item : Node} {x : String}
    (himport : isImport item = false) (h : hasNamed names item = true)
    (hx : x ∈ (cutTo names item).occurrences) :
    ∃ name d, (name, d) ∈ topLevelDeclarations item ∧ name ∈ names ∧ x ∈ d.occurrences := by
  rw [hasNamed] at h
  unfold pieces at h
  split at h
  next => exact absurd himport (by simp [isImport])
  next w b sp ds =>
    rw [cutTo, pieces, map_snd_filter_isNamed] at hx
    obtain ⟨d, hd, hx⟩ := Node.mem_occurrencesIn.mp (show x ∈ Node.occurrencesIn _ from hx)
    obtain ⟨hd, hkept⟩ := List.mem_filter.mp hd
    cases hplain : plainName? d with
    | none =>
      rw [hplain] at hkept
      exact absurd hkept (by simp)
    | some name =>
      rw [hplain, Option.any_some, List.contains_iff_mem] at hkept
      refine ⟨name, d, List.mem_filterMap.mpr ⟨d, hd, ?_⟩, hkept, hx⟩
      rw [hplain]
      rfl
  next => exact ⟨_, _, List.mem_singleton_self _, by simpa [isNamed] using h, hx⟩
  next => exact ⟨_, _, List.mem_singleton_self _, by simpa [isNamed] using h, hx⟩
  next => exact absurd h (by simp)

/-! ## The items that are made -/

@[simp] theorem topLevelNames_clientImport : topLevelNames clientImport = [registerClient] := by
  decide

@[simp] theorem topLevelNames_export (used : Option String) (a : AllowedItem) :
    topLevelNames (a.export used) = [a.name] := by
  cases used with
  | none => rfl
  | some id => rfl

theorem exportAs_eq (name : String) (value : Node) :
    Build.exportAs name value =
      if name = defaultName then Build.exportDefault value else Build.exportConst name value := by
  rw [Build.exportAs]
  by_cases h : name = defaultName
  · rw [if_pos h, if_pos (by rw [h]; decide)]
  · rw [if_neg h, if_neg (by simpa [defaultName] using h)]

/-- A default export binds no name. -/
theorem topLevelNames_exportAs (name : String) (value : Node) :
    topLevelNames (Build.exportAs name value) = if name = defaultName then [] else [name] := by
  rw [exportAs_eq]
  split <;> rfl

theorem topLevelNames_clientStub (id name : String) :
    topLevelNames (clientStub id name) = if name = defaultName then [] else [name] :=
  topLevelNames_exportAs name _

/-! ## The parts of the server graph -/

/-- The items of the server graph of a module with some allowed items. -/
def clientItems (module : Node) (allowed : List AllowedItem) (used : Option String) (id : String) :
    List Node :=
  clientImport :: (retainItems (keptNames module allowed) module.children ++
    allowed.map (·.export used) ++ clientStubs (stubNames module allowed) id)

/-- They are the import, what is left of an item, the export of an allowed item, or a stub. -/
theorem mem_clientItems {module item : Node} {allowed : List AllowedItem} {used : Option String}
    {id : String} :
    item ∈ clientItems module allowed used id ↔
      item = clientImport ∨
      (∃ source ∈ module.children, hasNamed (keptNames module allowed) source = true ∧
        item = cutTo (keptNames module allowed) source) ∨
      (∃ a ∈ allowed, item = a.export used) ∨
      ∃ name ∈ stubNames module allowed, item = clientStub id name := by
  rw [clientItems, retainItems_eq, clientStubs]
  simp only [List.mem_cons, List.mem_append, List.mem_map, List.mem_filter, and_assoc, or_assoc,
    eq_comm]

section Parts

variable {id : ModuleId} {bare : Bool} {module out : Node} {kept : KeptClient} {clientId : String}

/-- What is made of what is kept. An id is there if there are stubs. -/
theorem clientModule_cases (hid : ∀ c, id = .ok c → c = clientId)
    (hkept : keepAllowed id bare module = .ok kept) (h : clientModule id bare module = .ok out) :
    (id = .ok clientId ∨ kept.stubs = []) ∧
      out = withItems module
        (clientImport :: (kept.module.children ++ clientStubs kept.stubs clientId)) := by
  unfold clientModule at h
  rw [hkept] at h
  change (if kept.stubs.isEmpty then _ else _) = Except.ok out at h
  cases hempty : kept.stubs.isEmpty with
  | true =>
    rw [hempty] at h
    cases h
    rw [List.isEmpty_iff] at hempty
    refine ⟨.inr hempty, ?_⟩
    rw [hempty, clientStubs, List.map_nil, List.append_nil]
    rfl
  | false =>
    rw [hempty] at h
    cases id with
    | error e => cases h
    | ok c =>
      obtain rfl := hid c rfl
      cases h
      exact ⟨.inl rfl, rfl⟩

/-- **The items of the server graph.** After the import they are the items that are left, the
exports of the allowed items and the stubs. An id is there if one of these is registered. -/
theorem clientModule_eq (h : clientModule id bare module = .ok out) :
    ∃ allowed clientId, allowedItems (markerIn module.children) module.children = .ok allowed ∧
      (id = .ok clientId ∨ stubNames module allowed = [] ∧ (bare = true ∨ allowed = [])) ∧
      out = withItems module
        (clientItems module allowed (if bare then none else some clientId) clientId) := by
  cases hkept : keepAllowed id bare module with
  | error e =>
    rw [clientModule, hkept] at h
    cases h
  | ok kept =>
    obtain ⟨clientId, hid⟩ := exists_clientId id
    obtain ⟨allowed, ha, hallowed, rfl⟩ := keepAllowed_cases hid hkept
    obtain ⟨hstubs, hout⟩ := clientModule_cases hid hkept h
    refine ⟨allowed, clientId, ha, ?_, hout⟩
    rcases hstubs with hok | hnone
    · exact .inl hok
    · exact hallowed.imp_right fun hbare => ⟨hnone, hbare⟩

end Parts

end ServerBoundary.Boundary
