import ServerBoundary.Proofs.Extraction.GeneratedNames

/-!
# The extraction neither loses nor duplicates code

What becomes of a module when its closures are extracted is fixed by the places of the closures
alone: `Relocates` says where each closure goes, what takes its place, and that everything else
stays.

> `extraction_conserves_code`: the module that is left is the one that there was, with a call in the
> place of each closure and with the closures behind its head, each declared and registered once.

> `closure_in_type_is_not_moved`: a closure in a type is left where it is.
-/

namespace ServerBoundary.Boundary

open Syntax

/-! ## The head of a module -/

theorem isImport_iff (n : Node) : isImport n = true ↔ ∃ t, n.kind = .module (.import_ t) := by
  unfold isImport
  split
  next => simp
  next hother =>
    constructor
    · exact fun h => absurd h (by simp)
    · rintro ⟨t, ht⟩
      obtain ⟨k, sp, cs⟩ := n
      cases ht
      exact absurd rfl (hother t sp cs)

theorem isImport_extract (n : Node) (st : Extraction) :
    isImport (extract n st).1 = isImport n := by
  apply Bool.eq_iff_iff.mpr
  rw [isImport_iff, isImport_iff]
  exact exists_congr fun t => extract_kind_iff rfl n st

/-- An item belongs to the head of a module after the extraction if it did before. -/
theorem isHead_extract (n : Node) (st : Extraction) : isHead (extract n st).1 = isHead n := by
  rw [isHead, isHead, isImport_extract, directiveValue?_extract]

theorem headLength_extractAll (ns : List Node) (st : Extraction) :
    headLength (extractAll ns st).1 = headLength ns := by
  rw [headLength, headLength]
  induction ns generalizing st with
  | nil => rfl
  | cons n ns ih =>
    rw [extractAll_cons, List.takeWhile_cons, List.takeWhile_cons, isHead_extract]
    split
    next => rw [List.length_cons, List.length_cons, ih]
    next => rfl

theorem insertAfterHead_eq (new items : List Node) : insertAfterHead new items =
    items.take (headLength items) ++ new ++ items.drop (headLength items) := by
  have hsplit := List.takeWhile_append_dropWhile (p := isHead) (l := items)
  have htake : items.take (headLength items) = items.takeWhile isHead :=
    (congrArg (List.take _) hsplit.symm).trans List.take_left
  have hdrop : items.drop (headLength items) = items.dropWhile isHead :=
    (congrArg (List.drop _) hsplit.symm).trans List.drop_left
  rw [htake, hdrop, insertAfterHead]

/-! ## Relocation -/

/-- What the extraction makes of a module: `calls` take the places of its closures, and `hoisted`
are the closures in the order of their places. -/
structure Relocates (id : String) (module out : Node) (calls : List Nat → Option Node)
    (hoisted : List Extracted) : Prop where
  /-- The head of the module comes first, then the closures, then the other items; nothing changes
  in the items but that the calls take their places. -/
  items_eq : out = withItems module
    ((Node.substituteFrom calls 0 module.children).take (headLength module.children) ++
      hoisted.flatMap (·.items id) ++
      (Node.substituteFrom calls 0 module.children).drop (headLength module.children))
  only : ∀ p, p ∉ closurePlaces module → calls p = none
  length_eq : hoisted.length = (closurePlaces module).length
  /-- The closure at the `k`-th place gets the `k`-th name, and it goes out as it is when the
  closures inside it have made way for their calls. -/
  moved : ∀ k p, (closurePlaces module)[k]? = some p → ∃ c site captured,
    module.at? p = some c ∧ serverSite? c = some site ∧
    calls p = some (site.fill (Build.bindNull (extractedName k) captured)) ∧
    hoisted[k]? = some (site.moved (extractedName k) (prependParams captured
      (stripFunction (site.closure (c.substituteBelow fun q => calls (p ++ q))))))

theorem Extracted.name_moved (site : Site) (name : String) (function : Node) :
    (site.moved name function).name = name := by
  cases site <;> rfl

/-- The closures that go out have the generated names in order. -/
theorem Relocates.names_eq {id : String} {module out : Node} {calls : List Nat → Option Node}
    {hoisted : List Extracted} (h : Relocates id module out calls hoisted) :
    hoisted.map Extracted.name = (List.range (closurePlaces module).length).map extractedName := by
  apply List.ext_getElem?
  intro k
  rw [List.getElem?_map, List.getElem?_map]
  rcases Nat.lt_or_ge k (closurePlaces module).length with hlt | hge
  · obtain ⟨_, _, _, -, -, -, hk⟩ := h.moved k _ (List.getElem?_eq_getElem hlt)
    rw [hk, List.getElem?_range hlt, Option.map_some, Option.map_some, Extracted.name_moved]
  · rw [List.getElem?_eq_none (by rw [h.length_eq]; exact hge),
      List.getElem?_eq_none (by rw [List.length_range]; exact hge)]
    rfl

variable {shebang : Option String} {sp : Span} {items : List Node}

theorem closurePlaces_module : closurePlaces (.mk (.module (.module_ shebang)) sp items) =
    closurePlacesFrom 0 items := by
  rw [closurePlaces_of_not_isType rfl]
  exact List.append_nil _

/-- The items that are left are the items that there were, with calls in the places of their
closures. -/
theorem extractAll_module (shebang : Option String) (sp : Span) (items : List Node) :
    (extractAll items {}).1 =
      Node.substituteFrom (replacement (.mk (.module (.module_ shebang)) sp items) {}) 0 items := by
  have h := rewriteParts_eq_substituteBelow (n := .mk (.module (.module_ shebang)) sp items) rfl {}
  exact congrArg Node.children h

/-- The closures of a module are moved out from their places. -/
theorem relocates_found {id : String} {out : Node}
    (hout : out = withItems (.mk (.module (.module_ shebang)) sp items)
      (insertAfterHead ((extractAll items {}).2.found.flatMap (·.items id))
        (extractAll items {}).1)) :
    Relocates id (.mk (.module (.module_ shebang)) sp items) out
      (replacement (.mk (.module (.module_ shebang)) sp items) {})
      (extractAll items {}).2.found := by
  constructor
  · rw [hout, insertAfterHead_eq, headLength_extractAll, extractAll_module shebang sp items]
    rfl
  · exact fun p hp => replacement_eq_none hp {}
  · rw [length_found_extractAll 0, closurePlaces_module]
    exact Nat.zero_add _
  · intro k p hp
    obtain ⟨c, st, site, ha, hs, hk⟩ := exists_arrival_of_getElem?_closurePlaces _ {} k p hp
    have hnumber : (rewriteParts c st).2.found.length = k := hk.trans (Nat.zero_add k)
    have hbelow : (rewriteParts c st).1 =
        c.substituteBelow fun q => replacement (.mk (.module (.module_ shebang)) sp items) {}
          (p ++ q) := by
      rw [rewriteParts_eq_substituteBelow (isType_of_serverSite? hs)]
      exact congrArg (Node.substituteBelow · c)
        (funext fun q => (replacement_append ha q).symm)
    have hclosure : isServerClosure c = true := by rw [isServerClosure, hs, Option.isSome_some]
    have hfound := getElem?_found_of_arrival ha hs
    rw [hnumber, hbelow] at hfound
    refine ⟨c, site, _, at?_of_arrival ha, hs, ?_, hfound⟩
    rw [replacement_of_arrival ha hclosure, extract_closure hs, Extraction.nextName, hnumber,
      hbelow]

theorem length_found_module : (extractAll items {}).2.found.length =
    (closurePlaces (.mk (.module (.module_ shebang)) sp items)).length := by
  rw [length_found_extractAll 0, closurePlaces_module]
  exact Nat.zero_add _

/-- Without closures nothing is replaced. -/
theorem extractAll_of_found_eq_nil (h : (extractAll items {}).2.found = []) :
    (extractAll items {}).1 = items := by
  rw [extractAll_module none .generated items]
  refine Node.substituteFrom_eq_self _ 0 items fun p => replacement_eq_none ?_ {}
  have hnone : (closurePlaces (.mk (.module (.module_ none)) .generated items)).length = 0 := by
    rw [← length_found_module, h, List.length_nil]
  rw [List.length_eq_zero_iff.mp hnone]
  exact List.not_mem_nil

/-- The extraction of a module puts its closures behind its head; the module changes exactly if
there are any. -/
theorem extractModule_eq (id : String) (shebang : Option String) (sp : Span) (items : List Node) :
    let module := Node.mk (.module (.module_ shebang)) sp items
    extractModule (.ok id) module = .ok
      (withItems module (insertAfterHead ((extractAll items {}).2.found.flatMap (·.items id))
        (extractAll items {}).1), decide (0 < (closurePlaces module).length)) := by
  intro module
  by_cases hfound : (extractAll items {}).2.found = []
  · have hzero : (closurePlaces module).length = 0 := by
      rw [← length_found_module, hfound, List.length_nil]
    rw [hfound, extractAll_of_found_eq_nil hfound, List.flatMap_nil, insertAfterHead,
      List.append_nil, List.takeWhile_append_dropWhile, hzero]
    unfold extractModule
    dsimp only
    rw [if_pos (by rw [Node.children_mk, hfound]; rfl)]
    rfl
  · have hpos : 0 < (closurePlaces module).length := by
      rw [← length_found_module]
      exact List.length_pos_iff.mpr hfound
    have hmodule : (extractAll module.children {}).2.found ≠ [] := hfound
    rw [decide_eq_true hpos, extractModule_of_found hmodule id]
    rfl

/-! ## What is declared and registered -/

/-- What is left of some items is left of one of them. -/
theorem exists_of_mem_extractAll {n : Node} : ∀ (ns : List Node) (st : Extraction),
    n ∈ (extractAll ns st).1 → ∃ m ∈ ns, ∃ st', n = (extract m st').1
  | [], _, h => absurd h List.not_mem_nil
  | m :: ns, st, h => by
    rw [extractAll_cons, List.mem_cons] at h
    rcases h with rfl | hrest
    · exact ⟨m, List.mem_cons_self, st, rfl⟩
    · obtain ⟨m', hm, st', heq⟩ := exists_of_mem_extractAll ns _ hrest
      exact ⟨m', List.mem_cons_of_mem _ hm, st', heq⟩

theorem declaredExports_flatMap_items (id : String) (found : List Extracted) :
    (found.flatMap (·.items id)).flatMap declaredExports = found.map Extracted.name := by
  induction found with
  | nil => rfl
  | cons e found ih =>
    rw [List.flatMap_cons, List.flatMap_append, declaredExports_items, ih]
    rfl

/-- The reserved names that a module exports where it declares them are those of its closures. -/
theorem declaredExports_insertAfterHead (hfree : ∀ n ∈ items, unreserved n = true) (id : String)
    (found : List Extracted) (hfound : ∀ e ∈ found, isReserved e.name = true) :
    ((insertAfterHead (found.flatMap (·.items id)) (extractAll items {}).1).flatMap
      declaredExports).filter isReserved = found.map Extracted.name := by
  have hleft : ∀ ns : List Node, (∀ n ∈ ns, n ∈ (extractAll items {}).1) →
      (ns.flatMap declaredExports).filter isReserved = [] := by
    intro ns hns
    rw [List.filter_eq_nil_iff]
    intro name hname
    obtain ⟨n, hn, hname⟩ := List.mem_flatMap.mp hname
    obtain ⟨item, hitem, st, rfl⟩ := exists_of_mem_extractAll items {} (hns n hn)
    rw [isReserved_of_mem_declaredExports_extract (hfree item hitem) st hname]
    exact Bool.false_ne_true
  rw [insertAfterHead, List.flatMap_append, List.flatMap_append, List.filter_append,
    List.filter_append, declaredExports_flatMap_items,
    hleft _ fun n hn => (List.takeWhile_sublist _).subset hn,
    hleft _ fun n hn => (List.dropWhile_sublist _).subset hn, List.nil_append, List.append_nil,
    List.filter_eq_self]
  intro name hname
  obtain ⟨e, he, rfl⟩ := List.mem_map.mp hname
  exact hfound e he

/-- A closure that registers nothing is registered once when it is moved out, under its name. -/
theorem registrationsIn_items {e : Extracted} (h : registrations e.function = []) (id : String) :
    registrationsIn (e.items id) = [(id, e.name)] := by
  cases e with
  | declaration name function =>
    have hfunction : registrations function = [] := h
    have hname : registrations (Build.ident name) = [] := rfl
    simp only [Extracted.items, Extracted.name, Build.statement, Build.node, registrationsIn,
      registrations_module, registrations_stmt, registrations_registration, hfunction, hname,
      List.append_nil, List.nil_append]
  | expression name function =>
    have hfunction : registrations function = [] := h
    have hpattern : registrations (Build.binding name) = [] := rfl
    simp only [Extracted.items, Extracted.name, Build.exportConst, Build.constant, Build.node,
      registrationsIn, registrations_module, registrations_stmt, registrations_registration,
      hfunction, hpattern, List.append_nil, List.nil_append]

theorem registrationsIn_flatMap_items {found : List Extracted}
    (h : registrationsIn (found.map Extracted.function) = []) (id : String) :
    registrationsIn (found.flatMap (·.items id)) = found.map fun e => (id, e.name) := by
  induction found with
  | nil => rfl
  | cons e found ih =>
    rw [List.map_cons, registrationsIn, List.append_eq_nil_iff] at h
    rw [List.flatMap_cons, registrationsIn_append, registrationsIn_items h.1, ih h.2]
    rfl

/-- Every closure of items without reserved names is registered once, and nothing else is. -/
theorem registrationsIn_insertAfterHead (hfree : ∀ n ∈ items, unreserved n = true) (id : String) :
    registrationsIn (insertAfterHead ((extractAll items {}).2.found.flatMap (·.items id))
      (extractAll items {}).1) =
      (extractAll items {}).2.found.map fun e => (id, e.name) := by
  obtain ⟨hleft, hfound⟩ := registrations_extractAll_of_unreserved hfree
  rw [← List.takeWhile_append_dropWhile (p := isHead) (l := (extractAll items {}).1),
    registrationsIn_append, List.append_eq_nil_iff] at hleft
  rw [insertAfterHead, registrationsIn_append, registrationsIn_append, hleft.1, hleft.2,
    registrationsIn_flatMap_items hfound, List.append_nil, List.nil_append]

/-- **The extraction neither loses nor duplicates code.** Let `n` be the number of server closures
of a module that are not in a type, in a module without reserved identifiers. The module changes
exactly if there are any, and is left as it is otherwise. The closures are relocated, each after
those inside it. They have the first `n` generated names, which are different; these are the
reserved names that the module exports where it declares them, each once, and the names that it
registers, each once. -/
theorem extraction_conserves_code (id : String) (shebang : Option String) (sp : Span)
    (items : List Node) (h : unreserved (.mk (.module (.module_ shebang)) sp items) = true) :
    let module := Node.mk (.module (.module_ shebang)) sp items
    let names := (List.range (closurePlaces module).length).map extractedName
    (∀ p, p ∈ closurePlaces module ↔ ∃ c, module.at? p = some c ∧
      (∀ a ∈ module.above p, a.kind.isType = false) ∧ isServerClosure c = true) ∧
    (closurePlaces module).Pairwise (fun p q => ¬p <+: q) ∧
    ∃ out calls hoisted,
      extractModule (.ok id) module =
        .ok (out, decide (0 < (closurePlaces module).length)) ∧
      ((closurePlaces module).length = 0 → out = module) ∧
      Relocates id module out calls hoisted ∧
      hoisted.map Extracted.name = names ∧ names.Nodup ∧
      (out.children.flatMap declaredExports).filter isReserved = names ∧
      registrations out = names.map fun name => (id, name) := by
  intro module names
  have hfree : ∀ n ∈ items, unreserved n = true := (Node.every_iff.mp h).2
  have hrelocates : Relocates id module _ (replacement module {}) (extractAll items {}).2.found :=
    relocates_found rfl
  have hnames : (extractAll items {}).2.found.map Extracted.name = names := hrelocates.names_eq
  refine ⟨fun p => ?_, Node.pairwise_places _ _, _, _, _, extractModule_eq id shebang sp items,
    fun hzero => ?_, hrelocates, hnames, nodup_extractedNames _, ?_, ?_⟩
  · rw [closurePlaces, Node.mem_places]
    refine exists_congr fun c => and_congr_right fun _ => and_congr_right fun _ => ?_
    -- A closure is no type itself.
    refine and_iff_right_of_imp fun hc => ?_
    obtain ⟨site, hs⟩ := Option.isSome_iff_exists.mp hc
    exact isType_of_serverSite? hs
  · have hfound : (extractAll items {}).2.found = [] := by
      rw [← List.length_eq_zero_iff, length_found_module]
      exact hzero
    rw [hfound, extractAll_of_found_eq_nil hfound, List.flatMap_nil, insertAfterHead,
      List.append_nil, List.takeWhile_append_dropWhile]
    rfl
  · rw [← hnames]
    refine declaredExports_insertAfterHead hfree id _ fun e he => ?_
    have hname : e.name ∈ names := by
      rw [← hnames]
      exact List.mem_map_of_mem he
    obtain ⟨k, -, hk⟩ := List.mem_map.mp hname
    rw [← hk]
    exact isReserved_extractedName k
  · rw [withItems, Node.kind_mk, registrations_module, registrationsIn_insertAfterHead hfree,
      ← hnames, List.map_map]
    rfl

/-- In `function Page(a) { return async () => { 'use server'; return async () => { 'use server' } } }`
the inner closure is moved out first. -/
theorem inner_closure_is_moved_first :
    let module := Build.module [functionNamed "Page" ["a"]
      [returning (serverArrow [] [returning (serverArrow [] [])])]]
    unreserved module = true ∧
    closurePlaces module = [[0, 1, 2, 0, 0, 1, 1, 0], [0, 1, 2, 0, 0]] ∧
    ∃ out calls hoisted, extractModule (.ok "m") module = .ok (out, true) ∧
      Relocates "m" module out calls hoisted ∧
      registrations out = [("m", "__waku_func1"), ("m", "__waku_func2")] := by
  intro module
  have hfree : unreserved module = true := by decide
  have hplaces : closurePlaces module = [[0, 1, 2, 0, 0, 1, 1, 0], [0, 1, 2, 0, 0]] := by decide
  obtain ⟨-, -, out, calls, hoisted, hout, -, hrelocates, -, -, -, hregistrations⟩ :=
    extraction_conserves_code "m" none .generated _ hfree
  refine ⟨hfree, hplaces, out, calls, hoisted, ?_, hrelocates, ?_⟩
  · rw [show Node.mk (.module (.module_ none)) .generated _ = module from rfl, hplaces] at hout
    exact hout
  · rw [show Node.mk (.module (.module_ none)) .generated _ = module from rfl, hplaces]
      at hregistrations
    rw [hregistrations]
    decide

/-- An interface with a member whose name is computed. -/
def interfaceWithKey (key : Node) : Node :=
  Build.node (.type (.interface_ false)) [
    Build.node (.word "A") [], .absent, .group [],
    .group [Build.node (.type (.propertySignature false false)) [
      Build.node .computed [key],
      Build.node (.type .ascription) [Build.node (.type (.keyword "string")) []]]]]

/-- In `interface A { [(async () => { 'use server' })()]: string }` the closure stays: the module is
left as it is. -/
theorem closure_in_type_is_not_moved :
    let module := Build.module [interfaceWithKey (Build.expr (.call false) [
      Build.expr .paren [serverArrow [] []], .group [], .absent])]
    unreserved module = true ∧
    (∃ p c, module.at? p = some c ∧ isServerClosure c = true) ∧
    extractModule (.ok "m") module = .ok (module, false) :=
  ⟨by decide, ⟨[0, 3, 0, 0, 0, 0, 0], _, rfl, by decide⟩, rfl⟩

end ServerBoundary.Boundary
