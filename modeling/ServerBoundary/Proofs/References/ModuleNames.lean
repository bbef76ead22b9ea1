import ServerBoundary.Proofs.References.Exports
import ServerBoundary.Proofs.Syntax.Scope

/-!
# Names that a module binds, in the server graph

What is moved out of a module or registered stays bound under the name it had: other functions of
the module use it by this name. Each of the two passes puts something in the place of a function, a
constant for a declaration and a call for an expression, and what it puts there binds what was bound
there, with one exception. A default function is bound under its own name as well, if it has one,
and an expression in its place is not.

> `perm_moduleNames_serverModule`: a module in the server graph binds the generated names, and as
> often as before all names that it bound, without those of default functions that become values.

> `bindings_are_kept`: so a name that the module binds stays bound, and no other name is bound anew.
-/

namespace ServerBoundary.Boundary

open Syntax

/-! ## Names that a module binds -/

/-- The names that a declarator declares. -/
def declaredNames : Node → List String
  | .mk (.stmt (.declarator _)) _ (pattern :: _) => pattern.boundNames
  | _ => []

mutual
/-- The names that `var` declares inside a statement, at any depth, in the module around it. -/
def hoistedNames : Node → List String
  | .mk (.stmt (.variable_ .var _)) _ ds => ds.flatMap declaredNames
  | .mk (.stmt (.variable_ _ _)) _ _ => []
  | .mk (.stmt (.function _)) _ _ => []
  | .mk (.stmt (.class_ _)) _ _ => []
  | .mk (.stmt _) _ parts => hoistedNamesIn parts
  | .mk .group _ parts => hoistedNamesIn parts
  | _ => []
/-- The names that `var` declares inside the statements of a list. -/
def hoistedNamesIn : List Node → List String
  | [] => []
  | s :: ss => hoistedNames s ++ hoistedNamesIn ss
end

/-- The names that a statement at the top level of a module binds there. -/
def statementBindings : Node → List String
  | .mk (.stmt (.variable_ _ _)) _ ds => ds.flatMap declaredNames
  | .mk (.stmt (.function _)) _ (name :: _) => Node.identName name
  | .mk (.stmt (.class_ _)) _ (name :: _) => Node.identName name
  | s => hoistedNames s

/-- The names that an item binds at the top level of its module. -/
def moduleNames : Node → List String
  | .mk (.module (.import_ _)) _ (.mk .group _ specifiers :: _) => specifiers.filterMap localName?
  | .mk (.module .exportDecl) _ [d] => statementBindings d
  | .mk (.module .exportDefaultFunction) _ [name, _] => Node.identName name
  | .mk (.module .exportDefaultClass) _ (name :: _) => Node.identName name
  | item => statementBindings item

/-- Whether an item is a default function that a value takes the place of: in a server module, where
it is registered, and in any module if it runs on the server by its own directive. -/
def becomesValue (whole : Bool) : Node → Bool
  | .mk (.module .exportDefaultFunction) _ [_, f] => whole || isServerFunctionNode f
  | _ => false

/-- The names that an item binds and that do not go with a default function. -/
def lastingNames (whole : Bool) (item : Node) : List String :=
  if becomesValue whole item then [] else moduleNames item

theorem mem_lastingNames {whole : Bool} {items : List Node} {x : String} :
    x ∈ items.flatMap (lastingNames whole) ↔
      ∃ item ∈ items, becomesValue whole item = false ∧ x ∈ moduleNames item := by
  rw [List.mem_flatMap]
  refine exists_congr fun item => and_congr_right fun _ => ?_
  rw [lastingNames]
  cases becomesValue whole item <;> simp

/-! ## The extraction -/

section Extraction

variable {α : Type}

/-- What is kept if it is kept in the parts of a node, and where a call takes the place of a
closure. -/
theorem keptByExtraction_of_parts {read : Node → α}
    (hparts : ∀ k sp cs, (∀ c ∈ cs, ∀ st, read (extract c st).1 = read c) →
      ∀ st, read (.mk k sp (extractAll cs st).1) = read (.mk k sp cs))
    (hfill : ∀ n site target bound, StandsAt n site →
      read (site.fill (Build.bindNull target bound)) = read n) : KeptByExtraction read := by
  have hextract : ∀ (n : Node) (st : Extraction), read (extract n st).1 = read n :=
    Node.of_parts fun k sp cs ih st => by
      cases hs : serverSite? (.mk k sp cs) with
      | none =>
        rcases extract_of_serverSite?_eq_none hs st with heq | heq
        · rw [heq]
        · rw [heq]
          exact hparts k sp cs ih _
      | some site =>
        rw [extract_closure hs]
        exact hfill _ site _ _ (standsAt_of_serverSite? hs)
  refine ⟨fun n st => ?_, hfill⟩
  obtain ⟨k, sp, cs⟩ := n
  exact hparts k sp cs (fun c _ => hextract c) _

/-- A closure has no names by its form, and neither has the call in its place. -/
theorem fill_of_nil {read : Node → List α} (hnil : ∀ n, keepsKind n.kind = false → read n = [])
    (n : Node) (site : Site) (target : String) (bound : List String) (h : StandsAt n site) :
    read (site.fill (Build.bindNull target bound)) = read n := by
  rw [hnil _ (keepsKind_fill site target bound), hnil n h.keepsKind]

end Extraction

theorem boundNames_of_not_keepsKind {n : Node} (h : keepsKind n.kind = false) :
    n.boundNames = [] := by
  unfold Node.boundNames
  split
  all_goals first
    | rfl
    | exact absurd h (by simp [keepsKind])

/-- A pattern binds the same names after its default values were rewritten. -/
theorem keptByExtraction_boundNames : KeptByExtraction Node.boundNames := by
  refine keptByExtraction_of_parts (fun k sp cs ih st => ?_)
    (fill_of_nil fun n => boundNames_of_not_keepsKind)
  have hin : ∀ (ps : List Node) (st : Extraction), (∀ p ∈ ps, p ∈ cs) →
      Node.boundNamesIn (extractAll ps st).1 = Node.boundNamesIn ps := by
    intro ps
    induction ps with
    | nil => exact fun _ _ => rfl
    | cons p ps ihps =>
      intro st hps
      rw [extractAll_cons, Node.boundNamesIn, Node.boundNamesIn, ih p (hps p List.mem_cons_self),
        ihps _ fun q hq => hps q (List.mem_cons_of_mem _ hq)]
  -- What a pattern binds is bound by the part in front, or by the second of two parts.
  have hfirst : ∀ {p : PatternKind}, (∀ c rest, Node.boundNames (.mk (.pattern p) sp (c :: rest)) =
      c.boundNames) → Node.boundNames (.mk (.pattern p) sp (extractAll cs st).1) =
        Node.boundNames (.mk (.pattern p) sp cs) := by
    intro p hp
    cases cs with
    | nil => rfl
    | cons c rest => rw [extractAll_cons, hp, hp, ih c List.mem_cons_self]
  have hsecond : ∀ {k : Kind}, (∀ key c, Node.boundNames (.mk k sp [key, c]) = c.boundNames) →
      (∀ cs, cs.length ≠ 2 → Node.boundNames (.mk k sp cs) = []) →
      Node.boundNames (.mk k sp (extractAll cs st).1) = Node.boundNames (.mk k sp cs) := by
    intro k hk hother
    by_cases hlength : cs.length = 2
    · obtain ⟨key, c, rfl⟩ := List.length_eq_two.mp hlength
      rw [extractAll_cons, extractAll_cons]
      exact (hk _ _).trans ((ih c (by simp) _).trans (hk _ _).symm)
    · rw [hother _ hlength, hother _ (by rwa [length_extractAll])]
  cases k with
  | group => exact hin cs st fun _ hp => hp
  | pattern p =>
    cases p with
    | binding name optional => rfl
    | array optional => exact hfirst fun _ _ => rfl
    | object optional => exact hfirst fun _ _ => rfl
    | shorthand => exact hfirst fun _ _ => rfl
    | rest => exact hfirst fun _ _ => rfl
    | defaulted => exact hfirst fun _ _ => rfl
    | keyed =>
      refine hsecond (fun _ _ => rfl) fun cs hcs => ?_
      rcases cs with _ | ⟨_, _ | ⟨_, _ | _⟩⟩
      · rfl
      · rfl
      · exact absurd rfl hcs
      · rfl
  | member m =>
    cases m with
    | param =>
      refine hsecond (fun _ _ => rfl) fun cs hcs => ?_
      rcases cs with _ | ⟨_, _ | ⟨_, _ | _⟩⟩
      · rfl
      · rfl
      · exact absurd rfl hcs
      · rfl
    | _ => rfl
  | _ => rfl

theorem keptByExtraction_identName : KeptByExtraction Node.identName where
  parts n st := by
    obtain ⟨k, sp, cs⟩ := n
    cases k <;> rfl
  fill := fill_of_nil fun n hk => by
    unfold Node.identName
    split
    next => exact absurd hk (by simp [keepsKind])
    next => rfl

theorem keptByExtraction_declaredNames : KeptByExtraction declaredNames where
  parts n st := by
    obtain ⟨k, sp, cs⟩ := n
    show declaredNames (.mk k sp (extractAll cs _).1) = _
    cases k with
    | stmt s =>
      cases s with
      | declarator definite =>
        cases cs with
        | nil => rfl
        | cons pattern rest =>
          rw [extractAll_cons]
          exact keptByExtraction_boundNames.extract pattern _
      | _ => rfl
    | _ => rfl
  fill := fill_of_nil fun n hk => by
    unfold declaredNames
    split
    next => exact absurd hk (by simp [keepsKind])
    next => rfl

/-- A function that is moved out hoists nothing, and neither does the constant in its place. -/
theorem keptByExtraction_hoistedNames : KeptByExtraction hoistedNames := by
  refine keptByExtraction_of_parts (fun k sp cs ih st => ?_) fun n site target bound h => ?_
  · have hin : ∀ (ss : List Node) (st : Extraction), (∀ s ∈ ss, s ∈ cs) →
        hoistedNamesIn (extractAll ss st).1 = hoistedNamesIn ss := by
      intro ss
      induction ss with
      | nil => exact fun _ _ => rfl
      | cons s ss ihss =>
        intro st hss
        rw [extractAll_cons, hoistedNamesIn, hoistedNamesIn, ih s (hss s List.mem_cons_self),
          ihss _ fun q hq => hss q (List.mem_cons_of_mem _ hq)]
    cases k with
    | group => exact hin cs st fun _ hs => hs
    | stmt s =>
      cases s with
      | variable_ w isDeclare =>
        cases w with
        | var => exact keptByExtraction_declaredNames.flatMap_extractAll cs st
        | _ => rfl
      | function isDeclare => rfl
      | class_ isDeclare => rfl
      | _ => exact hin cs st fun _ hs => hs
    | _ => rfl
  · obtain ⟨k, sp, cs⟩ := n
    cases h with
    | function hk _ => cases hk; rfl
    | arrow hk _ => cases hk; rfl
    | declaration hk _ _ => cases hk; rfl
    | defaultExport hk _ => cases hk; rfl

/-- A declared function that is moved out leaves a constant of the same name. -/
theorem keptByExtraction_statementBindings : KeptByExtraction statementBindings where
  parts n st := by
    have hhoisted := keptByExtraction_hoistedNames.parts n st
    obtain ⟨k, sp, cs⟩ := n
    show statementBindings (.mk k sp (extractAll cs _).1) = _
    cases k with
    | stmt s =>
      cases s with
      | variable_ w isDeclare => exact keptByExtraction_declaredNames.flatMap_extractAll cs _
      | function isDeclare =>
        cases cs with
        | nil => rfl
        | cons name rest =>
          rw [extractAll_cons]
          exact keptByExtraction_identName.extract name _
      | class_ isDeclare =>
        cases cs with
        | nil => rfl
        | cons name rest =>
          rw [extractAll_cons]
          exact keptByExtraction_identName.extract name _
      | _ => exact hhoisted
    | _ => exact hhoisted
  fill n site target bound h := by
    obtain ⟨k, sp, cs⟩ := n
    cases h with
    | function hk _ => cases hk; rfl
    | arrow hk _ => cases hk; rfl
    | @declaration isDeclare name hk hname _ =>
      cases hk
      match cs, hname with
      | .mk nk nsp ncs :: rest, hname =>
        cases hname
        rfl
    | defaultExport hk _ => cases hk; rfl

theorem keptByExtraction_localName? : KeptByExtraction localName? := by
  refine keptByExtraction_of_none (fun n st => ?_) fun n hk => ?_
  · obtain ⟨k, sp, cs⟩ := n
    show localName? (.mk k sp (extractAll cs _).1) = _
    have hfirst : ∀ {m : ModuleKind}, (∀ c rest, localName? (.mk (.module m) sp (c :: rest)) =
        writtenName? c) → localName? (.mk (.module m) sp []) = none → ∀ st',
        localName? (.mk (.module m) sp (extractAll cs st').1) =
          localName? (.mk (.module m) sp cs) := by
      intro m hm hnone st'
      cases cs with
      | nil => rfl
      | cons c rest => rw [extractAll_cons, hm, hm, keptByExtraction_writtenName?.extract]
    cases k with
    | module m =>
      cases m with
      | importNamed t => exact hfirst (fun _ _ => rfl) rfl _
      | importDefault => exact hfirst (fun _ _ => rfl) rfl _
      | importNamespace => exact hfirst (fun _ _ => rfl) rfl _
      | _ => rfl
    | _ => rfl
  · unfold localName?
    split
    next => exact absurd hk (by simp [keepsKind])
    next => exact absurd hk (by simp [keepsKind])
    next => exact absurd hk (by simp [keepsKind])
    next => rfl

/-- Without the group of its specifiers an import binds no name. -/
theorem moduleNames_eq_nil {t : Bool} {sp : Span} {group : Node} {rest : List Node}
    (h : group.kind ≠ .group) :
    moduleNames (.mk (.module (.import_ t)) sp (group :: rest)) = [] := by
  obtain ⟨k, gsp, specifiers⟩ := group
  cases k with
  | group => exact absurd rfl h
  | _ => rfl

/-- An item whose parts were rewritten binds what it bound. -/
theorem moduleNames_rewriteParts (item : Node) (st : Extraction) :
    moduleNames (rewriteParts item st).1 = moduleNames item := by
  have hstatement := keptByExtraction_statementBindings.parts item st
  obtain ⟨k, sp, cs⟩ := item
  show moduleNames (.mk k sp (extractAll cs _).1) = _
  cases k with
  | module m =>
    cases m with
    | import_ t =>
      cases cs with
      | nil => rfl
      | cons group rest =>
        rw [extractAll_cons]
        by_cases hgroup : group.kind = .group
        · rw [extract_of_keepsKind (by rw [hgroup]; rfl) (by rw [hgroup]; rfl)]
          obtain ⟨gk, gsp, specifiers⟩ := group
          cases hgroup
          exact keptByExtraction_localName?.filterMap_extractAll specifiers _
        · rw [moduleNames_eq_nil hgroup,
            moduleNames_eq_nil fun h => hgroup ((extract_kind_iff rfl group _).mp h)]
    | exportDecl =>
      match cs with
      | [] => rfl
      | [d] =>
        rw [extractAll_cons]
        exact keptByExtraction_statementBindings.extract d _
      | _ :: _ :: _ => rw [extractAll_cons, extractAll_cons]; rfl
    | exportDefaultFunction =>
      match cs with
      | [] => rfl
      | [_] => rw [extractAll_cons]; rfl
      | [name, f] =>
        rw [extractAll_cons, extractAll_cons]
        exact keptByExtraction_identName.extract name _
      | _ :: _ :: _ :: _ => rw [extractAll_cons, extractAll_cons, extractAll_cons]; rfl
    | exportDefaultClass =>
      cases cs with
      | nil => rfl
      | cons name rest =>
        rw [extractAll_cons]
        exact keptByExtraction_identName.extract name _
    | _ => rfl
  | _ => exact hstatement

/-- A default function that becomes a value without being registered is a closure. -/
theorem becomesValue_of_serverSite? {item : Node} (h : serverSite? item = none) :
    becomesValue false item = false := by
  unfold becomesValue
  split
  next sp name f =>
    rw [Bool.false_or]
    cases hf : isServerFunctionNode f with
    | false => rfl
    | true =>
      change (if isServerFunctionNode f then some Site.defaultExport else none) = none at h
      rw [hf] at h
      exact absurd h (by simp)
  next => rfl

/-- **What is left of an item binds what the item binds**, but for a default function that runs on
the server by its own directive. -/
theorem moduleNames_extract (item : Node) (st : Extraction) :
    moduleNames (extract item st).1 = lastingNames false item := by
  cases hs : serverSite? item with
  | none =>
    rw [lastingNames, becomesValue_of_serverSite? hs]
    rcases extract_of_serverSite?_eq_none hs st with heq | heq
    · rw [heq]
      rfl
    · rw [heq]
      exact moduleNames_rewriteParts item st
  | some site =>
    rw [extract_closure hs]
    obtain ⟨k, sp, cs⟩ := item
    cases standsAt_of_serverSite? hs with
    | function hk _ => cases hk; rfl
    | arrow hk _ => cases hk; rfl
    | @declaration isDeclare name hk hname _ =>
      cases hk
      match cs, hname with
      | .mk nk nsp ncs :: rest, hname =>
        cases hname
        rfl
    | defaultExport hk hf =>
      cases hk
      match cs, hf with
      | [name, f], hf =>
        have hvalue : becomesValue false (.mk (.module .exportDefaultFunction) sp [name, f]) =
          true := hf
        rw [lastingNames, hvalue]
        rfl
      | [], _ => rfl
      | [_], _ => rfl
      | _ :: _ :: _ :: _, _ => rfl

theorem moduleNames_extractAll (items : List Node) (st : Extraction) :
    (extractAll items st).1.flatMap moduleNames = items.flatMap (lastingNames false) := by
  induction items generalizing st with
  | nil => rfl
  | cons item items ih =>
    rw [extractAll_cons, List.flatMap_cons, List.flatMap_cons, moduleNames_extract, ih]

/-- What is put behind the head of a module stands among its items. -/
theorem perm_insertAfterHead (new items : List Node) :
    (insertAfterHead new items).Perm (new ++ items) := by
  have hsplit : items.takeWhile isHead ++ items.dropWhile isHead = items :=
    List.takeWhile_append_dropWhile
  calc insertAfterHead new items
      = items.takeWhile isHead ++ new ++ items.dropWhile isHead := rfl
    _ |>.Perm (new ++ items.takeWhile isHead ++ items.dropWhile isHead) :=
        List.perm_append_comm.append_right _
    _ = new ++ items := by rw [List.append_assoc, hsplit]

/-- A closure that was moved out binds its name. -/
theorem moduleNames_items (id : String) (found : List Extracted) :
    (found.flatMap (·.items id)).flatMap moduleNames = found.map Extracted.name := by
  induction found with
  | nil => rfl
  | cons e found ih =>
    rw [List.flatMap_cons, List.flatMap_append, ih, List.map_cons]
    cases e <;> rfl

/-- What is extracted without an id is extracted under any id. -/
theorem exists_extractModule_ok {id : ModuleId} {module out : Node} {changed : Bool}
    (h : extractModule id module = .ok (out, changed)) :
    ∃ s, extractModule (.ok s) module = .ok (out, changed) := by
  cases id with
  | ok s => exact ⟨s, h⟩
  | error e =>
    refine ⟨"", ?_⟩
    unfold extractModule at h ⊢
    dsimp only at h ⊢
    split at h
    next hempty => rw [if_pos hempty, h]
    next => exact nomatch h

/-- After the extraction a module binds the names of its closures, and what it bound but for default
functions that were moved out. -/
theorem perm_moduleNames_extractModule {id : ModuleId} {shebang : Option String} {sp : Span}
    {items : List Node} {out : Node} {changed : Bool}
    (h : extractModule id (.mk (.module (.module_ shebang)) sp items) = .ok (out, changed)) :
    (out.children.flatMap moduleNames).Perm
      ((List.range (closurePlaces (.mk (.module (.module_ shebang)) sp items)).length).map
        extractedName ++ items.flatMap (lastingNames false)) := by
  obtain ⟨s, hs⟩ := exists_extractModule_ok h
  have hrelocates : Relocates s (.mk (.module (.module_ shebang)) sp items) _ _
      (extractAll items {}).2.found := relocates_found rfl
  rw [extractModule_eq] at hs
  cases hs
  rw [← hrelocates.names_eq, ← moduleNames_extractAll items {}, ← moduleNames_items s,
    ← List.flatMap_append]
  exact (perm_insertAfterHead _ _).flatMap_right moduleNames

/-! ## The registration of exported functions -/

section Registration

variable {id : ModuleId}

theorem declaredNames_registerDeclarator {d d' : Node} {changed : Bool}
    (h : registerDeclarator id d = .ok (d', changed)) : declaredNames d' = declaredNames d := by
  unfold registerDeclarator at h
  split at h
  next =>
    split at h
    next =>
      obtain ⟨s, -, hs⟩ := exists_of_requireId h
      cases hs
      rfl
    next =>
      cases h
      rfl
  next =>
    cases h
    rfl

theorem declaredNames_registerDeclarators {ds ds' : List Node} {changed : Bool}
    (h : registerDeclarators id ds = .ok (ds', changed)) :
    ds'.flatMap declaredNames = ds.flatMap declaredNames := by
  induction ds generalizing ds' changed with
  | nil =>
    cases h
    rfl
  | cons d ds ih =>
    obtain ⟨first, hd, hrest⟩ := exists_of_bind_eq_ok h
    obtain ⟨rest, hds, hout⟩ := exists_of_bind_eq_ok hrest
    cases hout
    rw [List.flatMap_cons, List.flatMap_cons, declaredNames_registerDeclarator hd, ih hds]

/-- **An item binds what it bound** after its function was registered, but for a default function:
the call around it is an expression. No default function is left that the extraction could move
out. -/
theorem lastingNames_registerItem {item : Node} {new : List Node} {changed : Bool}
    (h : registerItem id item = .ok (new, changed)) :
    new.flatMap (lastingNames false) = lastingNames true item := by
  unfold registerItem at h
  split at h
  next sp fsp name f =>
    split at h
    next =>
      obtain ⟨s, -, hs⟩ := exists_of_requireId h
      cases hs
      exact List.append_nil _
    next =>
      cases h
      exact List.append_nil _
  next sp w isDeclare vsp ds =>
    obtain ⟨rest, hds, hout⟩ := exists_of_bind_eq_ok h
    cases hout
    exact (List.append_nil _).trans (declaredNames_registerDeclarators hds)
  next =>
    obtain ⟨s, -, hs⟩ := exists_of_requireId h
    cases hs
    rfl
  next =>
    split at h
    next =>
      obtain ⟨s, -, hs⟩ := exists_of_requireId h
      cases hs
      rfl
    next =>
      cases h
      rfl
  next hdefault _ =>
    cases h
    have hstays : ∀ whole, becomesValue whole item = false := by
      intro whole
      unfold becomesValue
      split
      next => exact absurd rfl (hdefault _ _ _)
      next => rfl
    rw [List.flatMap_cons, List.flatMap_nil, List.append_nil, lastingNames, lastingNames, hstays,
      hstays]

theorem lastingNames_registerItems {items new : List Node} {changed : Bool}
    (h : registerItems id items = .ok (new, changed)) :
    new.flatMap (lastingNames false) = items.flatMap (lastingNames true) := by
  induction items generalizing new changed with
  | nil =>
    cases h
    rfl
  | cons item items ih =>
    obtain ⟨first, hitem, hrest⟩ := exists_of_bind_eq_ok h
    obtain ⟨rest, hitems, hout⟩ := exists_of_bind_eq_ok hrest
    cases hout
    rw [List.flatMap_append, List.flatMap_cons, lastingNames_registerItem hitem, ih hitems]

end Registration

/-! ## The whole module -/

/-- A directive binds nothing. -/
theorem lastingNames_of_directiveValue? {whole : Bool} {s : Node} {value : String}
    (h : directiveValue? s = some value) : lastingNames whole s = [] := by
  obtain ⟨hkind, c, raw, hcs, hc⟩ := (directiveValue?_eq_some_iff s value).mp h
  obtain ⟨k, sp, cs⟩ := s
  obtain ⟨ck, csp, ccs⟩ := c
  cases hkind
  cases hcs
  cases hc
  rfl

theorem lastingNames_bodyItems (whole : Bool) (module : Node) :
    (bodyItems module).flatMap (lastingNames whole) =
      module.children.flatMap (lastingNames whole) := by
  unfold bodyItems
  split
  next index hdirective =>
    obtain ⟨j, s, value, hj, hs, hvalue⟩ := exists_of_directiveFrom hdirective
    rw [Nat.zero_add] at hj
    subst hj
    exact flatMap_eraseIdx hs (lastingNames_of_directiveValue? hvalue)
  next => rfl

/-- The first pass gives a module with other items, which bind the same but for registered default
functions. -/
theorem lastingNames_registeredModule {id : ModuleId} {module first : Node} {changed : Bool}
    (h : registeredModule id module = .ok (first, changed)) :
    ∃ items, first = withItems module items ∧
      items.flatMap (lastingNames false) =
        module.children.flatMap (lastingNames (isServerModule module)) := by
  unfold registeredModule at h
  split at h
  next hwhole =>
    obtain ⟨⟨items, changed⟩, hitems, hout⟩ := exists_of_bind_eq_ok h
    cases hout
    refine ⟨items, rfl, ?_⟩
    rw [hwhole]
    exact (lastingNames_registerItems hitems).trans (lastingNames_bodyItems true module)
  next hwhole =>
    cases h
    refine ⟨bodyItems module, rfl, ?_⟩
    rw [Bool.not_eq_true] at hwhole
    rw [hwhole]
    exact lastingNames_bodyItems false module

/-- The name that the import of the function that registers binds, if it is there. -/
def importedName (changed : Bool) : List String := if changed then [registerServer] else []

theorem perm_moduleNames_withImport (changed : Bool) (items : List Node) :
    ((withImport changed items).flatMap moduleNames).Perm
      (importedName changed ++ items.flatMap moduleNames) := by
  cases changed with
  | true => exact (perm_insertAfterHead [serverImport] items).flatMap_right moduleNames
  | false => exact .refl _

section Module

variable {options : ServerOptions} {shebang : Option String} {sp : Span} {items : List Node}
  {out : Node} {changed : Bool}

/-- **The names of a module in the server graph** are the name of the import, the generated names of
the closures, and every other name as often as it was bound. -/
theorem perm_moduleNames_serverModule
    (hside : ∀ index,
      moduleDirective (.mk (.module (.module_ shebang)) sp items) ≠ some (index, .useClient))
    (h : serverModule options (.mk (.module (.module_ shebang)) sp items) = .ok (out, changed)) :
    let module := Node.mk (.module (.module_ shebang)) sp items
    ∃ first registered, registeredModule options.serverId module = .ok (first, registered) ∧
      (out.children.flatMap moduleNames).Perm (importedName changed ++
        ((List.range (closurePlaces first).length).map extractedName ++
          items.flatMap (lastingNames (isServerModule module)))) := by
  obtain ⟨first, registered, second, extracted, hfirst, hsecond, hout⟩ :=
    exists_of_serverModule hside h
  obtain ⟨left, rfl, hleft⟩ := lastingNames_registeredModule hfirst
  refine ⟨_, registered, hfirst, ?_⟩
  rw [hout]
  refine (perm_moduleNames_withImport changed _).trans (.append_left _ ?_)
  have hmoved := perm_moduleNames_extractModule hsecond
  rw [hleft] at hmoved
  exact hmoved

/-- **Bindings are kept.** A module that is not a client module stays bound to every name that it
binds at its top level, by an import, a variable, a function or a class: only a default function
that is registered, or runs on the server by its own directive, takes its name with it. Nothing but
generated names is bound anew. -/
theorem bindings_are_kept
    (hside : ∀ index,
      moduleDirective (.mk (.module (.module_ shebang)) sp items) ≠ some (index, .useClient))
    (h : serverModule options (.mk (.module (.module_ shebang)) sp items) = .ok (out, changed)) :
    let whole := isServerModule (.mk (.module (.module_ shebang)) sp items)
    (∀ item ∈ items, becomesValue whole item = false →
      ∀ x ∈ moduleNames item, x ∈ out.children.flatMap moduleNames) ∧
    ∀ x ∈ out.children.flatMap moduleNames, isReserved x = false →
      ∃ item ∈ items, becomesValue whole item = false ∧ x ∈ moduleNames item := by
  intro whole
  obtain ⟨first, -, -, hperm⟩ := perm_moduleNames_serverModule hside h
  refine ⟨fun item hitem hstays x hx => ?_, fun x hx hfree => ?_⟩
  · exact hperm.mem_iff.mpr (List.mem_append_right _ (List.mem_append_right _
      (mem_lastingNames.mpr ⟨item, hitem, hstays, hx⟩)))
  · rcases List.mem_append.mp (hperm.mem_iff.mp hx) with himport | hrest
    · -- The import binds a generated name.
      have hreserved : isReserved x = true := by
        cases changed with
        | true =>
          rw [List.mem_singleton.mp himport]
          exact isReserved_registerServer
        | false => exact absurd himport List.not_mem_nil
      rw [hfree] at hreserved
      exact absurd hreserved (by simp)
    · rcases List.mem_append.mp hrest with hclosure | hlasting
      · obtain ⟨k, -, rfl⟩ := List.mem_map.mp hclosure
        rw [isReserved_extractedName] at hfree
        exact absurd hfree (by simp)
      · exact mem_lastingNames.mp hlasting

end Module

/-- A default function with a name. -/
def defaultFunction (name : String) (statements : List Node) : Node :=
  Build.node (.module .exportDefaultFunction)
    [Build.ident name, (functionNamed name [] statements).part 1]

/-- In `'use server'; import { db } from './db'; export function save() { return async () => { 'use
server' } } const limit = '1'` the names `db`, `save` and `limit` stay bound. -/
theorem db_save_and_limit_stay_bound :
    let items := [
      Build.statement (Build.string Directive.useServer.text),
      Build.importAs "db" "db" "./db",
      Build.node (.module .exportDecl) [functionNamed "save" [] [returning (serverArrow [] [])]],
      Build.constant (Build.binding "limit") (Build.string "1")]
    (∀ index, moduleDirective (Build.module items) ≠ some (index, .useClient)) ∧
    ∃ out, serverModule ⟨.ok "m", .ok "m", false⟩ (Build.module items) = .ok (out, true) ∧
      ∀ x ∈ ["db", "save", "limit"], x ∈ out.children.flatMap moduleNames := by
  intro items
  have hside : ∀ index, moduleDirective (Build.module items) ≠ some (index, .useClient) := by
    intro index
    rw [show moduleDirective (Build.module items) = some (0, .useServer) from rfl]
    simp
  obtain ⟨out, hout⟩ : ∃ out, serverModule ⟨.ok "m", .ok "m", false⟩ (Build.module items) =
    .ok (out, true) := ⟨_, rfl⟩
  refine ⟨hside, out, hout, fun x hx => ?_⟩
  have hkept := (bindings_are_kept hside hout).1
  rcases List.mem_cons.mp hx with rfl | hx
  · exact hkept _ (List.mem_cons_of_mem _ List.mem_cons_self) rfl _ (by decide)
  rcases List.mem_cons.mp hx with rfl | hx
  · exact hkept _ (List.mem_cons_of_mem _ (List.mem_cons_of_mem _ List.mem_cons_self)) rfl _
      (by decide)
  · rw [List.mem_singleton.mp hx]
    exact hkept _ (List.mem_cons_of_mem _ (List.mem_cons_of_mem _ (List.mem_cons_of_mem _
      List.mem_cons_self))) rfl _ (by decide)

/-- In `'use server'; export default function reset() {} export const twice = () => reset()` the
default function becomes the argument of a call, where `reset` is the name of a function expression.
The function `twice` still calls it, and nothing binds it. -/
theorem default_function_loses_its_name :
    let items := [
      Build.statement (Build.string Directive.useServer.text),
      defaultFunction "reset" [],
      Build.exportConst "twice" (Build.expr (.arrow false)
        [.group [], Build.call "reset" [], .absent, .absent])]
    isScript (Build.module items) = true ∧ unreserved (Build.module items) = true ∧
    (∀ index, moduleDirective (Build.module items) ≠ some (index, .useClient)) ∧
    "reset" ∈ items.flatMap moduleNames ∧
    ∃ out, serverModule ⟨.ok "m", .ok "m", false⟩ (Build.module items) = .ok (out, true) ∧
      "reset" ∈ Node.freeNamesIn out.children ∧ "reset" ∉ out.children.flatMap moduleNames := by
  intro items
  refine ⟨by decide, by decide, fun index => ?_, by decide, _, rfl, by decide, by decide⟩
  rw [show moduleDirective (Build.module items) = some (0, .useServer) from rfl]
  simp

end ServerBoundary.Boundary
