import ServerBoundary.Proofs.ClientModule.ClientForm
import ServerBoundary.Proofs.Syntax.Scope

/-!
# The order in which the server graph of a client module is evaluated

The items of a module are evaluated one after the other, and an initial value that uses a variable
or a class whose declaration stands later fails. A function is not run when it is declared, so what
it uses does not count. The server graph has other items than the module, in another order: what is
left, then the allowed items, then the stubs, where a stub may stand for a function or an import.

> `InOrder`: no initial value uses a variable or a class that is declared later, or itself.

> `evaluation_order_is_kept`: a module that is in order stays so if and only if no initial value that
> is left uses a name that the module exports, and no allowed value uses one that has a stub.

> `exported_dependency_is_read_too_early`: a module that is in order and does not stay so.
-/

namespace ServerBoundary.Boundary

open Syntax

/-! ## Names that are used when a value is computed -/

mutual
/-- A tree in which the functions have lost their parameters and bodies, which are not evaluated
where the functions stand. The computed keys and the decorators are left. -/
def withoutFunctions : Node → Node
  | .mk (.member (.function m)) sp (_ :: decorators :: _) =>
    .mk (.member (.function m)) sp [.absent, withoutFunctions decorators, .absent]
  | .mk (.member (.function m)) sp _ => .mk (.member (.function m)) sp []
  | .mk (.expr (.arrow isAsync)) sp _ => .mk (.expr (.arrow isAsync)) sp []
  | .mk (.member (.constructor_ m)) sp _ => .mk (.member (.constructor_ m)) sp []
  | .mk (.property .getter) sp (key :: _) => .mk (.property .getter) sp [withoutFunctions key]
  | .mk (.property .setter) sp (key :: _) => .mk (.property .setter) sp [withoutFunctions key]
  | .mk k sp cs => .mk k sp (withoutFunctionsIn cs)
/-- The trees of a list without the bodies of their functions. -/
def withoutFunctionsIn : List Node → List Node
  | [] => []
  | n :: ns => withoutFunctions n :: withoutFunctionsIn ns
end

/-- The names that a tree uses outside the functions in it. -/
def evaluatedNames (n : Node) : List String := (withoutFunctions n).freeNames

/-- The call that registers a value uses the registering function and what the value uses. -/
theorem evaluatedNames_clientRegistration (value : Node) (id name : String) :
    evaluatedNames (clientRegistration value id name) = registerClient :: evaluatedNames value := by
  simp [evaluatedNames, clientRegistration, Build.call, Build.expr, Build.node, Build.ident,
    Build.string, withoutFunctions, withoutFunctionsIn, Node.freeNames, Node.freeNamesIn,
    Node.introduced, Node.absent, without]

theorem evaluatedNames_stubValue (id name : String) :
    evaluatedNames (stubValue id name) = [registerClient] := by
  rw [stubValue, evaluatedNames_clientRegistration]
  rfl

/-! ## Steps -/

/-- A step of the evaluation of a module: the variables or the class that it declares, and the names
that its initial value uses. -/
structure Step where
  names : List String
  uses : List String

/-- No initial value uses what its own step or a later one declares. -/
def InOrder (steps : List Step) : Prop :=
  (∀ s ∈ steps, ∀ x ∈ s.uses, x ∉ s.names) ∧
    steps.Pairwise fun s t => ∀ x ∈ s.uses, x ∉ t.names

instance (steps : List Step) : Decidable (InOrder steps) :=
  inferInstanceAs (Decidable (_ ∧ _))

theorem inOrder_append {xs ys : List Step} :
    InOrder (xs ++ ys) ↔
      InOrder xs ∧ InOrder ys ∧ ∀ x ∈ xs.flatMap Step.uses, x ∉ ys.flatMap Step.names := by
  have hcross : (∀ s ∈ xs, ∀ t ∈ ys, ∀ x ∈ s.uses, x ∉ t.names) ↔
      ∀ x ∈ xs.flatMap Step.uses, x ∉ ys.flatMap Step.names := by
    simp only [List.mem_flatMap]
    exact ⟨fun h x ⟨s, hs, hx⟩ ⟨t, ht, hname⟩ => h s hs t ht x hx hname,
      fun h s hs t ht x hx hname => h x ⟨s, hs, hx⟩ ⟨t, ht, hname⟩⟩
  unfold InOrder
  rw [List.pairwise_append, List.forall_mem_append, hcross]
  tauto

/-- What is in order stays so if steps are left out. -/
theorem InOrder.sublist {xs ys : List Step} (h : InOrder ys) (hsub : xs.Sublist ys) : InOrder xs :=
  ⟨fun s hs => h.1 s (hsub.subset hs), h.2.sublist hsub⟩

/-- A step with a value that uses some more names. -/
def Step.using (more : List String) (s : Step) : Step := ⟨s.names, more ++ s.uses⟩

theorem names_using (more : List String) (xs : List Step) :
    (xs.map (Step.using more)).flatMap Step.names = xs.flatMap Step.names :=
  List.flatMap_map _ _ _

theorem mem_uses_using {more : List String} {xs : List Step} {x : String}
    (h : x ∈ (xs.map (Step.using more)).flatMap Step.uses) :
    x ∈ more ∨ x ∈ xs.flatMap Step.uses := by
  rw [List.flatMap_map] at h
  obtain ⟨s, hs, hx⟩ := List.mem_flatMap.mp h
  exact (List.mem_append.mp hx).imp_right fun hx => List.mem_flatMap.mpr ⟨s, hs, hx⟩

theorem mem_using_of_uses {more : List String} {xs : List Step} {x : String}
    (h : x ∈ xs.flatMap Step.uses) : x ∈ (xs.map (Step.using more)).flatMap Step.uses := by
  rw [List.flatMap_map]
  obtain ⟨s, hs, hx⟩ := List.mem_flatMap.mp h
  exact List.mem_flatMap.mpr ⟨s, hs, List.mem_append_right _ hx⟩

/-- What is in order stays so if the values use more names, which no step declares. -/
theorem InOrder.using {xs : List Step} {more : List String} (h : InOrder xs)
    (hmore : ∀ x ∈ more, x ∉ xs.flatMap Step.names) : InOrder (xs.map (Step.using more)) := by
  have hnew : ∀ t ∈ xs, ∀ x ∈ more, x ∉ t.names := fun t ht x hx hmem =>
    hmore x hx (List.mem_flatMap.mpr ⟨t, ht, hmem⟩)
  constructor
  · intro s hs
    obtain ⟨t, ht, rfl⟩ := List.mem_map.mp hs
    exact List.forall_mem_append.mpr ⟨hnew t ht, h.1 t ht⟩
  · rw [List.pairwise_map]
    refine h.2.imp_of_mem fun {s t} _ ht hst => ?_
    exact List.forall_mem_append.mpr ⟨hnew t ht, hst⟩

/-- The step of a declarator, with the names that its value is said to use. -/
def Step.ofDeclarator (uses : Node → List String) (d : Node) : Step :=
  ⟨(d.part 0).boundNames, uses d⟩

/-- The steps of an item: its variables, with what the values of plain and of exported ones are said
to use, or its class. -/
def stepsOf (plain exported : Node → List String) : Node → List Step
  | .mk (.stmt (.variable_ _ _)) _ ds => ds.map (Step.ofDeclarator plain)
  | .mk (.module .exportDecl) _ [.mk (.stmt (.variable_ _ _)) _ ds] =>
    ds.map (Step.ofDeclarator exported)
  | .mk (.stmt (.class_ _)) _ (name :: _) => [⟨Node.identName name, []⟩]
  | .mk (.module .exportDecl) _ [.mk (.stmt (.class_ _)) _ (name :: _)] =>
    [⟨Node.identName name, []⟩]
  | .mk (.module .exportDefaultClass) _ (name :: _) => [⟨Node.identName name, []⟩]
  | _ => []

/-! ## The steps of a client module and of its server graph -/

/-- The names that the initial value of a declarator uses. -/
def valueUses (d : Node) : List String := evaluatedNames (d.part 1)

/-- The same for a declarator that is left; the others are not evaluated in the server graph. -/
def retainedUses (kept : List String) (d : Node) : List String :=
  if (plainName? d).any kept.contains then valueUses d else []

/-- The names that the argument of a marker call uses, in the declarator of an allowed item. -/
def allowedUses (marker : String) (d : Node) : List String :=
  match allowedDeclarator marker d with
  | .ok (some a) => evaluatedNames a.value
  | _ => []

/-- The steps of a module with some allowed items. Only the values that the server graph evaluates
use anything. -/
def sourceSteps (module : Node) (allowed : List AllowedItem) : List Step :=
  module.children.flatMap
    (stepsOf (retainedUses (keptNames module allowed)) (allowedUses (markerIn module.children)))

/-- The steps of the server graph. -/
def finalSteps (out : Node) : List Step := out.children.flatMap (stepsOf valueUses valueUses)

/-- The declarators of a variable declaration that is not exported. -/
def plainDeclarators : Node → List Node
  | .mk (.stmt (.variable_ _ _)) _ ds => ds
  | _ => []

/-- The names that the stubs of a module declare: the stub of the default export declares none. -/
def stubBindings (module : Node) (allowed : List AllowedItem) : List String :=
  (stubNames module allowed).filter (· != defaultName)

/-- No value that the server graph evaluates uses a name whose declaration is put behind it. -/
structure UsesNoLaterExport (module : Node) (allowed : List AllowedItem) : Prop where
  /-- An initial value that is left uses no exported name. -/
  retained : ∀ x ∈ (module.children.flatMap plainDeclarators).flatMap
    (retainedUses (keptNames module allowed)),
    x ∉ allowed.map (·.name) ∧ x ∉ stubBindings module allowed
  /-- An allowed value uses no name that has a stub. -/
  allowed : ∀ x ∈ allowed.flatMap fun a => evaluatedNames a.value,
    x ∉ stubBindings module allowed

/-! ## What is left -/

section Left

variable {names : List String}

/-- The steps of what is left of an item are steps of the item. -/
theorem sublist_stepsOf_cutTo {item : Node} (h : hasNamed names item = true)
    (exported : Node → List String) :
    (stepsOf valueUses valueUses (cutTo names item)).Sublist
      (stepsOf (retainedUses names) exported item) := by
  rw [hasNamed] at h
  unfold pieces at h
  split at h
  next => exact List.nil_sublist _
  next w b sp ds =>
    rw [cutTo, pieces, map_snd_filter_isNamed]
    have hsame : (ds.filter fun d => (plainName? d).any names.contains).map
        (Step.ofDeclarator valueUses) =
        (ds.filter fun d => (plainName? d).any names.contains).map
          (Step.ofDeclarator (retainedUses names)) := by
      refine List.map_congr_left fun d hd => ?_
      rw [Step.ofDeclarator, Step.ofDeclarator, retainedUses, if_pos (List.mem_filter.mp hd).2]
    show List.Sublist (List.map _ (ds.filter _)) (ds.map _)
    rw [hsame]
    exact List.filter_sublist.map _
  next => exact List.nil_sublist _
  next => exact .refl _
  next => exact absurd h (by simp)

/-- The declarators that are not left are not evaluated. -/
theorem flatMap_retainedUses (ds : List Node) :
    (ds.filter fun d => (plainName? d).any names.contains).flatMap valueUses =
      ds.flatMap (retainedUses names) := by
  induction ds with
  | nil => rfl
  | cons d ds ih =>
    rw [List.filter_cons, List.flatMap_cons, retainedUses, ← ih]
    cases (plainName? d).any names.contains with
    | true => rfl
    | false => rfl

/-- The values that are left of an item use what they used. -/
theorem uses_cutTo {item : Node} (h : hasNamed names item = true) :
    (stepsOf valueUses valueUses (cutTo names item)).flatMap Step.uses =
      (plainDeclarators item).flatMap (retainedUses names) := by
  rw [hasNamed] at h
  unfold pieces at h
  split at h
  next => rfl
  next w b sp ds =>
    rw [cutTo, pieces, map_snd_filter_isNamed]
    show (List.map (Step.ofDeclarator valueUses) (ds.filter _)).flatMap Step.uses = ds.flatMap _
    rw [List.flatMap_map, ← flatMap_retainedUses]
    rfl
  next => rfl
  next => rfl
  next => exact absurd h (by simp)

/-- Of an item that is not left nothing is evaluated. -/
theorem uses_of_not_hasNamed {item : Node} (h : hasNamed names item = false) :
    (plainDeclarators item).flatMap (retainedUses names) = [] := by
  rw [← flatMap_retainedUses]
  unfold plainDeclarators
  split
  next w b sp ds =>
    rw [hasNamed, pieces, any_isNamed_eq, Bool.not_eq_false', List.isEmpty_iff] at h
    rw [h]
    rfl
  next => rfl

theorem sublist_stepsOf_retainItems (items : List Node) (exported : Node → List String) :
    ((retainItems names items).flatMap (stepsOf valueUses valueUses)).Sublist
      (items.flatMap (stepsOf (retainedUses names) exported)) := by
  rw [retainItems_eq, List.flatMap_map]
  refine (List.Sublist.flatMap_right _ fun item hitem => ?_).trans (List.filter_sublist.flatMap _)
  exact sublist_stepsOf_cutTo (List.mem_filter.mp hitem).2 exported

theorem uses_retainItems (items : List Node) :
    ((retainItems names items).flatMap (stepsOf valueUses valueUses)).flatMap Step.uses =
      (items.flatMap plainDeclarators).flatMap (retainedUses names) := by
  rw [retainItems_eq, List.flatMap_map, List.flatMap_assoc, List.flatMap_assoc]
  induction items with
  | nil => rfl
  | cons item items ih =>
    rw [List.flatMap_cons, ← ih]
    cases h : hasNamed names item with
    | true => rw [List.filter_cons_of_pos h, List.flatMap_cons, uses_cutTo h]
    | false =>
      rw [List.filter_cons_of_neg (by rw [h]; decide), uses_of_not_hasNamed h, List.nil_append]

end Left

/-! ## The allowed items and the stubs -/

section Exports

variable {module : Node} {allowed : List AllowedItem}

/-- The step of an allowed item in its module. -/
def AllowedItem.step (a : AllowedItem) : Step := ⟨[a.name], evaluatedNames a.value⟩

/-- The allowed items are steps of the module, in its order. -/
theorem sublist_allowedSteps {marker : String} {ds : List Node}
    (h : allowedAmong marker ds = .ok allowed) :
    (allowed.map AllowedItem.step).Sublist (ds.map (Step.ofDeclarator (allowedUses marker))) := by
  induction ds generalizing allowed with
  | nil =>
    cases h
    exact .refl _
  | cons d ds ih =>
    obtain ⟨found, hd, hrest⟩ := exists_of_bind_eq_ok h
    obtain ⟨rest, hds, hout⟩ := exists_of_bind_eq_ok hrest
    cases hout
    rw [List.map_append, List.map_cons]
    cases found with
    | none => exact (ih hds).cons _
    | some a =>
      have hstep : a.step = Step.ofDeclarator (allowedUses marker) d := by
        rw [Step.ofDeclarator, boundNames_of_plainName? (allowedDeclarator_eq_iff.mp hd).name_eq,
          allowedUses, hd]
        rfl
      rw [Option.toList_some, List.map_singleton, hstep]
      exact (ih hds).cons_cons _

theorem sublist_exportedSteps (plain exported : Node → List String) (items : List Node) :
    ((items.flatMap exportedDeclarators).map (Step.ofDeclarator exported)).Sublist
      (items.flatMap (stepsOf plain exported)) := by
  rw [List.map_flatMap]
  refine List.Sublist.flatMap_right _ fun item _ => ?_
  unfold exportedDeclarators
  split
  next => exact .refl _
  next => exact List.nil_sublist _

/-- The names that the value of an allowed item uses in the server graph beside its own: that of the
registering function, unless it is exported bare. -/
def registeringUses : Option String → List String
  | none => []
  | some _ => [registerClient]

theorem steps_exports (used : Option String) (allowed : List AllowedItem) :
    (allowed.map (·.export used)).flatMap (stepsOf valueUses valueUses) =
      (allowed.map AllowedItem.step).map (Step.using (registeringUses used)) := by
  have hexport : ∀ a : AllowedItem, stepsOf valueUses valueUses (a.export used) =
      [a.step.using (registeringUses used)] := by
    intro a
    cases used with
    | none => rfl
    | some id =>
      show [(⟨[a.name], evaluatedNames (clientRegistration a.value id a.name)⟩ : Step)] = _
      rw [evaluatedNames_clientRegistration]
      rfl
  rw [List.flatMap_map, List.map_map, List.map_eq_flatMap]
  exact List.flatMap_congr fun a _ => hexport a

/-- The stubs use the registering function only. -/
theorem steps_clientStubs (names : List String) (id : String) :
    (clientStubs names id).flatMap (stepsOf valueUses valueUses) =
      ((names.filter (· != defaultName)).map fun name => ⟨[name], []⟩).map
        (Step.using [registerClient]) := by
  induction names with
  | nil => rfl
  | cons name names ih =>
    rw [clientStubs, List.map_cons, List.flatMap_cons, ← clientStubs, ih]
    by_cases hdefault : name = defaultName
    · rw [List.filter_cons_of_neg (by simp [hdefault]), clientStub, Build.exportAs,
        if_pos (by rw [hdefault]; decide)]
      rfl
    · rw [List.filter_cons_of_pos (by simpa using hdefault), clientStub, Build.exportAs,
        if_neg (by simpa [defaultName] using hdefault)]
      show [(⟨[name], evaluatedNames (stubValue id name)⟩ : Step)] ++ _ = _
      rw [evaluatedNames_stubValue]
      rfl

theorem inOrder_of_no_uses {names : List String} :
    InOrder (names.map fun name => (⟨[name], []⟩ : Step)) := by
  constructor
  · intro s hs x hx
    obtain ⟨name, -, rfl⟩ := List.mem_map.mp hs
    exact absurd hx List.not_mem_nil
  · rw [List.pairwise_map]
    exact List.pairwise_of_forall fun _ _ x hx => absurd hx List.not_mem_nil

end Exports

/-! ## The server graph -/

/-- The steps of the server graph are those of what is left, of the allowed items and of the
stubs. -/
theorem finalSteps_clientItems (module : Node) (allowed : List AllowedItem) (used : Option String)
    (id : String) :
    finalSteps (withItems module (clientItems module allowed used id)) =
      (retainItems (keptNames module allowed) module.children).flatMap
          (stepsOf valueUses valueUses) ++
        ((allowed.map AllowedItem.step).map (Step.using (registeringUses used)) ++
          ((stubBindings module allowed).map fun name => ⟨[name], []⟩).map
            (Step.using [registerClient])) := by
  rw [finalSteps, withItems, Node.children_mk, clientItems, List.flatMap_cons, List.flatMap_append,
    List.flatMap_append, steps_exports, steps_clientStubs, List.append_assoc]
  rfl

/-- **The order of evaluation is kept** if, and only if, no value that the server graph evaluates
uses a name whose declaration is put behind it. The module is in order itself, as far as the server
graph evaluates it, and does not export the name of the registering function. -/
theorem evaluation_order_is_kept {id : ModuleId} {bare : Bool} {module out : Node}
    (h : clientModule id bare module = .ok out) (hregister : registerClient ∉ exportNames module)
    (horder : ∀ allowed, allowedItems (markerIn module.children) module.children = .ok allowed →
      InOrder (sourceSteps module allowed)) :
    ∃ allowed, allowedItems (markerIn module.children) module.children = .ok allowed ∧
      (InOrder (finalSteps out) ↔ UsesNoLaterExport module allowed) := by
  obtain ⟨allowed, clientId, ha, -, rfl⟩ := clientModule_eq h
  refine ⟨allowed, ha, ?_⟩
  -- What is left and the allowed items are steps of the module.
  have hleft : InOrder ((retainItems (keptNames module allowed) module.children).flatMap
      (stepsOf valueUses valueUses)) :=
    (horder allowed ha).sublist (sublist_stepsOf_retainItems _ _)
  have hallowed : InOrder (allowed.map AllowedItem.step) := (horder allowed ha).sublist
    ((sublist_allowedSteps ha).trans (sublist_exportedSteps _ _ _))
  have hnames : (allowed.map AllowedItem.step).flatMap Step.names = allowed.map (·.name) := by
    rw [List.flatMap_map]
    exact List.map_eq_flatMap.symm
  have huses : (allowed.map AllowedItem.step).flatMap Step.uses =
      allowed.flatMap fun a => evaluatedNames a.value := List.flatMap_map _ _ _
  have hstubs : ((stubBindings module allowed).map fun name => (⟨[name], []⟩ : Step)).flatMap
      Step.names = stubBindings module allowed := by
    rw [List.flatMap_map]
    exact List.flatMap_singleton' _
  -- The registering function is declared by none of them.
  have hnew : registerClient ∉ allowed.map (·.name) ∧
      registerClient ∉ stubBindings module allowed :=
    ⟨fun hname => hregister (mem_exportNames_of_allowed ha hname),
      fun hstub => hregister (mem_stubNames.mp (List.mem_filter.mp hstub).1).1⟩
  have hmore : ∀ {used : Option String}, ∀ x ∈ registeringUses used, x = registerClient := by
    intro used x hx
    cases used with
    | none => exact absurd hx List.not_mem_nil
    | some id => exact List.mem_singleton.mp hx
  rw [finalSteps_clientItems, inOrder_append, inOrder_append, List.flatMap_append, names_using,
    names_using, hnames, hstubs, uses_retainItems]
  constructor
  · rintro ⟨-, ⟨-, -, hlater⟩, hretained⟩
    refine ⟨fun x hx => not_or.mp fun hmem => hretained x hx (List.mem_append.mpr hmem),
      fun x hx => hlater x (mem_using_of_uses (by rwa [huses]))⟩
  · rintro ⟨hretained, hlater⟩
    refine ⟨hleft, ⟨hallowed.using ?_, inOrder_of_no_uses.using ?_, fun x hx => ?_⟩,
      fun x hx hmem => ?_⟩
    · intro x hx
      rw [hmore x hx, hnames]
      exact hnew.1
    · intro x hx
      rw [List.mem_singleton.mp hx, hstubs]
      exact hnew.2
    · rcases mem_uses_using hx with hx | hx
      · rw [hmore x hx]
        exact hnew.2
      · exact hlater x (huses ▸ hx)
    · rcases List.mem_append.mp hmem with hname | hstub
      · exact (hretained x hx).1 hname
      · exact (hretained x hx).2 hstub

/-- `sharedModule` is in order, and so is its server graph: its value uses `build` and, through it,
`base` and `helper`, and none of them is exported. -/
theorem shared_module_stays_in_order :
    registerClient ∉ exportNames sharedModule ∧
    (∀ allowed, allowedItems (markerIn sharedModule.children) sharedModule.children = .ok allowed →
      InOrder (sourceSteps sharedModule allowed)) ∧
    ∃ out, clientModule (.ok "m") false sharedModule = .ok out ∧ InOrder (finalSteps out) := by
  have hregister : registerClient ∉ exportNames sharedModule := by decide
  have horder : ∀ allowed,
      allowedItems (markerIn sharedModule.children) sharedModule.children = .ok allowed →
      InOrder (sourceSteps sharedModule allowed) := by
    intro allowed ha
    cases ha
    decide
  obtain ⟨out, hout⟩ : ∃ out, clientModule (.ok "m") false sharedModule = .ok out := ⟨_, rfl⟩
  refine ⟨hregister, horder, out, hout, ?_⟩
  obtain ⟨allowed, ha, hiff⟩ := evaluation_order_is_kept hout hregister horder
  refine hiff.mpr ?_
  cases ha
  exact ⟨by decide, by decide⟩

/-- A module that allows `1` as `first`, declares `second` with `first` and allows `second`. -/
def chainedModule : Node :=
  Build.module [
    Build.statement (Build.string Directive.useClient.text),
    Build.importAs markerName "allow" markerSource,
    Build.exportConst "first" (Build.call "allow" [Build.string "1"]),
    Build.constant (Build.binding "second") (Build.ident "first"),
    Build.exportConst "third" (Build.call "allow" [Build.ident "second"])]

/-- It is in order. In its server graph `second` is declared first, and its value uses `first`, which
is declared by the next item. -/
theorem exported_dependency_is_read_too_early :
    moduleDirective chainedModule = some (0, .useClient) ∧
    registerClient ∉ exportNames chainedModule ∧
    (∃ allowed,
      allowedItems (markerIn chainedModule.children) chainedModule.children = .ok allowed ∧
      InOrder (sourceSteps chainedModule allowed)) ∧
    ∃ out, clientModule (.ok "m") false chainedModule = .ok out ∧
      ((finalSteps out).map fun s => (s.names, s.uses)) =
        [(["second"], ["first"]), (["first"], [registerClient]),
          (["third"], [registerClient, "second"])] ∧
      ¬ InOrder (finalSteps out) := by
  refine ⟨rfl, by decide, ⟨_, rfl, by decide⟩, _, rfl, by decide, by decide⟩

end ServerBoundary.Boundary
