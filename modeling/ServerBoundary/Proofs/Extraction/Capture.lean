import ServerBoundary.Proofs.Extraction.Arrival

/-!
# What a closure is given when it is moved out

A closure that is moved out no longer stands inside the functions around it. What it used of the
nearest one is given to it in two places that have to agree: as arguments of the `bind` call that
takes its place, and as parameters in front of its own.

Main statement: `bound_arguments_match_parameters`. For every closure of a module both lists are the
names that the nearest function around it binds, in that function's order, as far as the closure
uses them and does not bind them itself, and every closure that is moved out is one of these.
-/

namespace ServerBoundary.Boundary

open Syntax

/-! ## The form of a closure -/

/-- Functions, arrow functions and function expressions with a list of parameters. -/
inductive IsFunction : Node → Prop
  | function (m : FunctionMode) (sp gsp : Span) (params : List Node) (ds body : Node)
      (rest : List Node) :
      IsFunction (.mk (.member (.function m)) sp (.mk .group gsp params :: ds :: body :: rest))
  | arrow (isAsync : Bool) (sp gsp : Span) (params : List Node) (body : Node) (rest : List Node) :
      IsFunction (.mk (.expr (.arrow isAsync)) sp (.mk .group gsp params :: body :: rest))
  | expression (m : FunctionMode) (sp fsp gsp : Span) (name : Node) (params : List Node)
      (ds body : Node) (rest more : List Node) :
      IsFunction (.mk (.expr .function) sp
        (name :: .mk (.member (.function m)) fsp
          (.mk .group gsp params :: ds :: body :: rest) :: more))

/-- The parameters of a function, an arrow function or a function expression. -/
def parameters : Node → List Node
  | .mk (.member (.function _)) _ (.mk .group _ params :: _) => params
  | .mk (.expr (.arrow _)) _ (.mk .group _ params :: _) => params
  | .mk (.expr .function) _ (_ :: .mk (.member (.function _)) _ (.mk .group _ params :: _) :: _) =>
    params
  | _ => []

/-- A plain name as a parameter. The parameters of an arrow function are patterns as they are. -/
def asParameter (function : Node) (name : String) : Node :=
  match function.kind with
  | .expr (.arrow _) => Build.binding name
  | _ => plainParam name

/-- A plain name as a parameter binds that name. -/
theorem boundNames_asParameter (function : Node) (name : String) :
    Node.boundNames (asParameter function name) = [name] := by
  unfold asParameter
  split <;> rfl

/-- Parameters that each bind one name, in front of others. -/
theorem boundNamesIn_map_append {param : String → Node}
    (h : ∀ name, Node.boundNames (param name) = [name]) (names : List String)
    (params : List Node) :
    Node.boundNamesIn (names.map param ++ params) = names ++ Node.boundNamesIn params := by
  induction names with
  | nil => rfl
  | cons name names ih =>
    rw [List.map_cons, List.cons_append, Node.boundNamesIn, ih, h]
    rfl

theorem isFunction_of_isServerFunction {f : Node} (h : isServerFunction f = true) :
    IsFunction f := by
  unfold isServerFunction Node.scopeParts? at h
  split at h
  next hparts =>
    split at hparts
    next => exact .function ..
    next => exact .arrow ..
    next => exact absurd hparts (by simp)
  next => exact absurd h (by simp)

/-- A function that is not an arrow function, as a part of the node it belongs to. -/
theorem exists_children_of_isServerFunctionNode {n : Node}
    (h : isServerFunctionNode (n.part 1) = true) :
    ∃ name m fsp gsp params ds body rest more, n.children =
      name :: .mk (.member (.function m)) fsp (.mk .group gsp params :: ds :: body :: rest) ::
        more := by
  obtain ⟨⟨m, hk⟩, hf⟩ := (isServerFunctionNode_iff _).mp h
  have hform := isFunction_of_isServerFunction hf
  match hcs : n.children with
  | [] =>
    rw [Node.part, hcs] at hk
    exact absurd hk (by simp [Node.absent])
  | [_] =>
    rw [Node.part, hcs] at hk
    exact absurd hk (by simp [Node.absent])
  | name :: f :: more =>
    have hpart : n.part 1 = f := by
      rw [Node.part, hcs]
      rfl
    rw [hpart] at hk hform
    cases hform with
    | function m sp gsp params ds body rest =>
      exact ⟨name, m, sp, gsp, params, ds, body, rest, more, rfl⟩
    | arrow => exact absurd hk (by simp)
    | expression => exact absurd hk (by simp)

/-- What is moved out of a site is a function. -/
theorem isFunction_closure {n : Node} {site : Site} (h : serverSite? n = some site) :
    IsFunction (site.closure n) := by
  have hpart : isServerFunctionNode (n.part 1) = true → IsFunction (n.part 1) := fun hf =>
    isFunction_of_isServerFunction ((isServerFunctionNode_iff _).mp hf).2
  cases standsAt_of_serverSite? h with
  | function hk hf =>
    obtain ⟨name, m, fsp, gsp, params, ds, body, rest, more, hcs⟩ :=
      exists_children_of_isServerFunctionNode hf
    obtain ⟨k, sp, cs⟩ := n
    rw [Node.kind_mk] at hk
    rw [Node.children_mk] at hcs
    subst hk hcs
    exact .expression ..
  | arrow _ hf => exact isFunction_of_isServerFunction hf
  | declaration _ _ hf => exact hpart hf
  | defaultExport _ hf => exact hpart hf

/-- The names that a closure is given stand as parameters in front of its own. -/
theorem parameters_prependParams {f : Node} (h : IsFunction f) (names : List String) :
    parameters (prependParams names (stripFunction f)) =
      names.map (asParameter f) ++ parameters f := by
  cases h <;> rfl

/-! ## Modules -/

/-- Extracting a module is extracting its items. -/
theorem extract_module (shebang : Option String) (sp : Span) (items : List Node) :
    extract (.mk (.module (.module_ shebang)) sp items) {} =
      (.mk (.module (.module_ shebang)) sp (extractAll items {}).1, (extractAll items {}).2) := by
  rw [extract_of_not_isType rfl]
  rfl

/-- The items of the closures follow the head of the module, in the order in which the closures were
found. -/
theorem extractModule_of_found {module : Node} (h : (extractAll module.children {}).2.found ≠ [])
    (id : String) :
    extractModule (.ok id) module =
      .ok (withItems module (insertAfterHead
        ((extractAll module.children {}).2.found.flatMap (·.items id))
        (extractAll module.children {}).1), true) := by
  unfold extractModule
  dsimp only
  rw [if_neg (by simpa using h)]
  rfl

/-- The items of one closure stand together in the module. -/
theorem items_infix_insertAfterHead {found : List Extracted} {e : Extracted} (h : e ∈ found)
    (id : String) (items : List Node) :
    e.items id <:+: insertAfterHead (found.flatMap (·.items id)) items := by
  obtain ⟨before, after, hsplit⟩ := List.append_of_mem h
  refine ⟨items.takeWhile isHead ++ before.flatMap (·.items id),
    after.flatMap (·.items id) ++ items.dropWhile isHead, ?_⟩
  rw [insertAfterHead, hsplit, List.flatMap_append, List.flatMap_cons]
  simp only [List.append_assoc]

/-! ## The two lists -/

/-- What becomes of the closure at a path of a module: `closure` is the closure once those inside it
were replaced, `captured` what it is given and `count` the number of closures found before. -/
structure MovedOut (module : Node) (path : List Nat) (site : Site) (closure : Node)
    (captured : List String) (count : Nat) : Prop where
  /-- It is given what the nearest function around it binds, in the order of that function, as far
  as it uses it and does not bind it itself. -/
  captured_eq : captured = (module.enclosingNames path).filter fun name =>
    decide (name ∈ closure.identifiers) && !decide (name ∈ ownNames closure)
  nodup : captured.Nodup
  /-- A `bind` call with these names takes its place, there and in every tree around it up to the
  next closure. -/
  replaced : ∀ q r m st, path = q ++ r → r ≠ [] → arrival module {} q = some (m, st) →
    (∀ b ∈ (m.above r).dropLast, serverSite? b = none) →
    (rewriteParts m st).1.at? r = some (site.fill (Build.bindNull (extractedName count) captured))
  /-- The module exports it under the name that the call binds. -/
  exported : ∀ id, ∃ out, extractModule (.ok id) module = .ok (out, true) ∧
    (site.moved (extractedName count)
      (prependParams captured (stripFunction closure))).items id <:+: out.children
  /-- Its parameters are these names, followed by its own. -/
  parameters_eq : parameters (prependParams captured (stripFunction closure)) =
    captured.map (asParameter closure) ++ parameters closure
  /-- So its parameters bind these names, followed by what its own bind. -/
  bound_eq : Node.boundNamesIn (parameters (prependParams captured (stripFunction closure))) =
    captured ++ Node.boundNamesIn (parameters closure)

variable {shebang : Option String} {sp : Span} {items : List Node} {path : List Nat} {c : Node}
  {site : Site} {st : Extraction}

/-- What the extraction makes of a closure that it comes to. -/
theorem extract_closure (hs : serverSite? c = some site) (st : Extraction) :
    extract c st =
      (site.fill (Build.bindNull (rewriteParts c st).2.nextName
          ((rewriteParts c st).2.captured (site.closure (rewriteParts c st).1))),
        (rewriteParts c st).2.move site (site.closure (rewriteParts c st).1)) := by
  rw [extract_of_not_isType (isType_of_serverSite? hs),
    extractSite_of_some (by rw [serverSite?_rewriteParts, hs])]

/-- What a closure captures is taken from the function around it, and not from the functions inside
it. -/
theorem captured_rewriteParts {module : Node} (ha : arrival module {} path = some (c, st))
    (closure : Node) :
    (rewriteParts c st).2.captured closure =
      (module.enclosingNames path).filter fun name =>
        decide (name ∈ closure.identifiers) && !decide (name ∈ ownNames closure) := by
  -- The names of the functions inside the closure are off the stack again.
  have hscope : (rewriteParts c st).2.scope = module.enclosingNames path := by
    rw [Extraction.scope, rewriteParts_scopes]
    exact arrival_scope ha
  rw [Extraction.captured, hscope, capturedNames]
  simp only [List.contains_eq_mem]

/-- A closure has its place among those found by the number of closures found before it. -/
theorem getElem?_found_of_arrival
    (ha : arrival (.mk (.module (.module_ shebang)) sp items) {} path = some (c, st))
    (hs : serverSite? c = some site) :
    (extractAll items {}).2.found[(rewriteParts c st).2.found.length]? =
      some (site.moved (extractedName (rewriteParts c st).2.found.length)
        (prependParams ((rewriteParts c st).2.captured (site.closure (rewriteParts c st).1))
          (stripFunction (site.closure (rewriteParts c st).1)))) := by
  -- What is found up to the closure is a prefix of all that is found, and the closure ends it.
  have hpre := found_prefix_arrival ha
  rw [extract_closure hs, extract_module] at hpre
  obtain ⟨after, hafter⟩ := hpre
  rw [← hafter]
  show ((_ ++ [_]) ++ after)[_]? = _
  rw [List.append_assoc, List.getElem?_append_right (Nat.le_refl _), Nat.sub_self]
  rfl

/-- What the extraction makes of a closure has all the properties of `MovedOut`. -/
theorem movedOut_of_arrival
    (ha : arrival (.mk (.module (.module_ shebang)) sp items) {} path = some (c, st))
    (hs : serverSite? c = some site) :
    MovedOut (.mk (.module (.module_ shebang)) sp items) path site
      (site.closure (rewriteParts c st).1)
      ((rewriteParts c st).2.captured (site.closure (rewriteParts c st).1))
      (rewriteParts c st).2.found.length := by
  have hform : IsFunction (site.closure (rewriteParts c st).1) :=
    isFunction_closure (by rw [serverSite?_rewriteParts, hs])
  refine ⟨captured_rewriteParts ha _, ?_, ?_, ?_, parameters_prependParams hform _, ?_⟩
  · rw [captured_rewriteParts ha]
    exact (Node.nodup_enclosingNames _ _).filter _
  · intro q r m st' hpath hr hq hb
    -- From the end of `q` the extraction comes to the closure by `r` alone.
    rw [hpath, arrival_append r hq] at ha
    rw [at?_rewriteParts_of_arrival hr ha hb, extract_closure hs]
    rfl
  · intro id
    have hmem := List.mem_of_getElem? (getElem?_found_of_arrival ha hs)
    refine ⟨_, extractModule_of_found (List.ne_nil_of_mem hmem) id, ?_⟩
    exact items_infix_insertAfterHead hmem id _
  · rw [parameters_prependParams hform]
    exact boundNamesIn_map_append (boundNames_asParameter _) _ _

/-- Every closure that is found stands at a path of the module, and is found under the number of
closures found before it. -/
theorem exists_movedOut_of_found {k : Nat} {e : Extracted}
    (he : (extractAll items {}).2.found[k]? = some e) :
    ∃ path c site st, arrival (.mk (.module (.module_ shebang)) sp items) {} path = some (c, st) ∧
      serverSite? c = some site ∧
      e = site.moved (extractedName k)
        (prependParams ((rewriteParts c st).2.captured (site.closure (rewriteParts c st).1))
          (stripFunction (site.closure (rewriteParts c st).1))) ∧
      MovedOut (.mk (.module (.module_ shebang)) sp items) path site
        (site.closure (rewriteParts c st).1)
        ((rewriteParts c st).2.captured (site.closure (rewriteParts c st).1)) k := by
  have hlt : k < (extract (.mk (.module (.module_ shebang)) sp items) {}).2.found.length := by
    rw [extract_module]
    exact (List.getElem?_eq_some_iff.mp he).1
  obtain ⟨path, c, st, site, ha, hs, hk⟩ := exists_arrival_of_found _ {} k (Nat.zero_le k) hlt
  subst hk
  have hmoved := getElem?_found_of_arrival ha hs
  rw [he, Option.some.injEq] at hmoved
  exact ⟨path, c, site, st, ha, hs, hmoved, movedOut_of_arrival ha hs⟩

/-- **Bound arguments and leading parameters agree.** Wherever the extraction of a module comes to,
the stack holds the names of the functions around that place, before and after. Every server
closure of the module is moved out with what it captures of the nearest function around it, which
the call in its place binds and its first parameters name; and every closure that is found is one of
these. -/
theorem bound_arguments_match_parameters (shebang : Option String) (sp : Span)
    (items : List Node) :
    let module := Node.mk (.module (.module_ shebang)) sp items
    (∀ path n st, arrival module {} path = some (n, st) →
      st.scopes = (module.above path).filterMap Node.localNames? ∧
        (extract n st).2.scopes = st.scopes) ∧
    (∀ path c site, module.at? path = some c → (∀ a ∈ module.above path, a.kind.isType = false) →
      serverSite? c = some site → ∃ st captured,
        arrival module {} path = some (c, st) ∧
        MovedOut module path site (site.closure (rewriteParts c st).1) captured
          (rewriteParts c st).2.found.length) ∧
    (∀ (k : Nat) (e : Extracted), (extractAll items {}).2.found[k]? = some e →
      ∃ path c site st captured, arrival module {} path = some (c, st) ∧
        serverSite? c = some site ∧
        e = site.moved (extractedName k)
          (prependParams captured (stripFunction (site.closure (rewriteParts c st).1))) ∧
        MovedOut module path site (site.closure (rewriteParts c st).1) captured k) := by
  intro module
  refine ⟨?_, ?_, ?_⟩
  · intro path n st ha
    refine ⟨?_, extract_scopes n st⟩
    rw [arrival_scopes ha, List.append_nil]
  · intro path c site hc hv hs
    obtain ⟨st, ha⟩ := exists_arrival {} hc hv
    exact ⟨st, _, ha, movedOut_of_arrival ha hs⟩
  · intro k e he
    obtain ⟨path, c, site, st, ha, hs, he, hout⟩ := exists_movedOut_of_found he
    exact ⟨path, c, site, st, _, ha, hs, he, hout⟩

/-- An arrow function that runs on the server. -/
def serverArrow (params : List String) (statements : List Node) : Node :=
  Build.expr (.arrow true) [
    .group (params.map Build.binding),
    Build.node (.stmt .block)
      (Build.statement (Build.string Directive.useServer.text) :: statements),
    .absent, .absent]

/-- A function declaration. -/
def functionNamed (name : String) (params : List String) (statements : List Node) : Node :=
  Build.node (.stmt (.function false)) [
    Build.ident name,
    Build.node (.member (.function {})) [
      .group (params.map plainParam), .group [], Build.node (.stmt .block) statements,
      .absent, .absent]]

/-- A return statement. -/
def returning (e : Node) : Node := Build.node (.stmt .return_) [e]

/-- In a function of `b` and `a` the closure `(x) => save(a, b, x)` is given `b` and `a`, in this
order. -/
theorem closure_is_given_b_and_a :
    let items := [functionNamed "Page" ["b", "a"] [returning (serverArrow ["x"] [Build.statement
      (Build.call "save" [Build.ident "a", Build.ident "b", Build.ident "x"])])]]
    ∃ c, (Build.module items).at? [0, 1, 2, 0, 0] = some c ∧
      (∀ a ∈ (Build.module items).above [0, 1, 2, 0, 0], a.kind.isType = false) ∧
      serverSite? c = some .expression ∧
      ∃ st captured, arrival (Build.module items) {} [0, 1, 2, 0, 0] = some (c, st) ∧
        MovedOut (Build.module items) [0, 1, 2, 0, 0] .expression (rewriteParts c st).1 captured
          (rewriteParts c st).2.found.length ∧
        captured = ["b", "a"] := by
  intro items
  obtain ⟨c, hc⟩ : ∃ c, (Build.module items).at? [0, 1, 2, 0, 0] = some c := ⟨_, rfl⟩
  have hv : ∀ a ∈ (Build.module items).above [0, 1, 2, 0, 0], a.kind.isType = false := by
    decide
  have hs : serverSite? c = some .expression := by
    cases hc
    rfl
  obtain ⟨st, captured, ha, hout⟩ :=
    (bound_arguments_match_parameters none .generated items).2.1 _ c _ hc hv hs
  refine ⟨c, hc, hv, hs, st, captured, ha, hout, ?_⟩
  rw [hout.captured_eq]
  cases hc
  cases ha
  decide

end ServerBoundary.Boundary
