import ServerBoundary.Proofs.Extraction.Capture
import ServerBoundary.Proofs.Syntax.Scope

/-!
# Which names a closure loses when it is moved out

Only the names that the nearest function binds directly go along with a closure: its parameters and
the variables at the top level of its body. What comes from a function further out, and what is
declared deeper or with `function` or `class`, does not, although the closure could use it where it
stood.

> `moved_closure_names`: of the names that a closure uses, exactly those of the nearest function are
> its leading parameters, and exactly the others are left free in the function that it becomes.

The closure is taken as it is moved, when the closures inside it have made way for their calls; with
none inside it, it is the closure of the source (`rewriteParts_eq_self`).
-/

namespace ServerBoundary.Boundary

open Syntax Node

/-! ## The directive uses no names -/

theorem names_of_isUseServer {s : Node} (h : isUseServer s = true) :
    freeNames s = [] ∧ varNames s = [] ∧ lexicalNames s = [] := by
  unfold isUseServer directiveValue? at h
  split at h
  next => exact ⟨rfl, rfl, rfl⟩
  next => exact absurd h (by decide)

/-- What the statements of a block have to do with a name does not change when the directives are
taken away, if directives have nothing to do with names. -/
theorem exists_mem_filter_not_isUseServer {names : Node → List String}
    (hnames : ∀ s, isUseServer s = true → names s = []) (ss : List Node) (x : String) :
    (∃ s ∈ ss.filter fun s => !isUseServer s, x ∈ names s) ↔ ∃ s ∈ ss, x ∈ names s := by
  constructor
  · rintro ⟨s, hs, hx⟩
    exact ⟨s, (List.mem_filter.mp hs).1, hx⟩
  · rintro ⟨s, hs, hx⟩
    cases hd : isUseServer s with
    | true =>
      rw [hnames s hd] at hx
      exact absurd hx (by simp)
    | false => exact ⟨s, List.mem_filter.mpr ⟨hs, by rw [hd]; rfl⟩, hx⟩

theorem mem_freeNames_stripUseServer {body : Node} {x : String} :
    x ∈ freeNames (stripUseServer body) ↔ x ∈ freeNames body := by
  unfold stripUseServer
  split
  next sp ss =>
    simp only [freeNames_block, mem_without, List.mem_flatMap, mem_freeNamesIn]
    rw [exists_mem_filter_not_isUseServer fun s hs => (names_of_isUseServer hs).1,
      exists_mem_filter_not_isUseServer fun s hs => (names_of_isUseServer hs).2.2]
  next => exact Iff.rfl

theorem mem_varNames_stripUseServer {body : Node} {x : String} :
    x ∈ varNames (stripUseServer body) ↔ x ∈ varNames body := by
  unfold stripUseServer
  split
  next sp ss =>
    simp only [varNames_block, mem_varNamesIn]
    rw [exists_mem_filter_not_isUseServer fun s hs => (names_of_isUseServer hs).2.1]
  next => exact Iff.rfl

/-! ## More parameters bind more names -/

/-- Parameters that each use one name, in front of others. -/
theorem freeNamesIn_map_append {param : String → Node}
    (h : ∀ name, freeNames (param name) = [name]) (names : List String) (params : List Node) :
    freeNamesIn (names.map param ++ params) = names ++ freeNamesIn params := by
  induction names with
  | nil => rfl
  | cons name names ih =>
    rw [List.map_cons, List.cons_append, freeNamesIn, ih, h]
    rfl

/-- A function that is given more parameters uses what it used before, without these. -/
theorem mem_freeNames_prependParams {f : Node} (hf : IsFunction f) (names : List String)
    (x : String) :
    x ∈ freeNames (prependParams names (stripFunction f)) ↔ x ∈ freeNames f ∧ x ∉ names := by
  -- A new parameter binds its name and is itself the only place that uses it.
  have hplain : ∀ name, boundNames (plainParam name) = [name] := fun _ => rfl
  have hplain' : ∀ name, freeNames (plainParam name) = [name] := fun _ => rfl
  have hpattern : ∀ name, boundNames (Build.binding name) = [name] := fun _ => rfl
  have hpattern' : ∀ name, freeNames (Build.binding name) = [name] := fun _ => rfl
  cases hf with
  | function m sp gsp params ds body rest =>
    rw [stripFunction, prependParams, mem_freeNames_function, mem_freeNames_function,
      boundNamesIn_map_append hplain, freeNamesIn_map_append hplain', mem_freeNames_stripUseServer,
      mem_varNames_stripUseServer]
    grind
  | arrow isAsync sp gsp params body rest =>
    rw [stripFunction, prependParams, mem_freeNames_arrow, mem_freeNames_arrow,
      boundNamesIn_map_append hpattern, freeNamesIn_map_append hpattern',
      mem_freeNames_stripUseServer, mem_varNames_stripUseServer]
    grind
  | expression m sp fsp gsp name params ds body rest more =>
    rw [stripFunction, prependParams, mem_freeNames_functionExpr, mem_freeNames_functionExpr,
      mem_freeNames_function, mem_freeNames_function, boundNamesIn_map_append hplain,
      freeNamesIn_map_append hplain', mem_freeNames_stripUseServer, mem_varNames_stripUseServer]
    grind

/-- A closure uses a name that it binds itself in its parameters only. -/
theorem mem_freeNamesIn_parameters {f : Node} (hf : IsFunction f) {x : String}
    (h : x ∈ freeNames f) (hx : x ∈ ownNames f) : x ∈ freeNamesIn (parameters f) := by
  cases hf with
  | function m sp gsp params ds body rest => exact mem_freeNamesIn_of_mem_localNames rfl h hx
  | arrow isAsync sp gsp params body rest => exact mem_freeNamesIn_of_mem_localNames rfl h hx
  | expression m sp fsp gsp name params ds body rest more =>
    exact mem_freeNamesIn_of_mem_localNames (f := .mk (.member (.function m)) fsp _) rfl
      (mem_freeNames_functionExpr.mp h).1 hx

/-! ## A closure without closures -/

mutual
/-- A tree without server closures is left as it is. -/
theorem extract_eq_self : ∀ (n : Node) (st : Extraction),
    (∀ p b, n.at? p = some b → serverSite? b = none) → extract n st = (n, st)
  | .mk k sp cs, st, h => by
    cases hk : k.isType with
    | true => exact extract_of_isType (n := .mk k sp cs) hk st
    | false =>
      have hcs : ∀ i c p b, cs[i]? = some c → at? c p = some b → serverSite? b = none :=
        fun i c p b hc hb => h (i :: p) b (by rw [at?_cons (n := .mk k sp cs) hc, hb])
      rw [extract_of_not_isType (n := .mk k sp cs) hk, rewriteParts]
      dsimp only [kind_mk, span_mk, children_mk]
      rw [extractAll_eq_self cs _ hcs, Extraction.leave_enter]
      exact extractSite_of_none (h [] _ rfl) st
/-- The same for a list of trees. -/
theorem extractAll_eq_self : ∀ (ns : List Node) (st : Extraction),
    (∀ (i : Nat) (c : Node) p b, ns[i]? = some c → at? c p = some b → serverSite? b = none) →
      extractAll ns st = (ns, st)
  | [], _, _ => rfl
  | n :: ns, st, h => by
    rw [extractAll_cons, extract_eq_self n st fun p b hb => h 0 n p b rfl hb,
      extractAll_eq_self ns st fun i c p b hc hb => h (i + 1) c p b hc hb]
end

/-- A node without server closures inside it keeps its parts. -/
theorem rewriteParts_eq_self {n : Node} (st : Extraction)
    (h : ∀ p b, p ≠ [] → n.at? p = some b → serverSite? b = none) :
    rewriteParts n st = (n, st) := by
  have hcs : ∀ i c p b, n.children[i]? = some c → at? c p = some b → serverSite? b = none :=
    fun i c p b hc hb => h (i :: p) b (by simp) (by rw [at?_cons hc, hb])
  rw [rewriteParts, extractAll_eq_self _ _ hcs, Extraction.leave_enter]
  cases n with
  | mk k sp cs => rfl

/-! ## What goes along and what is lost -/

/-- What becomes of the names that the closure at a path of a module uses, when it is moved out with
the names it captures. -/
structure NamesMoved (module : Node) (path : List Nat) (closure : Node) (captured : List String) :
    Prop where
  /-- Of the names that it uses, it is given those that the nearest function around it binds
  directly, other than its own. -/
  captured_iff : ∀ name ∈ freeNames closure,
    (name ∈ captured ↔ name ∈ module.enclosingNames path ∧ name ∉ ownNames closure)
  /-- What it is given it binds: these names are its leading parameters. -/
  parameters_eq : parameters (prependParams captured (stripFunction closure)) =
    captured.map (asParameter closure) ++ parameters closure
  /-- Every other name that it uses is left free. -/
  free_iff : ∀ name, name ∈ freeNames (prependParams captured (stripFunction closure)) ↔
    name ∈ freeNames closure ∧ ¬ (name ∈ module.enclosingNames path ∧ name ∉ ownNames closure)
  /-- A name of its own can only be free in the default value of a parameter. -/
  own : ∀ name ∈ freeNames closure, name ∈ ownNames closure →
    name ∈ freeNamesIn (parameters closure)

/-- What a closure captures of the names that it uses. -/
theorem mem_captured_iff {closure : Node} {name : String} {scope : List String}
    (h : name ∈ freeNames closure) :
    name ∈ scope.filter (fun name =>
        decide (name ∈ closure.identifiers) && !decide (name ∈ ownNames closure)) ↔
      name ∈ scope ∧ name ∉ ownNames closure := by
  -- The names captured are chosen by where identifiers stand; a free name stands somewhere.
  have hused : name ∈ closure.identifiers :=
    mem_distinct.mpr (mem_occurrences_of_mem_freeNames h)
  simp [List.mem_filter, hused]

theorem namesMoved_of_movedOut {module : Node} {path : List Nat} {site : Site} {closure : Node}
    {captured : List String} {count : Nat} (hf : IsFunction closure)
    (h : MovedOut module path site closure captured count) :
    NamesMoved module path closure captured := by
  have hcaptured : ∀ name ∈ freeNames closure,
      (name ∈ captured ↔ name ∈ module.enclosingNames path ∧ name ∉ ownNames closure) := by
    intro name hname
    rw [h.captured_eq]
    exact mem_captured_iff hname
  refine ⟨hcaptured, h.parameters_eq, ?_, fun name => mem_freeNamesIn_parameters hf⟩
  intro name
  rw [mem_freeNames_prependParams hf]
  exact and_congr_right fun hname => not_congr (hcaptured name hname)

/-- **What the nearest function binds goes along, and nothing else.** Every closure that is found in
a module stands at a path of it. Of the names that the closure uses, it is given as leading
parameters those that the nearest function around it binds directly and that are not its own; the
function that it becomes is left with exactly the others. -/
theorem moved_closure_names (shebang : Option String) (sp : Span) (items : List Node) :
    let module := Node.mk (.module (.module_ shebang)) sp items
    ∀ (k : Nat) (e : Extracted), (extractAll items {}).2.found[k]? = some e →
      ∃ path c site st captured, arrival module {} path = some (c, st) ∧
        serverSite? c = some site ∧
        e = site.moved (extractedName k)
          (prependParams captured (stripFunction (site.closure (rewriteParts c st).1))) ∧
        NamesMoved module path (site.closure (rewriteParts c st).1) captured ∧
        ((∀ p b, p ≠ [] → c.at? p = some b → serverSite? b = none) →
          site.closure (rewriteParts c st).1 = site.closure c) := by
  intro module k e he
  obtain ⟨path, c, site, st, ha, hs, he, hout⟩ := exists_movedOut_of_found he
  have hform : IsFunction (site.closure (rewriteParts c st).1) :=
    isFunction_closure (by rw [serverSite?_rewriteParts, hs])
  refine ⟨path, c, site, st, _, ha, hs, he, namesMoved_of_movedOut hform hout, ?_⟩
  intro hinside
  rw [rewriteParts_eq_self st hinside]

/-! ## What full scope safety would need -/

/-- Whether the closure at a path of a module uses a name, in the source, that stands there for
something declared in a function around it, and is not given that name. -/
def Lost (module : Node) (path : List Nat) (name : String) : Prop :=
  ∃ c site st, arrival module {} path = some (c, st) ∧ serverSite? c = some site ∧
    name ∈ freeNames (site.closure c) ∧
    resolvesInFunction name (module.above path) = true ∧
    name ∉ (rewriteParts c st).2.captured (site.closure (rewriteParts c st).1)

/-- A function `Page` of `user` that declares a function `audit` and, in a block of its own, a
constant `log`. The first closure calls `audit(log)`; the second returns a third one, which returns
`user`. -/
def pageModule : Node :=
  Build.module [functionNamed "Page" ["user"] [
    functionNamed "audit" [] [],
    Build.node (.stmt .if_) [
      Build.ident "user",
      Build.node (.stmt .block) [
        Build.constant (Build.binding "log") (Build.ident "user"),
        returning (serverArrow [] [Build.statement (Build.call "audit" [Build.ident "log"])])],
      .absent],
    returning (serverArrow [] [returning (serverArrow [] [returning (Build.ident "user")])])]]

/-- Closures do lose names: what the nearest function declares with `function`, what a block of it
declares, what comes from a function further out, and what only a closure inside uses. -/
theorem not_all_names_go_along :
    Lost pageModule [0, 1, 2, 1, 1, 1, 0] "audit" ∧
    Lost pageModule [0, 1, 2, 1, 1, 1, 0] "log" ∧
    Lost pageModule [0, 1, 2, 2, 0, 1, 1, 0] "user" ∧
    Lost pageModule [0, 1, 2, 2, 0] "user" ∧
    ¬ ∀ module path name, ¬ Lost module path name := by
  have haudit : Lost pageModule [0, 1, 2, 1, 1, 1, 0] "audit" :=
    ⟨_, _, _, rfl, rfl, by decide, by decide, by decide⟩
  refine ⟨haudit, ?_, ?_, ?_, fun hsafe => hsafe _ _ _ haudit⟩
  · exact ⟨_, _, _, rfl, rfl, by decide, by decide, by decide⟩
  · exact ⟨_, _, _, rfl, rfl, by decide, by decide, by decide⟩
  · exact ⟨_, _, _, rfl, rfl, by decide, by decide, by decide⟩

/-- The third closure that is found is the one around the second; what it uses is accounted for. -/
theorem outer_closure_names :
    ∃ e, (extractAll pageModule.children {}).2.found[2]? = some e ∧
      ∃ path c site st captured, arrival pageModule {} path = some (c, st) ∧
        serverSite? c = some site ∧
        e = site.moved (extractedName 2)
          (prependParams captured (stripFunction (site.closure (rewriteParts c st).1))) ∧
        NamesMoved pageModule path (site.closure (rewriteParts c st).1) captured ∧
        ((∀ p b, p ≠ [] → c.at? p = some b → serverSite? b = none) →
          site.closure (rewriteParts c st).1 = site.closure c) :=
  ⟨_, rfl, moved_closure_names none .generated pageModule.children 2 _ rfl⟩

end ServerBoundary.Boundary
