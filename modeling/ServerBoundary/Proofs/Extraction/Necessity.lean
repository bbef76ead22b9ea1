import ServerBoundary.Proofs.Extraction.GeneratedNames
import ServerBoundary.Proofs.Extraction.ScopeSafety
import ServerBoundary.Proofs.Syntax.Hidden

/-!
# What a closure is given without using it

A closure is given a name of the function around it when an identifier of that name stands in it,
whatever the identifier is there. So it is given names that it does not use: a binding of a function
or a block inside it, a label, its own name. A value that it does not use is then bound into what
the client gets. And where the closure is the value of a variable, the call that takes its place may
be given this variable, which has no value yet.

> `captured_names_are_needed`: a name that a closure is given and that is hidden nowhere in the
> closure of the source is used by it, and stands there for something declared in the function
> around it.

> `own_variable_is_captured_iff`: a closure that is the value of a variable is given this variable
> exactly if the function around it binds the variable directly, the name stands in the closure, and
> the closure does not bind it itself. It is not, if the name does not stand in the closure of the
> source.

Neither holds without its condition (`unused_names_are_captured`, `own_variables_are_captured`).
-/

namespace ServerBoundary.Boundary

open Syntax Node

variable {x : String}

/-! ## What stands in a rewritten tree -/

/-- What stands in a part of a node stands in the node, also if the part is not written. -/
theorem mem_occurrences_of_mem_part {n : Node} {i : Nat} (ht : n.kind.isType = false)
    (h : x ∈ (n.part i).occurrences) : x ∈ n.occurrences := by
  rw [part, List.getD_eq_getElem?_getD] at h
  cases hi : n.children[i]? with
  | none =>
    rw [hi] at h
    exact absurd h List.not_mem_nil
  | some c =>
    rw [hi] at h
    obtain ⟨k, sp, cs⟩ := n
    exact mem_occurrences_of_mem ht (List.mem_of_getElem? hi) h

/-- What is moved out of a site stands in it. -/
theorem mem_occurrences_of_mem_closure {n : Node} {site : Site} (ht : n.kind.isType = false)
    (h : x ∈ (site.closure n).occurrences) : x ∈ n.occurrences := by
  cases site with
  | expression => exact h
  | declaration _ _ => exact mem_occurrences_of_mem_part ht h
  | defaultExport => exact mem_occurrences_of_mem_part ht h

theorem occurrencesIn_map_ident (names : List String) :
    occurrencesIn (names.map Build.ident) = names := by
  induction names with
  | nil => rfl
  | cons name names ih =>
    rw [List.map_cons, occurrencesIn, ih]
    rfl

/-- In a call that takes the place of a closure stand the function that is called and the names that
it is given. -/
theorem occurrences_bindNull (target : String) (bound : List String) :
    (Build.bindNull target bound).occurrences = target :: bound := by
  simp only [Build.bindNull, Build.expr, Build.node, occurrences, occurrencesIn,
    occurrencesIn_map_ident]
  simp [Build.ident, Build.node, absent, occurrences, occurrencesIn, Kind.isType, Kind.identifier?]

/-- What takes the place of a closure is the call, behind the name if it was a declaration. -/
theorem mem_occurrences_fill {site : Site} {target : String} {bound : List String}
    (h : x ∈ (site.fill (Build.bindNull target bound)).occurrences) :
    x ∈ target :: bound ∨ ∃ at_, site = .declaration x at_ := by
  cases site with
  | expression =>
    rw [Site.fill, occurrences_bindNull] at h
    exact .inl h
  | declaration name at_ =>
    simp only [Site.fill, Build.constant, Build.node, occurrences, occurrencesIn,
      occurrences_bindNull, absent, Kind.isType, Kind.identifier?] at h
    rcases List.mem_cons.mp h with rfl | h
    · exact .inr ⟨at_, rfl⟩
    · exact .inl (by simpa using h)
  | defaultExport =>
    simp only [Site.fill, Build.exportDefault, Build.node, occurrences, occurrencesIn,
      occurrences_bindNull, Kind.isType, Kind.identifier?] at h
    exact .inl (by simpa using h)

/-- What a closure is given stands in it. -/
theorem mem_occurrences_of_mem_captured {st : Extraction} {closure : Node}
    (h : x ∈ st.captured closure) : x ∈ closure.occurrences := by
  have hused := (List.mem_filter.mp h).2
  rw [Bool.and_eq_true, List.contains_iff_mem] at hused
  exact mem_distinct.mp hused.1

/-- A node with other parts, in which nothing else stands that is not of some sort, has nothing else
standing in it either. -/
theorem mem_occurrences_of_parts {k : Kind} {sp : Span} {cs cs' : List Node} {P : Prop}
    (hcs : x ∈ occurrencesIn cs' → x ∈ occurrencesIn cs ∨ P) (h : x ∈ occurrences (.mk k sp cs')) :
    x ∈ occurrences (.mk k sp cs) ∨ P := by
  rw [occurrences] at h ⊢
  split at h
  next => exact absurd h List.not_mem_nil
  next ht =>
    rw [if_neg ht]
    rcases List.mem_append.mp h with hown | hpart
    · exact .inl (List.mem_append_left _ hown)
    · exact (hcs hpart).imp_left (List.mem_append_right _)

mutual
/-- **The extraction puts no name into a tree**, other than the names that it makes for the
closures: every name that stands in a rewritten tree stood in it before. -/
theorem mem_occurrences_extract : ∀ (n : Node) (st : Extraction), x ∈ (extract n st).1.occurrences →
    x ∈ n.occurrences ∨ ∃ j, x = extractedName j
  | .mk k sp cs, st, h => by
    cases ht : k.isType with
    | true =>
      rw [extract_of_isType (n := .mk k sp cs) ht] at h
      exact .inl h
    | false =>
      -- What stands in the parts stands in the closure, if the node is one.
      have hparts : x ∈ (rewriteParts (.mk k sp cs) st).1.occurrences →
          x ∈ occurrences (.mk k sp cs) ∨ ∃ j, x = extractedName j :=
        mem_occurrences_of_parts (mem_occurrencesIn_extractAll cs _)
      rw [extract_of_not_isType (n := .mk k sp cs) ht] at h
      cases hs : serverSite? (rewriteParts (.mk k sp cs) st).1 with
      | none =>
        rw [extractSite_of_none hs] at h
        exact hparts h
      | some site =>
        rw [extractSite_of_some hs] at h
        rcases mem_occurrences_fill h with hcall | ⟨at_, rfl⟩
        · rcases List.mem_cons.mp hcall with htarget | hgiven
          · exact .inr ⟨_, htarget⟩
          · exact hparts (mem_occurrences_of_mem_closure ht (mem_occurrences_of_mem_captured hgiven))
        · refine hparts (mem_occurrences_of_mem_part (i := 0) ht ?_)
          exact mem_occurrences_of_mem_freeNames
            (mem_freeNames_of_identifier? (by rw [kind_of_declaration hs]; rfl))
/-- The same for a list of trees. -/
theorem mem_occurrencesIn_extractAll : ∀ (ns : List Node) (st : Extraction),
    x ∈ occurrencesIn (extractAll ns st).1 → x ∈ occurrencesIn ns ∨ ∃ j, x = extractedName j
  | [], _, h => .inl h
  | n :: ns, st, h => by
    rw [extractAll_cons, occurrencesIn] at h
    rw [occurrencesIn]
    rcases List.mem_append.mp h with hfirst | hrest
    · exact (mem_occurrences_extract n st hfirst).imp_left (List.mem_append_left _)
    · exact (mem_occurrencesIn_extractAll ns _ hrest).imp_left (List.mem_append_right _)
end

/-- What stands in a closure as it is moved stands in the closure of the source. -/
theorem mem_occurrences_closure {c : Node} {site : Site} {st : Extraction}
    (hs : serverSite? c = some site)
    (h : x ∈ (site.closure (rewriteParts c st).1).occurrences) :
    x ∈ (site.closure c).occurrences ∨ ∃ j, x = extractedName j := by
  have hpart : x ∈ ((rewriteParts c st).1.part 1).occurrences →
      x ∈ (c.part 1).occurrences ∨ ∃ j, x = extractedName j := by
    obtain ⟨st', hrewritten⟩ := part_rewriteParts c 1 st
    rw [hrewritten]
    exact mem_occurrences_extract _ _
  cases site with
  | expression =>
    obtain ⟨k, sp, cs⟩ := c
    exact mem_occurrences_of_parts (mem_occurrencesIn_extractAll cs _) h
  | declaration _ _ => exact hpart h
  | defaultExport => exact hpart h

/-- A name that is not reserved is none that the extraction makes. -/
theorem ne_extractedName (h : isReserved x = false) (j : Nat) : x ≠ extractedName j := by
  intro heq
  rw [heq, isReserved_extractedName] at h
  exact absurd h (by simp)

/-- A name that a closure is given stands in the closure of the source, unless the extraction made
it. -/
theorem mem_occurrences_of_captured {c : Node} {site : Site} {st : Extraction}
    (hs : serverSite? c = some site) (hmade : ∀ j, x ≠ extractedName j)
    (h : x ∈ (rewriteParts c st).2.captured (site.closure (rewriteParts c st).1)) :
    x ∈ (site.closure c).occurrences := by
  rcases mem_occurrences_closure hs (mem_occurrences_of_mem_captured h) with hx | ⟨j, hj⟩
  · exact hx
  · exact absurd hj (hmade j)

/-! ## What a name stands for around a closure -/

/-- The nodes that are passed on the way from the function around a place to that place, innermost
first. -/
def withinFunction (module : Node) (path : List Nat) : List Node :=
  (module.above path).takeWhile fun a => !a.scopeParts?.isSome

theorem isFunctionScope_of_scopeParts? {f : Node} (h : f.scopeParts?.isSome = true) :
    isFunctionScope f = true := by
  unfold scopeParts? at h
  split at h
  next => rfl
  next => rfl
  next => exact absurd h (by simp)

/-- What a function binds directly, it brings into scope itself, or its body does. -/
theorem mem_introduced_of_mem_localNames {f body : Node} {params : List Node}
    (hf : f.scopeParts? = some (params, body)) (h : x ∈ f.localNames) :
    x ∈ f.introduced ∨ x ∉ boundNamesIn params ∧ x ∈ body.introduced := by
  have hscope : ∀ y, y ∈ boundNamesIn params ∨ y ∈ varNames body → y ∈ f.introduced := by
    intro y hy
    unfold scopeParts? at hf
    split at hf
    next =>
      cases hf
      exact List.mem_cons_of_mem _ (List.mem_append.mpr hy)
    next =>
      cases hf
      exact List.mem_append.mpr hy
    next => exact absurd hf (by simp)
  by_cases hparam : x ∈ boundNamesIn params
  · exact .inl (hscope x (.inl hparam))
  · rw [localNames, localNames?, hf] at h
    rcases List.mem_append.mp (mem_distinct.mp h) with hbound | hvariable
    · exact absurd hbound hparam
    · unfold statements at hvariable
      split at hvariable
      next sp ss =>
        obtain ⟨s, hs, hx⟩ := List.mem_flatMap.mp hvariable
        rcases mem_variableNames_cases hx with hvar | hlexical
        · refine .inl (hscope x (.inr ?_))
          rw [varNames_block]
          exact mem_varNamesIn.mpr ⟨s, hs, hvar⟩
        · exact .inr ⟨hparam, List.mem_flatMap.mpr ⟨s, hs, hlexical⟩⟩
      next => exact absurd hvariable List.not_mem_nil

/-- A name that a function or a node inside it brings into scope stands there for something declared
in the function. -/
theorem resolvesInFunction_of_introduced {f : Node} (hf : isFunctionScope f = true)
    (outer : List Node) :
    ∀ inner : List Node, (∃ a ∈ inner ++ [f], x ∈ a.introduced) →
      resolvesInFunction x (inner ++ f :: outer) = true
  | [], ⟨a, ha, hx⟩ => by
    rw [List.mem_singleton.mp ha] at hx
    rw [List.nil_append, resolvesInFunction, if_pos (by simpa using hx), List.any_cons, hf]
    rfl
  | b :: inner, ⟨a, ha, hx⟩ => by
    rw [List.cons_append, resolvesInFunction]
    split
    next => simp [hf]
    next hb =>
      refine resolvesInFunction_of_introduced hf outer inner ⟨a, ?_, hx⟩
      rcases List.mem_cons.mp ha with rfl | ha
      · exact absurd (by simpa using hx) hb
      · exact ha

/-- Why a closure is given a name: it uses the name, the function around it binds the name, and the
name stands for that there. A variable of the body is not in scope in the parameters, so the last is
said of a closure that stands in the body. -/
structure Needed (module : Node) (path : List Nat) (closure : Node) (name : String) : Prop where
  used : name ∈ freeNames closure
  bound : name ∈ module.enclosingNames path
  resolves : ∀ f params body, module.enclosingFunction? path = some f →
    f.scopeParts? = some (params, body) →
    name ∈ boundNamesIn params ∨ body ∈ withinFunction module path →
    resolvesInFunction name (module.above path) = true

/-- What the function around a place binds directly stands for something declared in it. -/
theorem resolvesInFunction_of_mem_enclosingNames {module f body : Node} {path : List Nat}
    {params : List Node} (hbound : x ∈ module.enclosingNames path)
    (hf : module.enclosingFunction? path = some f) (hparts : f.scopeParts? = some (params, body))
    (hseen : x ∈ boundNamesIn params ∨ body ∈ withinFunction module path) :
    resolvesInFunction x (module.above path) = true := by
  rw [enclosingNames, hf] at hbound
  obtain ⟨hsome, inner, outer, habove, hinner⟩ := List.find?_eq_some_iff_append.mp hf
  have hwithin : withinFunction module path = inner := by
    rw [withinFunction, habove, List.takeWhile_append_of_pos (by simpa using hinner),
      List.takeWhile_cons_of_neg (by simp [hsome]), List.append_nil]
  rw [habove]
  refine resolvesInFunction_of_introduced (isFunctionScope_of_scopeParts? hsome) outer inner ?_
  rcases mem_introduced_of_mem_localNames hparts hbound with hfunction | ⟨hparam, hbody⟩
  · exact ⟨f, List.mem_append_right _ (List.mem_singleton_self f), hfunction⟩
  · have hmem : body ∈ inner := hwithin ▸ hseen.resolve_left hparam
    exact ⟨body, List.mem_append_left _ hmem, hbody⟩

/-! ## Names that are needed -/

/-- **Closures are given what they need, as far as no name is hidden in them.** The extraction moves
every closure that it comes to out, with a call in its place, and every closure that is found is one
of these. A name that it is given, and that is hidden nowhere in the closure of the source, is used
there and stands for something declared in the function around it. -/
theorem captured_names_are_needed (shebang : Option String) (sp : Span) (items : List Node) :
    let module := Node.mk (.module (.module_ shebang)) sp items
    (∀ path c site st, arrival module {} path = some (c, st) → serverSite? c = some site →
      let closure := site.closure (rewriteParts c st).1
      let captured := (rewriteParts c st).2.captured closure
      MovedOut module path site closure captured (rewriteParts c st).2.found.length ∧
        ∀ name ∈ captured, (∀ j, name ≠ extractedName j) →
          name ∉ hiddenNames (site.closure c) → Needed module path (site.closure c) name) ∧
    ∀ (k : Nat) (e : Extracted), (extractAll items {}).2.found[k]? = some e →
      ∃ path c site st, arrival module {} path = some (c, st) ∧ serverSite? c = some site ∧
        (rewriteParts c st).2.found.length = k := by
  intro module
  constructor
  · intro path c site st ha hs
    have hout : MovedOut module path site _ _ _ := movedOut_of_arrival ha hs
    refine ⟨hout, ?_⟩
    intro name hname hmade hhidden
    have hstands := mem_occurrences_of_captured hs hmade hname
    have hbound : name ∈ module.enclosingNames path := by
      rw [hout.captured_eq] at hname
      exact (List.mem_filter.mp hname).1
    refine ⟨?_, hbound, fun f params body hf hparts hseen =>
      resolvesInFunction_of_mem_enclosingNames hbound hf hparts hseen⟩
    exact (mem_freeNames_or_mem_hiddenNames _ _ hstands).resolve_right hhidden
  · intro k e he
    have hlt : k < (extract module {}).2.found.length := by
      rw [extract_module]
      exact (List.getElem?_eq_some_iff.mp he).1
    obtain ⟨path, c, st, site, ha, hs, hk⟩ :=
      exists_arrival_of_found module {} k (Nat.zero_le k) hlt
    exact ⟨path, c, site, st, ha, hs, hk⟩

/-- A named function expression that runs on the server. -/
def serverFunctionNamed (name : String) (statements : List Node) : Node :=
  Build.expr .function [
    Build.ident name,
    Build.node (.member (.function { isAsync := true })) [
      .group [], .group [],
      Build.node (.stmt .block)
        (Build.statement (Build.string Directive.useServer.text) :: statements),
      .absent, .absent]]

/-- A function `Page` of `id` and `user` with three closures: `(ids) => map(ids, (user) => id)`, one
with a label `user`, and a function expression that is called `user`. -/
def accountModule : Node :=
  Build.module [functionNamed "Page" ["id", "user"] [
    returning (serverArrow ["ids"] [returning (Build.call "map" [
      Build.ident "ids",
      Build.expr (.arrow false) [.group [Build.binding "user"], Build.ident "id", .absent, .absent]])]),
    returning (serverArrow [] [Build.node (.stmt .labeled) [
      Build.ident "user", Build.node (.stmt .empty) []]]),
    returning (serverFunctionNamed "user" [])]]

/-- The first closure is given `id`, which it needs. -/
theorem id_is_needed :
    ∃ c st, arrival accountModule {} [0, 1, 2, 0, 0] = some (c, st) ∧
      serverSite? c = some .expression ∧
      (let closure := (rewriteParts c st).1
      let captured := (rewriteParts c st).2.captured closure
      "id" ∈ captured ∧ (∀ j, "id" ≠ extractedName j) ∧ "id" ∉ hiddenNames c ∧
        Needed accountModule [0, 1, 2, 0, 0] c "id") := by
  have hmade : ∀ j, "id" ≠ extractedName j := ne_extractedName (by decide)
  obtain ⟨⟨c, st⟩, ha⟩ : ∃ r, arrival accountModule {} [0, 1, 2, 0, 0] = some r := ⟨_, rfl⟩
  have hs : serverSite? c = some .expression := by
    cases ha
    rfl
  have hcaptured : "id" ∈ (rewriteParts c st).2.captured (rewriteParts c st).1 := by
    cases ha
    decide
  have hhidden : "id" ∉ hiddenNames c := by
    cases ha
    decide
  exact ⟨c, st, ha, hs, hcaptured, hmade, hhidden,
    ((captured_names_are_needed none .generated accountModule.children).1 _ c _ st ha hs).2
      "id" hcaptured hmade hhidden⟩

/-- Whether the closure at a path of a module is given a name that it does not use. -/
def CapturesUnused (module : Node) (path : List Nat) (name : String) : Prop :=
  ∃ c site st, arrival module {} path = some (c, st) ∧ serverSite? c = some site ∧
    name ∈ (rewriteParts c st).2.captured (site.closure (rewriteParts c st).1) ∧
    name ∉ freeNames (site.closure c)

/-- Closures are given what they only bind: as a parameter of a function inside them, as a label, as
their own name. -/
theorem unused_names_are_captured :
    CapturesUnused accountModule [0, 1, 2, 0, 0] "user" ∧
    CapturesUnused accountModule [0, 1, 2, 1, 0] "user" ∧
    CapturesUnused accountModule [0, 1, 2, 2, 0] "user" ∧
    ¬ ∀ module path name, ¬ CapturesUnused module path name := by
  have hparameter : CapturesUnused accountModule [0, 1, 2, 0, 0] "user" :=
    ⟨_, _, _, rfl, rfl, by decide, by decide⟩
  refine ⟨hparameter, ?_, ?_, fun hneeded => hneeded _ _ _ hparameter⟩
  · exact ⟨_, _, _, rfl, rfl, by decide, by decide⟩
  · exact ⟨_, _, _, rfl, rfl, by decide, by decide⟩

/-! ## The variable that a closure is the value of -/

/-- Whether the declarator at a path of a module declares a variable whose value is a server
closure. -/
structure DeclaresClosure (module : Node) (path : List Nat) (name : String) (c : Node) : Prop where
  declarator : ∃ definite sp optional tsp type rest,
    module.at? path = some (.mk (.stmt (.declarator definite)) sp
      (.mk (.pattern (.binding name optional)) tsp type :: c :: rest))
  visited : ∀ a ∈ module.above path, a.kind.isType = false
  closure : serverSite? c = some .expression

/-- **A closure is given the variable whose value it is** exactly if the function around it binds
that variable directly, the name stands in the closure as it is moved, and the closure does not bind
the name itself. If the name does not stand in the closure of the source, it is not given the
variable. -/
theorem own_variable_is_captured_iff (shebang : Option String) (sp : Span) (items : List Node) :
    let module := Node.mk (.module (.module_ shebang)) sp items
    ∀ path name c, DeclaresClosure module path name c →
      ∃ st, arrival module {} (path ++ [1]) = some (c, st) ∧
        (let closure := (rewriteParts c st).1
        let captured := (rewriteParts c st).2.captured closure
        MovedOut module (path ++ [1]) .expression closure captured
            (rewriteParts c st).2.found.length ∧
          (name ∈ captured ↔ name ∈ module.enclosingNames path ∧ name ∈ closure.identifiers ∧
            name ∉ ownNames closure) ∧
          ((∀ j, name ≠ extractedName j) → name ∉ c.identifiers → name ∉ captured)) := by
  intro module path name c h
  obtain ⟨definite, dsp, optional, tsp, type, rest, hd⟩ := h.declarator
  generalize hdeclarator : Node.mk (.stmt (.declarator definite)) dsp _ = d at hd
  have hchild : d.children[1]? = some c := by
    rw [← hdeclarator]
    rfl
  have hkind : d.kind.isType = false := by
    rw [← hdeclarator]
    rfl
  have hscope : d.scopeParts? = none := by
    rw [← hdeclarator]
    rfl
  have habove : module.above (path ++ [1]) = d :: module.above path := above_concat hchild hd
  have hvisited : ∀ a ∈ module.above (path ++ [1]), a.kind.isType = false := by
    rw [habove]
    exact List.forall_mem_cons.mpr ⟨hkind, h.visited⟩
  -- A declarator opens no scope, so the function around it is the one around its value.
  have hnames : module.enclosingNames (path ++ [1]) = module.enclosingNames path := by
    rw [enclosingNames, enclosingNames, enclosingFunction?, enclosingFunction?, habove,
      List.find?_cons_of_neg (by simp [hscope])]
  obtain ⟨st, ha⟩ := exists_arrival {} (at?_concat hchild hd) hvisited
  have hout : MovedOut module (path ++ [1]) .expression _ _ _ := movedOut_of_arrival ha h.closure
  refine ⟨st, ha, hout, ?_, ?_⟩
  · have hcaptured : (rewriteParts c st).2.captured (rewriteParts c st).1 = _ := hout.captured_eq
    rw [hcaptured, hnames, List.mem_filter, Bool.and_eq_true, Bool.not_eq_true',
      decide_eq_true_eq, decide_eq_false_iff_not]
    rfl
  · intro hmade hmentions hcaptured
    exact hmentions (mem_distinct.mpr (mem_occurrences_of_captured h.closure hmade hcaptured))

/-- A function `Page` with a named function expression as the value of `save`, and an arrow function
that calls itself as the value of `next`. -/
def ownNameModule : Node :=
  Build.module [functionNamed "Page" [] [
    Build.constant (Build.binding "save") (serverFunctionNamed "save" []),
    Build.constant (Build.binding "next") (serverArrow [] [Build.statement (Build.call "next" [])]),
    Build.constant (Build.binding "reset")
      (serverArrow [] [Build.statement (Build.call "clear" [])])]]

/-- The third closure, which does not say its name, is not given it. -/
theorem reset_is_not_captured :
    ∃ c, DeclaresClosure ownNameModule [0, 1, 2, 2, 0] "reset" c ∧
      ∃ st, arrival ownNameModule {} ([0, 1, 2, 2, 0] ++ [1]) = some (c, st) ∧
        (let closure := (rewriteParts c st).1
        let captured := (rewriteParts c st).2.captured closure
        MovedOut ownNameModule ([0, 1, 2, 2, 0] ++ [1]) .expression closure captured
            (rewriteParts c st).2.found.length ∧
          "reset" ∈ ownNameModule.enclosingNames [0, 1, 2, 2, 0] ∧ "reset" ∉ captured) := by
  obtain ⟨c, hc⟩ : ∃ c, ownNameModule.at? [0, 1, 2, 2, 0, 1] = some c := ⟨_, rfl⟩
  have h : DeclaresClosure ownNameModule [0, 1, 2, 2, 0] "reset" c := by
    cases hc
    exact ⟨⟨_, _, _, _, _, _, rfl⟩, by decide, rfl⟩
  obtain ⟨st, ha, hout, -, hnot⟩ :=
    own_variable_is_captured_iff none .generated ownNameModule.children _ _ c h
  refine ⟨c, h, st, ha, hout, by decide, hnot (ne_extractedName (by decide)) ?_⟩
  cases hc
  decide

/-- Whether a closure that is the value of a variable is given this variable. -/
def CapturesOwnVariable (module : Node) (path : List Nat) (name : String) : Prop :=
  ∃ c st, DeclaresClosure module path name c ∧ arrival module {} (path ++ [1]) = some (c, st) ∧
    name ∈ (rewriteParts c st).2.captured (rewriteParts c st).1

/-- A closure is given its own variable if its name is that of the variable, or if it calls
itself. -/
theorem own_variables_are_captured :
    CapturesOwnVariable ownNameModule [0, 1, 2, 0, 0] "save" ∧
    CapturesOwnVariable ownNameModule [0, 1, 2, 1, 0] "next" ∧
    ¬ ∀ module path name, ¬ CapturesOwnVariable module path name := by
  have hsave : CapturesOwnVariable ownNameModule [0, 1, 2, 0, 0] "save" :=
    ⟨_, _, ⟨⟨_, _, _, _, _, _, rfl⟩, by decide, rfl⟩, rfl, by decide⟩
  refine ⟨hsave, ?_, fun hnone => hnone _ _ _ hsave⟩
  exact ⟨_, _, ⟨⟨_, _, _, _, _, _, rfl⟩, by decide, rfl⟩, rfl, by decide⟩

end ServerBoundary.Boundary
