import ServerBoundary.Proofs.Extraction.ServerClosures

/-!
# Trees of JavaScript

A tree can hold more than JavaScript: types, and functions that are only declared. `isScript` is the
form that the trees of JavaScript have. In such a tree a server closure can be told by its form and
the statements of its body alone, and taking the directives out of a function takes nothing else
away:

> `isServerClosure_eq`: the server closures are the function expressions, arrow functions, function
> declarations and default functions whose body opens with the directive.

> `isScript_extract`: the extraction keeps the form.
-/

namespace ServerBoundary.Boundary

open Syntax

/-! ## The form -/

/-- Whether a kind of node is a function without its name. -/
def isFunctionKind : Kind → Bool
  | .member (.function _) => true
  | _ => false

/-- Whether a kind of node is the name of a function, where it has one. -/
def isNameKind : Kind → Bool
  | .ident _ => true
  | _ => false

/-- Whether a node can stand in a tree of JavaScript, by its kind and the kinds of its parts. There
are no types, names and literals have no parts, and a function has a list of parameters and a body
that is a block; only arrow functions can do without the block. -/
def scriptNode (n : Node) : Bool :=
  match n.kind with
  | .type _ => false
  | .absent => n.children.length == 0
  | .ident _ => n.children.length == 0
  | .literal _ => n.children.length == 0
  | .member (.function _) => (n.part 0).kind == .group && (n.part 2).kind == .stmt .block
  | .expr (.arrow _) => n.children.length > 1 && (n.part 0).kind == .group
  | .expr .function => n.children.length == 2 && isFunctionKind (n.part 1).kind
  | .stmt (.function isDeclare) =>
    !isDeclare && n.children.length == 2 && isNameKind (n.part 0).kind &&
      isFunctionKind (n.part 1).kind
  | .module .exportDefaultFunction =>
    n.children.length == 2 && (isNameKind (n.part 0).kind || (n.part 0).kind == .absent) &&
      isFunctionKind (n.part 1).kind
  | _ => true

/-- Whether a tree has the form of JavaScript. -/
def isScript (n : Node) : Bool := n.every scriptNode

theorem scriptNode_of_isScript {n : Node} (h : isScript n = true) : scriptNode n = true :=
  (Node.every_iff.mp h).1

theorem isScript_of_mem {n c : Node} (h : isScript n = true) (hc : c ∈ n.children) :
    isScript c = true :=
  (Node.every_iff.mp h).2 c hc

theorem isScript_part {n : Node} (h : isScript n = true) (i : Nat) : isScript (n.part i) = true :=
  Node.every_part h rfl i

theorem isType_of_isScript {n : Node} (h : isScript n = true) : n.kind.isType = false := by
  have hn := scriptNode_of_isScript h
  obtain ⟨k, sp, cs⟩ := n
  cases k with
  | type t => exact absurd hn Bool.false_ne_true
  | _ => rfl

theorem isScript_closure {n : Node} (h : isScript n = true) (site : Site) :
    isScript (site.closure n) = true := by
  cases site with
  | expression => exact h
  | declaration name at_ => exact isScript_part h 1
  | defaultExport => exact isScript_part h 1

/-- A node of JavaScript without parts. -/
theorem children_eq_nil {n : Node} (h : isScript n = true)
    (hk : isNameKind n.kind = true ∨ n.kind = .absent ∨ ∃ l, n.kind = .literal l) :
    n.children = [] := by
  have hn := scriptNode_of_isScript h
  obtain ⟨k, sp, cs⟩ := n
  rw [Node.kind_mk] at hk
  have hlength : cs.length = 0 := by
    rcases hk with hname | rfl | ⟨l, rfl⟩
    · cases k with
      | ident name => exact beq_iff_eq.mp hn
      | _ => exact absurd hname Bool.false_ne_true
    · exact beq_iff_eq.mp hn
    · exact beq_iff_eq.mp hn
  exact List.length_eq_zero_iff.mp hlength

/-- A node with two parts. -/
theorem children_eq_of_length_two {n : Node} (h : n.children.length = 2) :
    n.children = [n.part 0, n.part 1] := by
  obtain ⟨k, sp, cs⟩ := n
  match cs, h with
  | [_, _], _ => rfl

theorem isScript_declaration_iff {sp : Span} {name f : Node} :
    isScript (.mk (.stmt (.function false)) sp [name, f]) = true ↔
      (isNameKind name.kind = true ∧ isFunctionKind f.kind = true) ∧
        isScript name = true ∧ isScript f = true := by
  simp [isScript, Node.every, Node.everyIn, scriptNode, Node.part]

theorem isScript_default_iff {sp : Span} {name f : Node} :
    isScript (.mk (.module .exportDefaultFunction) sp [name, f]) = true ↔
      ((isNameKind name.kind = true ∨ name.kind = .absent) ∧ isFunctionKind f.kind = true) ∧
        isScript name = true ∧ isScript f = true := by
  simp [isScript, Node.every, Node.everyIn, scriptNode, Node.part]

theorem isScript_expression_iff {sp : Span} {name f : Node} :
    isScript (.mk (.expr .function) sp [name, f]) = true ↔
      isFunctionKind f.kind = true ∧ isScript name = true ∧ isScript f = true := by
  simp [isScript, Node.every, Node.everyIn, scriptNode, Node.part]

/-! ## Functions -/

/-- A function of JavaScript has a list of parameters and a body. -/
theorem isFunction_of_isFunctionKind {f : Node} (h : isScript f = true)
    (hk : isFunctionKind f.kind = true) : IsFunction f := by
  have hf := scriptNode_of_isScript h
  obtain ⟨k, sp, cs⟩ := f
  cases k with
  | member m =>
    cases m with
    | function m =>
      have hparts := Bool.and_eq_true_iff.mp hf
      match cs with
      | .mk pk psp ps :: ds :: body :: rest =>
        have hp : pk = .group := beq_iff_eq.mp hparts.1
        subst hp
        exact .function ..
      -- A part that is missing is no block.
      | [] => exact absurd hparts.2 Bool.false_ne_true
      | [_] => exact absurd hparts.2 Bool.false_ne_true
      | [_, _] => exact absurd hparts.2 Bool.false_ne_true
    | _ => exact absurd hk Bool.false_ne_true
  | _ => exact absurd hk Bool.false_ne_true

/-- A function of JavaScript in an expression has a list of parameters and a body. -/
theorem isFunction_of_isFunctionExpr {e : Node} (h : isScript e = true)
    (he : isFunctionExpr e = true) : IsFunction e := by
  have hn := scriptNode_of_isScript h
  unfold isFunctionExpr at he
  split at he
  next sp cs =>
    have hparts := Bool.and_eq_true_iff.mp hn
    have hcs : cs = [_, _] := children_eq_of_length_two (beq_iff_eq.mp hparts.1)
    have hkind := hparts.2
    have hf := isFunction_of_isFunctionKind (isScript_part h 1) hkind
    generalize (Node.mk (.expr .function) sp cs).part 0 = name at hcs
    generalize (Node.mk (.expr .function) sp cs).part 1 = f at hcs hf hkind
    subst hcs
    cases hf with
    | function => exact .expression ..
    | arrow => exact absurd hkind Bool.false_ne_true
    | expression => exact absurd hkind Bool.false_ne_true
  next isAsync sp cs =>
    have hparts := Bool.and_eq_true_iff.mp hn
    match cs with
    | .mk pk psp ps :: body :: rest =>
      have hp : pk = .group := beq_iff_eq.mp hparts.2
      subst hp
      exact .arrow ..
    | [] => exact absurd hparts.1 Bool.false_ne_true
    | [_] => exact absurd hparts.1 Bool.false_ne_true
  next => exact absurd he Bool.false_ne_true

/-- The statements of the body of a function, in each form that a function can stand in a tree. -/
def ownStatements (n : Node) : List Node :=
  match n.kind with
  | .member (.function _) => (n.part 2).statements
  | .expr (.arrow _) => (n.part 1).statements
  | .expr .function => ((n.part 1).part 2).statements
  | .stmt (.function _) => ((n.part 1).part 2).statements
  | .module .exportDefaultFunction => ((n.part 1).part 2).statements
  | _ => []

/-- Whether a node is a function expression, an arrow function, a function declaration or a default
function. -/
def isFunctionForm (n : Node) : Bool :=
  match n.kind with
  | .expr .function => true
  | .expr (.arrow _) => true
  | .stmt (.function _) => true
  | .module .exportDefaultFunction => true
  | _ => false

theorem exists_of_isNameKind {k : Kind} (h : isNameKind k = true) : ∃ name, k = .ident name := by
  unfold isNameKind at h
  split at h
  next => exact ⟨_, rfl⟩
  next => exact absurd h Bool.false_ne_true

theorem isSome_site (b : Bool) (site : Site) : (if b then some site else none).isSome = b := by
  cases b <;> rfl

theorem isServerClosure_expression {n : Node} (h : n.kind = .expr .function) :
    isServerClosure n = isServerFunctionNode (n.part 1) := by
  rw [isServerClosure, serverSite?, h]
  exact isSome_site _ _

theorem isServerClosure_arrow {n : Node} {isAsync : Bool} (h : n.kind = .expr (.arrow isAsync)) :
    isServerClosure n = isServerFunction n := by
  rw [isServerClosure, serverSite?, h]
  exact isSome_site _ _

theorem isServerClosure_declaration {n : Node} {isDeclare : Bool}
    (h : n.kind = .stmt (.function isDeclare)) (hname : isNameKind (n.part 0).kind = true) :
    isServerClosure n = isServerFunctionNode (n.part 1) := by
  rw [isServerClosure, serverSite?, h]
  dsimp only
  split
  next => exact isSome_site _ _
  next hother =>
    unfold isNameKind at hname
    split at hname
    next hk => exact absurd hk (hother _)
    next => exact absurd hname Bool.false_ne_true

theorem isServerClosure_default {n : Node} (h : n.kind = .module .exportDefaultFunction) :
    isServerClosure n = isServerFunctionNode (n.part 1) := by
  rw [isServerClosure, serverSite?, h]
  exact isSome_site _ _

theorem isServerFunctionNode_eq {f : Node} (h : isScript f = true)
    (hk : isFunctionKind f.kind = true) :
    isServerFunctionNode f = opensWithUseServer (f.part 2).statements := by
  cases isFunction_of_isFunctionKind h hk with
  | function => rfl
  | arrow => exact absurd hk Bool.false_ne_true
  | expression => exact absurd hk Bool.false_ne_true

/-- **Which functions are server closures.** Function expressions, arrow functions, function
declarations and default functions, if their body opens with the directive. -/
theorem isServerClosure_eq {n : Node} (h : isScript n = true) :
    isServerClosure n = (isFunctionForm n && opensWithUseServer (ownStatements n)) := by
  have hn := scriptNode_of_isScript h
  have hpart : isFunctionKind (n.part 1).kind = true →
      isServerFunctionNode (n.part 1) = opensWithUseServer ((n.part 1).part 2).statements :=
    isServerFunctionNode_eq (isScript_part h 1)
  unfold isFunctionForm ownStatements
  unfold scriptNode at hn
  split
  next hk =>
    rw [hk] at hn
    rw [isServerClosure_expression hk, hpart (Bool.and_eq_true_iff.mp hn).2, hk]
    rfl
  next isAsync hk =>
    have hf := isFunction_of_isFunctionExpr h (by
      obtain ⟨k, sp, cs⟩ := n
      cases hk
      rfl)
    rw [isServerClosure_arrow hk, hk]
    cases hf with
    | arrow => rfl
    | _ => exact absurd hk (by simp)
  next isDeclare hk =>
    rw [hk] at hn
    obtain ⟨hname, hkind⟩ := Bool.and_eq_true_iff.mp hn
    rw [isServerClosure_declaration hk (Bool.and_eq_true_iff.mp hname).2, hpart hkind, hk]
    rfl
  next hk =>
    rw [hk] at hn
    rw [isServerClosure_default hk, hpart (Bool.and_eq_true_iff.mp hn).2, hk]
    rfl
  next hexpression harrow hdeclaration hdefault =>
    unfold isServerClosure serverSite?
    split
    next hk => exact absurd hk hexpression
    next hk => exact absurd hk (harrow _)
    next hk => exact absurd hk (hdeclaration _)
    next hk => exact absurd hk hdefault
    next => rfl

/-! ## Through the extraction -/

/-- A kind that is neither a closure's nor a replacement's can be told after the extraction as
before it. -/
theorem test_kind_extract {p : Kind → Bool} (hp : ∀ k, p k = true → keepsKind k = true) (n : Node)
    (st : Extraction) : p (extract n st).1.kind = p n.kind := by
  apply Bool.eq_iff_iff.mpr
  constructor
  · intro h
    rw [(extract_kind_iff (hp _ h) n st).mp rfl]
    exact h
  · intro h
    rw [(extract_kind_iff (hp _ h) n st).mpr rfl]
    exact h

theorem scriptNode_rewriteParts (n : Node) (st : Extraction) :
    scriptNode (rewriteParts n st).1 = scriptNode n := by
  have hlength : (rewriteParts n st).1.children.length = n.children.length :=
    length_extractAll _ _
  have hpart : ∀ p : Kind → Bool, (∀ k, p k = true → keepsKind k = true) → ∀ i,
      p ((rewriteParts n st).1.part i).kind = p (n.part i).kind := by
    intro p hp i
    obtain ⟨st', hi⟩ := part_rewriteParts n i st
    rw [hi, test_kind_extract hp]
  have hbeq : ∀ k, keepsKind k = true → ∀ i,
      (((rewriteParts n st).1.part i).kind == k) = ((n.part i).kind == k) := by
    intro k hk
    refine hpart (· == k) fun k' hk' => ?_
    rw [beq_iff_eq.mp hk']
    exact hk
  have hname := hpart isNameKind fun k hk => by
    cases k <;> first | rfl | exact absurd hk Bool.false_ne_true
  have hfunction := hpart isFunctionKind fun k hk => by
    cases k <;> first | rfl | exact absurd hk Bool.false_ne_true
  unfold scriptNode
  rw [show (rewriteParts n st).1.kind = n.kind from rfl, hlength, hbeq .group rfl,
    hbeq (.stmt .block) rfl, hbeq .absent rfl, hname, hfunction]

/-- A call that takes the place of a closure is JavaScript. -/
theorem isScript_fill {site : Site} (target : String) (bound : List String) :
    isScript (site.fill (Build.bindNull target bound)) = true := by
  have hcall : isScript (Build.bindNull target bound) = true := by
    have hbound : ∀ n ∈ bound.map Build.ident, n.every scriptNode = true := by
      intro n hn
      obtain ⟨name, -, rfl⟩ := List.mem_map.mp hn
      rfl
    have hargs := Node.everyIn_iff.mpr hbound
    simp only [isScript, Build.bindNull, Build.expr, Build.node, Build.ident, Node.every,
      Node.everyIn, scriptNode, hargs]
    rfl
  rw [isScript] at hcall
  cases site with
  | expression => exact hcall
  | declaration name sp =>
    simp only [isScript, Site.fill, Build.constant, Build.node, Node.every, Node.everyIn,
      scriptNode, hcall]
    rfl
  | defaultExport =>
    simp only [isScript, Site.fill, Build.exportDefault, Build.node, Node.every, Node.everyIn,
      scriptNode, hcall]
    rfl

theorem extractionKeeps_scriptNode : ExtractionKeeps scriptNode scriptNode where
  mono _ h := h
  parts n st h := by rw [scriptNode_rewriteParts, h]
  fill _ _ target bound _ _ := isScript_fill target bound

theorem isScript_extract {n : Node} (h : isScript n = true) (st : Extraction) :
    isScript (extract n st).1 = true :=
  every_extract extractionKeeps_scriptNode n st h

theorem isScript_rewriteParts {n : Node} (h : isScript n = true) (st : Extraction) :
    isScript (rewriteParts n st).1 = true := by
  refine Node.every_iff.mpr ⟨?_, ?_⟩
  · rw [scriptNode_rewriteParts]
    exact scriptNode_of_isScript h
  · exact every_extractAll extractionKeeps_scriptNode _ _ (Node.every_iff.mp h).2

/-! ## Without directives -/

/-- A directive of JavaScript is a literal without parts. -/
theorem exists_literal_of_directiveValue? {s : Node} {value : String} (h : isScript s = true)
    (hs : directiveValue? s = some value) : ∃ sp raw lsp,
      s = .mk (.stmt .expression) sp [.mk (.literal (.string value raw)) lsp []] := by
  obtain ⟨hk, c, raw, hcs, hc⟩ := (directiveValue?_eq_some_iff s _).mp hs
  have hparts : c.children = [] := by
    refine children_eq_nil (isScript_of_mem h (c := c) ?_) (.inr (.inr ⟨_, hc⟩))
    rw [hcs]
    exact List.mem_singleton_self c
  obtain ⟨k, sp, cs⟩ := s
  obtain ⟨ck, csp, ccs⟩ := c
  cases hk
  cases hcs
  cases hc
  cases hparts
  exact ⟨_, _, _, rfl⟩

theorem statements_stripUseServer (body : Node) :
    (stripUseServer body).statements = body.statements.filter fun s => !isUseServer s := by
  unfold stripUseServer
  split
  next => rfl
  next hother =>
    have hnone : body.statements = [] := by
      unfold Node.statements
      split
      next => exact absurd rfl (hother _ _)
      next => rfl
    rw [hnone]
    rfl

/-- Without its directives a function has the other statements of its body, in their order. -/
theorem ownStatements_stripFunction {f : Node} (h : IsFunction f) :
    ownStatements (stripFunction f) = (ownStatements f).filter fun s => !isUseServer s := by
  cases h <;> exact statements_stripUseServer _

/-- A body without its directives does not open with one. -/
theorem opensWithUseServer_filter (ss : List Node) :
    opensWithUseServer (ss.filter fun s => !isUseServer s) = false := by
  induction ss with
  | nil => rfl
  | cons s ss ih =>
    rw [List.filter_cons]
    split
    next hs =>
      rw [opensWithUseServer_cons]
      split
      next value hvalue =>
        rw [ih, Bool.or_false]
        rw [isUseServer, hvalue] at hs
        simpa using hs
      next => rfl
    next => exact ih

theorem isFunction_stripFunction {f : Node} (h : IsFunction f) : IsFunction (stripFunction f) := by
  cases h with
  | function => exact .function ..
  | arrow => exact .arrow ..
  | expression => exact .expression ..

theorem isServerFunctionNode_stripFunction {f : Node} (h : IsFunction f) :
    isServerFunctionNode (stripFunction f) = false := by
  cases h with
  | function m sp gsp params ds body rest =>
    show opensWithUseServer (stripUseServer body).statements = false
    rw [statements_stripUseServer, opensWithUseServer_filter]
  | arrow => rfl
  | expression => rfl

/-- A function without its directives is no server closure. -/
theorem isServerClosure_stripFunction {f : Node} (h : IsFunction f) :
    isServerClosure (stripFunction f) = false := by
  cases h with
  | function => rfl
  | arrow isAsync sp gsp params body rest =>
    rw [isServerClosure_arrow rfl]
    show opensWithUseServer (stripUseServer body).statements = false
    rw [statements_stripUseServer, opensWithUseServer_filter]
  | expression m sp fsp gsp name params ds body rest more =>
    rw [isServerClosure_expression rfl]
    exact isServerFunctionNode_stripFunction (.function m fsp gsp params ds body rest)

theorem isScript_stripUseServer {body : Node} (h : isScript body = true) :
    isScript (stripUseServer body) = true := by
  unfold stripUseServer
  split
  next sp ss =>
    refine Node.every_iff.mpr ⟨rfl, fun s hs => isScript_of_mem h ?_⟩
    exact (List.mem_filter.mp hs).1
  next => exact h

theorem kind_stripUseServer (body : Node) : (stripUseServer body).kind = body.kind := by
  unfold stripUseServer
  split <;> rfl

theorem isScript_of_body (ps : List Node) {qs : List Node} {body : Node}
    (h : ∀ c ∈ ps ++ body :: qs, isScript c = true) :
    ∀ c ∈ ps ++ stripUseServer body :: qs, isScript c = true := by
  rw [List.forall_mem_append, List.forall_mem_cons] at h ⊢
  exact ⟨h.1, isScript_stripUseServer h.2.1, h.2.2⟩

theorem scriptNode_function (m : FunctionMode) (sp : Span) (params ds body : Node)
    (rest : List Node) :
    scriptNode (.mk (.member (.function m)) sp (params :: ds :: body :: rest)) =
      (params.kind == .group && body.kind == .stmt .block) := rfl

/-- A function of JavaScript is one without its directives as well. -/
theorem isScript_stripFunction {f : Node} (h : IsFunction f) (hscript : isScript f = true) :
    isScript (stripFunction f) = true := by
  have hfunction : ∀ m sp params ds body rest,
      isScript (.mk (.member (.function m)) sp (params :: ds :: body :: rest)) = true →
      isScript (.mk (.member (.function m)) sp (params :: ds :: stripUseServer body :: rest)) =
        true := by
    intro m sp params ds body rest h
    obtain ⟨hnode, hparts⟩ := Node.every_iff.mp h
    refine Node.every_iff.mpr ⟨?_, isScript_of_body [params, ds] hparts⟩
    rw [scriptNode_function, kind_stripUseServer, ← scriptNode_function m sp params ds body rest]
    exact hnode
  obtain ⟨hnode, hparts⟩ := Node.every_iff.mp hscript
  cases h with
  | function m sp gsp params ds body rest => exact hfunction _ _ _ _ _ _ hscript
  | arrow isAsync sp gsp params body rest =>
    exact Node.every_iff.mpr ⟨hnode, isScript_of_body [.mk .group gsp params] hparts⟩
  | expression m sp fsp gsp name params ds body rest more =>
    rw [Node.children_mk, List.forall_mem_cons, List.forall_mem_cons] at hparts
    have hnew := hfunction _ _ _ _ _ _ hparts.2.1
    refine Node.every_iff.mpr ⟨hnode, ?_⟩
    show ∀ c ∈ name :: _ :: more, isScript c = true
    rw [List.forall_mem_cons, List.forall_mem_cons]
    exact ⟨hparts.1, hnew, hparts.2.2⟩

/-- Something that is gathered from a tree, and that a function and a block have from their parts
and a directive has not at all. -/
structure PassesBodies {α : Type} (gather : Node → List α) : Prop where
  function : ∀ m sp cs, gather (.mk (.member (.function m)) sp cs) = cs.flatMap gather
  block : ∀ sp ss, gather (.mk (.stmt .block) sp ss) = ss.flatMap gather
  directive : ∀ sp value raw lsp,
    gather (.mk (.stmt .expression) sp [.mk (.literal (.string value raw)) lsp []]) = []

variable {α : Type} {gather : Node → List α}

theorem PassesBodies.of_directive (hg : PassesBodies gather) {s : Node} {value : String}
    (h : isScript s = true) (hs : directiveValue? s = some value) : gather s = [] := by
  obtain ⟨_, _, _, rfl⟩ := exists_literal_of_directiveValue? h hs
  exact hg.directive ..

/-- A list of items has the same without one that has nothing. -/
theorem flatMap_eraseIdx {items : List Node} {s : Node} {i : Nat} (hi : items[i]? = some s)
    (hs : gather s = []) : (items.eraseIdx i).flatMap gather = items.flatMap gather := by
  induction items generalizing i with
  | nil => rfl
  | cons item items ih =>
    cases i with
    | zero =>
      cases hi
      rw [List.flatMap_cons, hs]
      rfl
    | succ i => rw [List.eraseIdx_cons_succ, List.flatMap_cons, List.flatMap_cons, ih hi]

/-- A list of items has the same without one of its directives. -/
theorem PassesBodies.eraseIdx (hg : PassesBodies gather) {items : List Node} {s : Node}
    {value : String} {i : Nat} (hi : items[i]? = some s) (h : isScript s = true)
    (hs : directiveValue? s = some value) :
    (items.eraseIdx i).flatMap gather = items.flatMap gather :=
  flatMap_eraseIdx hi (hg.of_directive h hs)

theorem PassesBodies.filter (hg : PassesBodies gather) {ss : List Node}
    (h : ∀ s ∈ ss, isScript s = true) :
    (ss.filter fun s => !isUseServer s).flatMap gather = ss.flatMap gather := by
  induction ss with
  | nil => rfl
  | cons s ss ih =>
    rw [List.forall_mem_cons] at h
    rw [List.filter_cons, List.flatMap_cons, ← ih h.2]
    split
    next => rfl
    next hs =>
      have hdirective : isUseServer s = true := by simpa using hs
      rw [hg.of_directive h.1 (beq_iff_eq.mp hdirective)]
      rfl

/-- The directives of a body take nothing away. -/
theorem PassesBodies.stripUseServer (hg : PassesBodies gather) {body : Node}
    (h : isScript body = true) : gather (stripUseServer body) = gather body := by
  unfold Boundary.stripUseServer
  split
  next sp ss =>
    rw [hg.block, hg.block]
    exact hg.filter fun s hs => isScript_of_mem h hs
  next => rfl

/-- The parts of a function have the same without its directives. -/
theorem PassesBodies.children_stripFunction (hg : PassesBodies gather) {f : Node}
    (h : IsFunction f) (hscript : isScript f = true) :
    (stripFunction f).children.flatMap gather = f.children.flatMap gather := by
  have hbody : ∀ (ps qs : List Node) (body : Node), isScript body = true →
      (ps ++ Boundary.stripUseServer body :: qs).flatMap gather =
        (ps ++ body :: qs).flatMap gather := by
    intro ps qs body hscript
    rw [List.flatMap_append, List.flatMap_append, List.flatMap_cons, List.flatMap_cons,
      hg.stripUseServer hscript]
  cases h with
  | function m sp gsp params ds body rest =>
    exact hbody [.mk .group gsp params, ds] rest body (isScript_part hscript 2)
  | arrow isAsync sp gsp params body rest =>
    exact hbody [.mk .group gsp params] rest body (isScript_part hscript 1)
  | expression m sp fsp gsp name params ds body rest more =>
    show (name :: .mk (.member (.function m)) fsp
      ([.mk .group gsp params, ds] ++ Boundary.stripUseServer body :: rest) :: more).flatMap
        gather = _
    rw [List.flatMap_cons, List.flatMap_cons, hg.function,
      hbody _ rest body (isScript_part (isScript_part hscript 1) 2), ← hg.function]
    rfl

theorem passesBodies_serverClosures : PassesBodies serverClosures where
  function _ _ _ := serverClosures_of_not_closure rfl rfl
  block _ _ := serverClosures_of_not_closure rfl rfl
  directive _ _ _ _ := rfl

/-- What remains of the server closures of a function without its directives are those in it. -/
theorem serverClosures_stripFunction {f : Node} (h : IsFunction f) (hscript : isScript f = true) :
    serverClosures (stripFunction f) = serverClosuresIn f.children := by
  have htype : (stripFunction f).kind.isType = false := by
    cases h <;> rfl
  rw [serverClosures_of_not_closure htype (isServerClosure_stripFunction h)]
  exact passesBodies_serverClosures.children_stripFunction h hscript

end ServerBoundary.Boundary
