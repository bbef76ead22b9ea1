import ServerBoundary.Syntax.Names

/-!
# Scopes and free names

`introduced` are the names that a node brings into scope for its parts: the parameters and the
`var`s of a function, what the statements of a block declare, the binding of a `catch` or a loop,
the own name of a function or class expression. `freeNames` are the names that a tree uses and does
not bind itself. A name that binds counts as used where it stands, and the scope it belongs to takes
it away again, so that a pattern is read the same way in a declaration and in an assignment.

A default value of a parameter sees the other parameters, but not the variables of the body: the
body is a scope inside that of the parameters. Labels, the names of plain tags and types use no
names.

Main statements: `mem_occurrences_of_mem_freeNames` (a name that a tree uses stands in it) and
`mem_freeNamesIn_of_mem_localNames` (a function that uses a name which it declares itself does so in
its parameters only).
-/

namespace ServerBoundary.Syntax

/-- Names without some of them. -/
def without (names xs : List String) : List String := xs.filter fun x => !names.contains x

@[simp] theorem mem_without {names xs : List String} {x : String} :
    x ∈ without names xs ↔ x ∈ xs ∧ x ∉ names := by
  simp [without]

namespace Node

/-! ## What a node declares -/

/-- The name that an identifier is. -/
def identName : Node → List String
  | .mk (.ident name) _ _ => [name]
  | _ => []

/-- The names that declarators declare. -/
def declaratorNames (ds : List Node) : List String := ds.flatMap fun d => boundNames (d.part 0)

/-- The names that a statement declares in the block it stands in. -/
def lexicalNames : Node → List String
  | .mk (.stmt (.variable_ .var _)) _ _ => []
  | .mk (.stmt (.variable_ _ _)) _ ds => declaratorNames ds
  | .mk (.stmt (.function _)) _ (name :: _) => identName name
  | .mk (.stmt (.class_ _)) _ (name :: _) => identName name
  | .mk (.stmt (.enum _ _)) _ (name :: _) => identName name
  | _ => []

mutual
/-- The names that `var` declares in a statement, at any depth, in the function around it. -/
def varNames : Node → List String
  | .mk (.stmt (.variable_ .var _)) _ ds => declaratorNames ds
  | .mk (.stmt _) _ cs => varNamesIn cs
  | .mk .group _ cs => varNamesIn cs
  | _ => []
/-- The names that `var` declares in a list of statements. -/
def varNamesIn : List Node → List String
  | [] => []
  | s :: ss => varNames s ++ varNamesIn ss
end

/-- The names that the clauses of a `switch` declare, which share one scope. -/
def clauseNames (cases : List Node) : List String :=
  cases.flatMap fun c => (c.part 1).children.flatMap lexicalNames

/-- The names that a parameter binds, also one that declares a field. -/
def parameterNames : Node → List String
  | .mk (.member (.paramProperty _)) _ [_, p] => boundNames p
  | p => boundNames p

/-- The names that a node brings into scope for its parts. -/
def introduced : Node → List String
  | .mk (.member (.function _)) _ (params :: _ :: body :: _) =>
    "arguments" :: boundNames params ++ varNames body
  | .mk (.expr (.arrow _)) _ (params :: body :: _) => boundNames params ++ varNames body
  | .mk (.member (.constructor_ _)) _ (_ :: params :: body :: _) =>
    "arguments" :: params.children.flatMap parameterNames ++ varNames body
  | .mk (.property .getter) _ (_ :: _ :: body :: _) => "arguments" :: varNames body
  | .mk (.property .setter) _ (_ :: param :: body :: _) =>
    "arguments" :: parameterNames param ++ varNames body
  | .mk (.member .staticBlock) _ (body :: _) => varNames body
  | .mk (.stmt .block) _ ss => ss.flatMap lexicalNames
  | .mk (.stmt .for_) _ (head :: _) => lexicalNames head
  | .mk (.stmt .forIn) _ (head :: _) => lexicalNames head
  | .mk (.stmt (.forOf _)) _ (head :: _) => lexicalNames head
  | .mk (.stmt .switch) _ (_ :: cases) => clauseNames cases
  | .mk (.stmt .catch_) _ (param :: _) => boundNames param
  | .mk (.stmt (.class_ _)) _ (name :: _) => identName name
  | .mk (.stmt (.enum _ _)) _ (_ :: members) => members.flatMap fun m => identName (m.part 0)
  | .mk (.expr .function) _ (name :: _) => identName name
  | .mk (.expr .class_) _ (name :: _) => identName name
  | _ => []

/-! ## What a node uses -/

/-- Whether a tag is written with a name that stands for itself, such as `div`. -/
def isPlainTag : Node → Bool
  | .mk (.ident name) _ _ => name.toList.head?.any Char.isLower
  | _ => false

mutual
/-- The names that a tree uses and does not bind itself. -/
def freeNames : Node → List String
  | .mk (.ident name) _ _ => [name]
  | .mk (.pattern (.binding name _)) _ _ => [name]
  | .mk (.literal _) _ _ => []
  | .mk (.type _) _ _ => []
  | .mk (.stmt .labeled) _ (_ :: rest) => freeNamesIn rest
  | .mk (.stmt .break_) _ _ => []
  | .mk (.stmt .continue_) _ _ => []
  | .mk (.stmt .switch) _ (value :: cases) =>
    freeNames value ++ without (clauseNames cases) (freeNamesIn cases)
  | .mk (.member (.function _)) _ (params :: _ :: body :: _) =>
    without ("arguments" :: boundNames params)
      (freeNames params ++ without (varNames body) (freeNames body))
  | .mk (.expr (.arrow _)) _ (params :: body :: _) =>
    without (boundNames params) (freeNames params ++ without (varNames body) (freeNames body))
  | .mk (.expr .function) _ (name :: f :: _) => without (identName name) (freeNames f)
  | .mk (.member (.method _ _)) _ (key :: f :: _) =>
    freeNames key ++ decoratorNames f ++ freeNames f
  | .mk (.member (.constructor_ _)) _ (key :: params :: body :: _) =>
    freeNames key ++ without ("arguments" :: params.children.flatMap parameterNames)
      (freeNames params ++ without (varNames body) (freeNames body))
  | .mk (.property .getter) _ (key :: _ :: body :: _) =>
    freeNames key ++ without ("arguments" :: varNames body) (freeNames body)
  | .mk (.property .setter) _ (key :: param :: body :: _) =>
    freeNames key ++ without ("arguments" :: parameterNames param)
      (freeNames param ++ without (varNames body) (freeNames body))
  | .mk (.markup .element) _ (name :: attributes :: _ :: children :: _) =>
    (if isPlainTag name then [] else freeNames name) ++ freeNames attributes ++ freeNames children
  | .mk k sp cs => without (introduced (.mk k sp cs)) (freeNamesIn cs)
/-- The names that a list of trees uses and does not bind itself. -/
def freeNamesIn : List Node → List String
  | [] => []
  | n :: ns => freeNames n ++ freeNamesIn ns
/-- The names that the decorators of a method use, which stand outside its scope. -/
def decoratorNames : Node → List String
  | .mk (.member (.function _)) _ (_ :: decorators :: _) => freeNames decorators
  | _ => []
end

/-- Whether a node is a function of any form. -/
def isFunctionScope (n : Node) : Bool :=
  match n.kind with
  | .member (.function _) => true
  | .expr (.arrow _) => true
  | .member (.constructor_ _) => true
  | .property .getter => true
  | .property .setter => true
  | _ => false

/-- Whether a name that is used below some nodes, innermost first, stands for something declared in
a function among them: its innermost declaration is the function's own or stands inside it. -/
def resolvesInFunction (name : String) : List Node → Bool
  | [] => false
  | a :: as =>
    if a.introduced.contains name then (a :: as).any isFunctionScope
    else resolvesInFunction name as

/-! ## A name that is used stands in the tree -/

theorem mem_freeNamesIn {x : String} {cs : List Node} :
    x ∈ freeNamesIn cs ↔ ∃ c ∈ cs, x ∈ freeNames c := by
  induction cs with
  | nil => simp [freeNamesIn]
  | cons c cs ih => simp [freeNamesIn, ih]

theorem mem_occurrencesIn {x : String} {cs : List Node} :
    x ∈ occurrencesIn cs ↔ ∃ c ∈ cs, x ∈ occurrences c := by
  induction cs with
  | nil => simp [occurrencesIn]
  | cons c cs ih => simp [occurrencesIn, ih]

/-- What stands in a part of a node stands in the node. -/
theorem mem_occurrences_of_mem {k : Kind} {sp : Span} {c : Node} {cs : List Node} {x : String}
    (hk : k.isType = false) (hc : c ∈ cs) (hx : x ∈ c.occurrences) :
    x ∈ occurrences (.mk k sp cs) := by
  rw [occurrences, if_neg (by simp [hk])]
  exact List.mem_append_right _ (mem_occurrencesIn.mpr ⟨c, hc, hx⟩)

/-- A name that a tree uses is its own, or one of its parts uses it. -/
theorem mem_freeNames_cases {n : Node} {x : String} (h : x ∈ freeNames n) :
    n.kind.isType = false ∧ (n.kind.identifier? = some x ∨
      ∃ c ∈ n.children, x ∈ freeNames c ∨ x ∈ decoratorNames c) := by
  unfold freeNames at h
  split at h
  all_goals simp only [List.mem_append, mem_without, mem_freeNamesIn, List.mem_singleton,
    List.not_mem_nil] at h
  -- An identifier and a name in a pattern; any other node uses what its parts use.
  next => exact ⟨rfl, .inl (congrArg some h.symm)⟩
  next => exact ⟨rfl, .inl (congrArg some h.symm)⟩
  all_goals grind [Kind.isType, kind, children]

/-- What a tree uses, and what its decorators use, stands in it. -/
theorem mem_occurrences_of_uses (n : Node) (x : String) :
    (x ∈ freeNames n → x ∈ n.occurrences) ∧ (x ∈ decoratorNames n → x ∈ n.occurrences) := by
  induction n using of_parts with
  | h k sp cs ih =>
    -- The two halves need each other: a method uses what its decorators use.
    constructor
    · intro hx
      obtain ⟨hk, hown | ⟨c, hc, huse | huse⟩⟩ := mem_freeNames_cases hx
      · rw [kind_mk] at hk hown
        rw [occurrences, if_neg (by simp [hk]), hown]
        exact List.mem_append_left _ (by simp)
      · exact mem_occurrences_of_mem hk hc ((ih c hc).1 huse)
      · exact mem_occurrences_of_mem hk hc ((ih c hc).2 huse)
    · intro hx
      unfold decoratorNames at hx
      split at hx
      next heq =>
        cases heq
        exact mem_occurrences_of_mem rfl (by simp) ((ih _ (by simp)).1 hx)
      next => exact absurd hx (by simp)

/-- A name that a tree uses stands in it. -/
theorem mem_occurrences_of_mem_freeNames {n : Node} {x : String} (h : x ∈ freeNames n) :
    x ∈ n.occurrences :=
  (mem_occurrences_of_uses n x).1 h

/-! ## What a function declares and uses -/

@[simp] theorem freeNames_group (sp : Span) (ns : List Node) :
    freeNames (.mk .group sp ns) = freeNamesIn ns := by
  simp [freeNames, introduced, without]

@[simp] theorem freeNames_block (sp : Span) (ss : List Node) :
    freeNames (.mk (.stmt .block) sp ss) = without (ss.flatMap lexicalNames) (freeNamesIn ss) := by
  simp [freeNames, introduced]

@[simp] theorem varNames_block (sp : Span) (ss : List Node) :
    varNames (.mk (.stmt .block) sp ss) = varNamesIn ss := by
  simp [varNames]

/-- A name that a function uses is used by its parameters or by its body, which does not declare it
with `var`, and is none of its parameters. -/
theorem mem_freeNames_function {x : String} {m : FunctionMode} {sp gsp : Span}
    {params rest : List Node} {ds body : Node} :
    x ∈ freeNames (.mk (.member (.function m)) sp (.mk .group gsp params :: ds :: body :: rest)) ↔
      (x ∈ freeNamesIn params ∨ x ∈ freeNames body ∧ x ∉ varNames body) ∧
        x ≠ "arguments" ∧ x ∉ boundNamesIn params := by
  rw [freeNames, boundNames, freeNames_group]
  simp only [mem_without, List.mem_append, List.mem_cons, not_or, ne_eq]

/-- The same for an arrow function, which has no `arguments` of its own. -/
theorem mem_freeNames_arrow {x : String} {isAsync : Bool} {sp gsp : Span}
    {params rest : List Node} {body : Node} :
    x ∈ freeNames (.mk (.expr (.arrow isAsync)) sp (.mk .group gsp params :: body :: rest)) ↔
      (x ∈ freeNamesIn params ∨ x ∈ freeNames body ∧ x ∉ varNames body) ∧
        x ∉ boundNamesIn params := by
  rw [freeNames, boundNames, freeNames_group]
  simp only [mem_without, List.mem_append]

/-- The same for a function expression, where the function may use its own name. -/
theorem mem_freeNames_functionExpr {x : String} {sp : Span} {name f : Node} {more : List Node} :
    x ∈ freeNames (.mk (.expr .function) sp (name :: f :: more)) ↔
      x ∈ freeNames f ∧ x ∉ identName name := by
  rw [freeNames, mem_without]

/-- A name that a function uses is none of its parameters, and its parameters use it, or its body,
which does not declare it with `var`. -/
theorem mem_freeNames_of_scopeParts {f body : Node} {params : List Node} {x : String}
    (hf : f.scopeParts? = some (params, body)) (h : x ∈ freeNames f) :
    x ∉ boundNamesIn params ∧
      (x ∈ freeNamesIn params ∨ x ∈ freeNames body ∧ x ∉ varNames body) := by
  unfold scopeParts? at hf
  split at hf
  next =>
    cases hf
    obtain ⟨huse, -, hparam⟩ := mem_freeNames_function.mp h
    exact ⟨hparam, huse⟩
  next =>
    cases hf
    obtain ⟨huse, hparam⟩ := mem_freeNames_arrow.mp h
    exact ⟨hparam, huse⟩
  next => exact absurd hf (by simp)

/-- A variable that a statement declares is one of the block around it or, declared with `var`, one
of the function around it. -/
theorem mem_variableNames_cases {s : Node} {x : String} (h : x ∈ variableNames s) :
    x ∈ varNames s ∨ x ∈ lexicalNames s := by
  unfold variableNames at h
  split at h
  next word isDeclare sp ds =>
    cases word with
    | var => exact .inl (by simpa [varNames, declaratorNames] using h)
    | let_ => exact .inr (by simpa [lexicalNames, declaratorNames] using h)
    | const_ => exact .inr (by simpa [lexicalNames, declaratorNames] using h)
  next => exact absurd h (by simp)

theorem mem_varNamesIn {x : String} {ss : List Node} :
    x ∈ varNamesIn ss ↔ ∃ s ∈ ss, x ∈ varNames s := by
  induction ss with
  | nil => simp [varNamesIn]
  | cons s ss ih => simp [varNamesIn, ih]

/-- A body does not use the variables that it declares at its top level, other than those that it
declares with `var`. -/
theorem mem_varNames_of_mem_freeNames {body : Node} {x : String} (h : x ∈ freeNames body)
    (hv : x ∈ body.statements.flatMap variableNames) : x ∈ varNames body := by
  unfold statements at hv
  split at hv
  next sp ss =>
    obtain ⟨s, hs, hx⟩ := List.mem_flatMap.mp hv
    -- What `let` and `const` declare the block hides; only `var` reaches past it.
    rcases mem_variableNames_cases hx with hvar | hlexical
    · rw [varNames_block]
      exact mem_varNamesIn.mpr ⟨s, hs, hvar⟩
    · rw [freeNames_block, mem_without] at h
      exact absurd (List.mem_flatMap.mpr ⟨s, hs, hlexical⟩) h.2
  next => exact absurd hv (by simp)

/-- If a function uses a name that it declares itself, its parameters use that name: their default
values do not see the variables of the body. -/
theorem mem_freeNamesIn_of_mem_localNames {f body : Node} {params : List Node} {x : String}
    (hf : f.scopeParts? = some (params, body)) (h : x ∈ freeNames f) (hx : x ∈ f.localNames) :
    x ∈ freeNamesIn params := by
  obtain ⟨hparam, huse⟩ := mem_freeNames_of_scopeParts hf h
  rw [localNames, localNames?, hf] at hx
  rcases List.mem_append.mp (mem_distinct.mp hx) with hbound | hvariable
  · exact absurd hbound hparam
  · rcases huse with hdefault | ⟨hbody, hvar⟩
    · exact hdefault
    · exact absurd (mem_varNames_of_mem_freeNames hbody hvariable) hvar

end Node

end ServerBoundary.Syntax
