import Mathlib.Data.List.Basic
import ServerBoundary.Proofs.References.Agreement
import ServerBoundary.Proofs.References.RegistrationCount

/-!
# Functions that are exported where they are declared

`RegistersItem` says what the registration of an exported function makes of an item, for each form
of export: a call after a declaration, a call around an expression. Everything else follows from it
for one item at a time:

> `registerItems_eq`: a server module is rewritten in this way, item by item.

> `Accounts`: the functions that are registered are no server closures any more. All other server
> closures, and all other registrations, are what they were.
-/

namespace ServerBoundary.Boundary

open Syntax

/-- A function that is exported where it is declared: the name of the export, the function as it
stands in its item, and what it becomes without its directives. -/
structure DirectExport where
  name : String
  function : Node
  stripped : Node

/-- What becomes of a declarator: a function is wrapped in the call that registers it. -/
inductive RegistersDeclarator (id : String) : Node → List DirectExport → List Node → Prop
  | function {definite o : Bool} {sp psp : Span} {pcs : List Node} {name : String} {value : Node} :
      isFunctionExpr value = true →
      RegistersDeclarator id
        (.mk (.stmt (.declarator definite)) sp [.mk (.pattern (.binding name o)) psp pcs, value])
        [⟨name, value, stripFunction value⟩]
        [.mk (.stmt (.declarator definite)) sp
          [.mk (.pattern (.binding name o)) psp pcs, registration (stripFunction value) id name]]
  | other {d : Node} : functionDeclarator? d = none → RegistersDeclarator id d [] [d]

/-- The nodes of a list are rewritten one after the other, and what comes of them stands in the same
order. -/
inductive Itemwise (R : Node → List DirectExport → List Node → Prop) :
    List Node → List DirectExport → List Node → Prop
  | nil : Itemwise R [] [] []
  | cons {n : Node} {ns new news : List Node} {direct directs : List DirectExport} :
      R n direct new → Itemwise R ns directs news →
      Itemwise R (n :: ns) (direct ++ directs) (new ++ news)

/-- Whether an item exports a function where it declares it: as a declaration, as the value of a
plain name, or as the default. -/
def isDirectExport : Node → Bool
  | .mk (.module .exportDecl) _ [.mk (.stmt (.function _)) _ _] => true
  | .mk (.module .exportDecl) _ [.mk (.stmt (.variable_ _ _)) _ ds] =>
    ds.any fun d => (functionDeclarator? d).isSome
  | .mk (.module .exportDefaultFunction) _ _ => true
  | .mk (.module .exportDefaultExpr) _ [e] => isFunctionExpr e
  | _ => false

/-- What becomes of an item. A declaration is followed by the call that registers it, an expression
is wrapped in it, and a default function becomes an expression. -/
inductive RegistersItem (id : String) : Node → List DirectExport → List Node → Prop
  | declaration {sp fsp : Span} {name f : Node} {text : String} : name.kind = .ident text →
      RegistersItem id
        (.mk (.module .exportDecl) sp [.mk (.stmt (.function false)) fsp [name, f]])
        [⟨text, .mk (.stmt (.function false)) fsp [name, f],
          .mk (.stmt (.function false)) fsp [name, stripFunction f]⟩]
        [.mk (.module .exportDecl) sp [.mk (.stmt (.function false)) fsp [name, stripFunction f]],
          Build.statement (registration name id text)]
  | declarators {sp vsp : Span} {w : VarWord} {isDeclare : Bool} {ds ds' : List Node}
      {direct : List DirectExport} :
      Itemwise (RegistersDeclarator id) ds direct ds' →
      RegistersItem id
        (.mk (.module .exportDecl) sp [.mk (.stmt (.variable_ w isDeclare)) vsp ds]) direct
        [.mk (.module .exportDecl) sp [.mk (.stmt (.variable_ w isDeclare)) vsp ds']]
  | defaultFunction {sp : Span} {name f : Node} :
      RegistersItem id (.mk (.module .exportDefaultFunction) sp [name, f])
        [⟨defaultName, .mk (.module .exportDefaultFunction) sp [name, f],
          stripFunction (.mk (.expr .function) f.span [name, f])⟩]
        [Build.exportDefault (registration
          (stripFunction (.mk (.expr .function) f.span [name, f])) id defaultName)]
  | defaultExpression {sp : Span} {e : Node} : isFunctionExpr e = true →
      RegistersItem id (.mk (.module .exportDefaultExpr) sp [e])
        [⟨defaultName, e, stripFunction e⟩]
        [.mk (.module .exportDefaultExpr) sp [registration (stripFunction e) id defaultName]]
  | other {item : Node} : isDirectExport item = false → RegistersItem id item [] [item]

variable {id : String}

/-! ## The registration of exported functions -/

theorem not_isEmpty_append {α : Type} (xs ys : List α) :
    (!(xs ++ ys).isEmpty) = (!xs.isEmpty || !ys.isEmpty) := by
  cases xs <;> rfl

theorem registerDeclarator_eq (id : String) (d : Node) :
    ∃ direct d', registerDeclarator (.ok id) d = .ok (d', !direct.isEmpty) ∧
      RegistersDeclarator id d direct [d'] := by
  unfold registerDeclarator
  split
  next =>
    split
    next hf => exact ⟨[_], _, rfl, .function hf⟩
    next hf => exact ⟨[], _, rfl, .other (if_neg hf)⟩
  next hother =>
    refine ⟨[], _, rfl, .other ?_⟩
    unfold functionDeclarator?
    split
    next => exact absurd rfl (hother _ _ _ _ _ _ _)
    next => rfl

theorem registerDeclarators_eq (id : String) (ds : List Node) :
    ∃ direct ds', registerDeclarators (.ok id) ds = .ok (ds', !direct.isEmpty) ∧
      Itemwise (RegistersDeclarator id) ds direct ds' := by
  induction ds with
  | nil => exact ⟨[], [], rfl, .nil⟩
  | cons d ds ih =>
    obtain ⟨direct, d', hd, hregisters⟩ := registerDeclarator_eq id d
    obtain ⟨directs, ds', hds, hrest⟩ := ih
    refine ⟨direct ++ directs, d' :: ds', ?_, .cons hregisters hrest⟩
    rw [registerDeclarators, hd, hds, not_isEmpty_append]
    rfl

theorem hasBody_of_isScript {f : Node} (h : isScript f = true)
    (hk : isFunctionKind f.kind = true) : hasBody f = true := by
  cases isFunction_of_isFunctionKind h hk with
  | function m sp gsp params ds body rest =>
    have hparts := scriptNode_of_isScript h
    rw [scriptNode_function, Bool.and_eq_true, beq_iff_eq, beq_iff_eq] at hparts
    show body.isPresent = true
    rw [Node.isPresent, hparts.2]
  | _ => exact absurd hk Bool.false_ne_true

/-- An item of JavaScript is registered if and only if it exports a function where it declares
it. -/
theorem registerItem_eq (id : String) {item : Node} (h : isScript item = true) :
    ∃ direct new, registerItem (.ok id) item = .ok (new, !direct.isEmpty) ∧
      RegistersItem id item direct new := by
  unfold registerItem
  split
  next sp fsp name f =>
    obtain ⟨⟨hname, hfk⟩, -, hf⟩ := isScript_declaration_iff.mp (isScript_part h 0)
    obtain ⟨k, nsp, ncs⟩ := name
    obtain ⟨text, rfl⟩ := exists_of_isNameKind hname
    rw [hasBody_of_isScript hf hfk]
    exact ⟨[_], _, rfl, .declaration rfl⟩
  next sp w b vsp ds =>
    obtain ⟨direct, ds', hds, hregisters⟩ := registerDeclarators_eq id ds
    rw [hds]
    exact ⟨direct, _, rfl, .declarators hregisters⟩
  next sp name f => exact ⟨[_], _, rfl, .defaultFunction⟩
  next sp e =>
    split
    next he => exact ⟨[_], _, rfl, .defaultExpression he⟩
    next he => exact ⟨[], _, rfl, .other (Bool.eq_false_iff.mpr he)⟩
  next hfunction hvariable hdefault hexpression =>
    -- An item of a form that the registration passes by exports no function directly, because in
    -- JavaScript a form that it knows has all of its parts.
    refine ⟨[], _, rfl, .other ?_⟩
    unfold isDirectExport
    split
    next sp isDeclare fsp cs =>
      have hdeclaration : scriptNode (.mk (.stmt (.function isDeclare)) fsp cs) = true :=
        scriptNode_of_isScript (isScript_part h 0)
      simp only [scriptNode, Node.kind_mk, Node.children_mk, Bool.and_eq_true, beq_iff_eq,
        Bool.not_eq_true'] at hdeclaration
      obtain ⟨⟨⟨rfl, hlength⟩, -⟩, -⟩ := hdeclaration
      obtain ⟨name, f, rfl⟩ := List.length_eq_two.mp hlength
      exact absurd rfl (hfunction _ _ _ _)
    next => exact absurd rfl (hvariable _ _ _ _ _)
    next sp cs =>
      have hdefaultNode := scriptNode_of_isScript h
      simp only [scriptNode, Node.kind_mk, Node.children_mk, Bool.and_eq_true,
        beq_iff_eq] at hdefaultNode
      obtain ⟨name, f, rfl⟩ := List.length_eq_two.mp hdefaultNode.1.1
      exact absurd rfl (hdefault _ _ _)
    next => exact absurd rfl (hexpression _ _)
    next => rfl

/-- Items are rewritten one after the other, and they change exactly if a function is registered. -/
theorem registerItems_eq (id : String) {items : List Node} (h : ∀ n ∈ items, isScript n = true) :
    ∃ direct new, registerItems (.ok id) items = .ok (new, !direct.isEmpty) ∧
      Itemwise (RegistersItem id) items direct new := by
  induction items with
  | nil => exact ⟨[], [], rfl, .nil⟩
  | cons item items ih =>
    rw [List.forall_mem_cons] at h
    obtain ⟨direct, new, hitem, hregisters⟩ := registerItem_eq id h.1
    obtain ⟨directs, news, hitems, hrest⟩ := ih h.2
    refine ⟨direct ++ directs, new ++ news, ?_, .cons hregisters hrest⟩
    rw [registerItems, hitem, hitems, not_isEmpty_append]
    rfl

/-! ## Names -/

theorem RegistersDeclarator.names_eq {d : Node} {direct : List DirectExport} {new : List Node}
    (h : RegistersDeclarator id d direct new) :
    direct.map DirectExport.name = (functionDeclarator? d).toList := by
  cases h with
  | function hf =>
    rw [functionDeclarator?, if_pos hf]
    rfl
  | other hnone =>
    rw [hnone]
    rfl

theorem Itemwise.map_name {R : Node → List DirectExport → List Node → Prop}
    {names : Node → List String} {ns new : List Node} {direct : List DirectExport}
    (h : Itemwise R ns direct new)
    (hR : ∀ n direct new, R n direct new → isScript n = true →
      direct.map DirectExport.name = names n)
    (hscript : ∀ n ∈ ns, isScript n = true) :
    direct.map DirectExport.name = ns.flatMap names := by
  induction h with
  | nil => rfl
  | cons hhead _ ih =>
    rw [List.forall_mem_cons] at hscript
    rw [List.map_append, List.flatMap_cons, hR _ _ _ hhead hscript.1, ih hscript.2]

theorem directFunctions_eq_nil {item : Node} (h : isDirectExport item = false) :
    directFunctions item = [] := by
  unfold directFunctions
  split
  next sp d =>
    unfold declaredFunctions
    split
    next => exact absurd h (by simp [isDirectExport])
    next w b vsp ds =>
      refine List.filterMap_eq_nil_iff.mpr fun declarator hd => ?_
      have hnone := List.any_eq_false.mp h declarator hd
      exact Option.not_isSome_iff_eq_none.mp hnone
    next => rfl
  next => exact absurd h (by simp [isDirectExport])
  next => exact if_neg (Bool.eq_false_iff.mp h)
  next => rfl

theorem RegistersItem.names_eq {item : Node} {direct : List DirectExport} {new : List Node}
    (h : RegistersItem id item direct new) (hscript : isScript item = true) :
    direct.map DirectExport.name = directFunctions item := by
  cases h with
  | @declaration sp fsp name f text hname =>
    obtain ⟨⟨-, hfk⟩, -, hf⟩ := isScript_declaration_iff.mp (isScript_part hscript 0)
    obtain ⟨k, nsp, ncs⟩ := name
    cases hname
    rw [directFunctions, declaredFunctions, if_pos (hasBody_of_isScript hf hfk)]
    rfl
  | declarators hds =>
    rw [directFunctions, declaredFunctions, List.filterMap_eq_flatMap_toList]
    exact hds.map_name (fun _ _ _ hd _ => hd.names_eq) fun d hd =>
      isScript_of_mem (isScript_part hscript 0) hd
  | defaultFunction => rfl
  | defaultExpression he =>
    rw [directFunctions, if_pos he]
    rfl
  | other hnone => exact (directFunctions_eq_nil hnone).symm

/-! ## What is accounted for -/

/-- What the registration of exported functions does to some nodes of JavaScript. -/
structure Accounts (id : String) (old : List Node) (direct : List DirectExport)
    (new : List Node) : Prop where
  script : ∀ n ∈ new, isScript n = true
  /-- A function loses its directives and no other statement, and is no server closure any more. -/
  stripped : ∀ d ∈ direct,
    ownStatements d.stripped = (ownStatements d.function).filter (fun s => !isUseServer s) ∧
      isServerClosure d.stripped = false
  /-- The server closures are those that were there, without the functions that are registered. -/
  closures : (serverClosuresIn old).Perm
    ((direct.map DirectExport.function).filter isServerClosure ++ serverClosuresIn new)
  /-- The registrations are those that were there and one for each function. -/
  registrations : (registrationsIn new).Perm
    (registrationsIn old ++ direct.map fun d => (id, d.name))
  imports : new.countP isImport = old.countP isImport

theorem Accounts.unchanged {ns : List Node} (h : ∀ n ∈ ns, isScript n = true) :
    Accounts id ns [] ns where
  script := h
  stripped _ hd := absurd hd List.not_mem_nil
  closures := .refl _
  registrations := by
    rw [List.map_nil, List.append_nil]
  imports := rfl

theorem perm_append_interchange {α : Type} {as bs cs ds : List α} :
    ((as ++ bs) ++ (cs ++ ds)).Perm ((as ++ cs) ++ (bs ++ ds)) := by
  rw [List.append_assoc, List.append_assoc]
  exact (List.perm_append_comm_assoc bs cs ds).append_left as

theorem Accounts.append {old old' new new' : List Node} {direct direct' : List DirectExport}
    (h : Accounts id old direct new) (h' : Accounts id old' direct' new') :
    Accounts id (old ++ old') (direct ++ direct') (new ++ new') where
  script := List.forall_mem_append.mpr ⟨h.script, h'.script⟩
  stripped := List.forall_mem_append.mpr ⟨h.stripped, h'.stripped⟩
  closures := by
    rw [serverClosuresIn_append, serverClosuresIn_append, List.map_append, List.filter_append]
    exact (h.closures.append h'.closures).trans perm_append_interchange
  registrations := by
    rw [registrationsIn_append, registrationsIn_append, List.map_append]
    exact (h.registrations.append h'.registrations).trans perm_append_interchange
  imports := by rw [List.countP_append, List.countP_append, h.imports, h'.imports]

/-- If each node of a list is accounted for, the list is. -/
theorem Itemwise.accounts {R : Node → List DirectExport → List Node → Prop}
    {ns new : List Node} {direct : List DirectExport} (h : Itemwise R ns direct new)
    (hR : ∀ n direct new, R n direct new → isScript n = true → Accounts id [n] direct new)
    (hscript : ∀ n ∈ ns, isScript n = true) : Accounts id ns direct new := by
  induction h with
  | nil => exact .unchanged hscript
  | cons hhead _ ih =>
    rw [List.forall_mem_cons] at hscript
    exact (hR _ _ _ hhead hscript.1).append (ih hscript.2)

/-! ## Nodes around a function -/

/-- Kinds of nodes that have the server closures and the registrations of their parts. -/
structure PassesParts (k : Kind) : Prop where
  isType : k.isType = false
  script : ∀ sp cs, scriptNode (.mk k sp cs) = true
  site : ∀ sp cs, isServerClosure (.mk k sp cs) = false
  call : ∀ o, k ≠ .expr (.call o)
  imports : ∀ sp cs, isImport (.mk k sp cs) = false

theorem passesParts_exportDecl : PassesParts (.module .exportDecl) :=
  ⟨rfl, fun _ _ => rfl, fun _ _ => rfl, by simp, fun _ _ => rfl⟩

theorem passesParts_exportDefaultExpr : PassesParts (.module .exportDefaultExpr) :=
  ⟨rfl, fun _ _ => rfl, fun _ _ => rfl, by simp, fun _ _ => rfl⟩

theorem passesParts_variable (w : VarWord) (isDeclare : Bool) :
    PassesParts (.stmt (.variable_ w isDeclare)) :=
  ⟨rfl, fun _ _ => rfl, fun _ _ => rfl, by simp, fun _ _ => rfl⟩

theorem passesParts_declarator (definite : Bool) : PassesParts (.stmt (.declarator definite)) :=
  ⟨rfl, fun _ _ => rfl, fun _ _ => rfl, by simp, fun _ _ => rfl⟩

theorem passesParts_expression : PassesParts (.stmt .expression) :=
  ⟨rfl, fun _ _ => rfl, fun _ _ => rfl, by simp, fun _ _ => rfl⟩

section PassesParts

variable {k : Kind} (hk : PassesParts k) (sp : Span)
include hk

theorem PassesParts.closures (cs : List Node) :
    serverClosures (.mk k sp cs) = serverClosuresIn cs :=
  serverClosures_of_not_closure hk.isType (hk.site sp cs)

theorem PassesParts.isScript {cs : List Node} (h : ∀ c ∈ cs, Boundary.isScript c = true) :
    Boundary.isScript (.mk k sp cs) = true :=
  Node.every_iff.mpr ⟨hk.script sp cs, h⟩

/-- What accounts for the parts of such a node accounts for the node. -/
theorem Accounts.inside {old new : List Node} {direct : List DirectExport}
    (h : Accounts id old direct new) : Accounts id [.mk k sp old] direct [.mk k sp new] where
  script := List.forall_mem_singleton.mpr (hk.isScript sp h.script)
  stripped := h.stripped
  closures := by
    simp only [serverClosuresIn_cons, serverClosuresIn_nil, List.append_nil, hk.closures]
    exact h.closures
  registrations := by
    simp only [registrationsIn, List.append_nil, registrations_of_not_call hk.call]
    exact h.registrations
  imports := by
    rw [List.countP_cons, List.countP_cons, hk.imports, hk.imports]

end PassesParts

/-! ## One function -/

theorem serverClosures_registration (value : Node) (id name : String) :
    serverClosures (registration value id name) = serverClosures value := by
  have hargs : serverClosures (.group [value, Build.string id, Build.string name]) =
      serverClosures value ++ [] := serverClosures_of_not_closure rfl rfl
  have hcall : serverClosures (registration value id name) =
      [] ++ (serverClosures (.group [value, Build.string id, Build.string name]) ++ ([] ++ [])) :=
    serverClosures_of_not_closure rfl rfl
  rw [hcall, hargs, List.append_nil, List.append_nil, List.nil_append, List.append_nil]

theorem isScript_registration {value : Node} (h : isScript value = true) (id name : String) :
    isScript (registration value id name) = true := by
  rw [isScript] at h
  simp only [isScript, registration, Build.call, Build.expr, Build.ident, Build.string, Build.node,
    Node.every, Node.everyIn, scriptNode, h]
  rfl

/-- A name is no server closure and has none in it. -/
theorem serverClosures_name {n : Node} (h : isScript n = true)
    (hk : isNameKind n.kind = true ∨ n.kind = .absent) : serverClosures n = [] := by
  have hnone : isServerClosure n = false := by
    obtain ⟨k, sp, cs⟩ := n
    cases k with
    | ident => rfl
    | absent => rfl
    | _ => exact absurd hk (by simp [isNameKind])
  rw [serverClosures_of_not_closure (isType_of_isScript h) hnone,
    children_eq_nil h (hk.imp_right .inl)]
  rfl

/-- One function is accounted for if it is the only server closure that is gone and the only one
that is registered. -/
theorem Accounts.single {old : Node} {new : List Node} {d : DirectExport}
    (hscript : ∀ n ∈ new, isScript n = true)
    (hstripped : ownStatements d.stripped =
      (ownStatements d.function).filter fun s => !isUseServer s)
    (hnone : isServerClosure d.stripped = false)
    (hclosures : serverClosures old =
      serverClosuresIn new ++ if isServerClosure d.function then [d.function] else [])
    (hregistrations : (registrationsIn new).Perm (Boundary.registrations old ++ [(id, d.name)]))
    (himports : new.countP isImport = [old].countP isImport) : Accounts id [old] [d] new where
  script := hscript
  stripped := List.forall_mem_singleton.mpr ⟨hstripped, hnone⟩
  closures := by
    rw [serverClosuresIn_cons, serverClosuresIn_nil, List.append_nil, hclosures, List.map_cons,
      List.map_nil, List.filter_cons, List.filter_nil]
    exact List.perm_append_comm
  registrations := by
    rw [registrationsIn, registrationsIn, List.append_nil]
    exact hregistrations
  imports := himports

/-- A function that is wrapped in the call that registers it. -/
theorem Accounts.wrapped {e : Node} (hf : IsFunction e) (h : isScript e = true)
    (id name : String) : Accounts id [e] [⟨name, e, stripFunction e⟩]
      [registration (stripFunction e) id name] := by
  refine .single ?_ (ownStatements_stripFunction hf) (isServerClosure_stripFunction hf) ?_ ?_ ?_
  · exact List.forall_mem_singleton.mpr
      (isScript_registration (isScript_stripFunction hf h) id name)
  · rw [serverClosuresIn_cons, serverClosuresIn_nil, List.append_nil, serverClosures_registration,
      serverClosures_stripFunction hf h]
    exact serverClosures_of_not_isType (isType_of_isScript h)
  · rw [registrationsIn, registrationsIn, List.append_nil, registrations_registration,
      registrations_stripFunction hf h]
    exact (List.perm_append_singleton _ _).symm
  · cases hf <;> rfl

/-- A function that stands behind its name is no server closure itself, with its directives or
without. -/
theorem serverClosures_of_isFunctionKind {f : Node} (hf : isScript f = true)
    (hfk : isFunctionKind f.kind = true) :
    serverClosures (stripFunction f) = serverClosures f := by
  have hfunction := isFunction_of_isFunctionKind hf hfk
  have hclosure : isServerClosure f = false := by
    cases hfunction with
    | function => rfl
    | _ => exact absurd hfk Bool.false_ne_true
  rw [serverClosures_stripFunction hfunction hf,
    serverClosures_of_not_closure (isType_of_isScript hf) hclosure]

/-- A declaration without its directives, followed by the call that registers its name. -/
theorem accounts_declaration {sp fsp : Span} {name f : Node} {text : String}
    (h : isScript (.mk (.module .exportDecl) sp [.mk (.stmt (.function false)) fsp [name, f]]) =
      true) :
    Accounts id [.mk (.module .exportDecl) sp [.mk (.stmt (.function false)) fsp [name, f]]]
      [⟨text, .mk (.stmt (.function false)) fsp [name, f],
        .mk (.stmt (.function false)) fsp [name, stripFunction f]⟩]
      [.mk (.module .exportDecl) sp [.mk (.stmt (.function false)) fsp [name, stripFunction f]],
        Build.statement (registration name id text)] := by
  obtain ⟨⟨hnk, hfk⟩, hname, hf⟩ := isScript_declaration_iff.mp (isScript_part h 0)
  have hfunction := isFunction_of_isFunctionKind hf hfk
  have hkind : isFunctionKind (stripFunction f).kind = true := by
    cases hfunction <;> exact hfk
  have hnone : isServerClosure (.mk (.stmt (.function false)) fsp [name, stripFunction f]) =
      false := by
    refine Eq.trans (isServerClosure_declaration rfl hnk) ?_
    exact isServerFunctionNode_stripFunction hfunction
  refine .single ?_ ?_ hnone ?_ ?_ rfl
  · refine List.forall_mem_cons.mpr ⟨?_, List.forall_mem_singleton.mpr ?_⟩
    · refine passesParts_exportDecl.isScript sp (List.forall_mem_singleton.mpr ?_)
      exact isScript_declaration_iff.mpr
        ⟨⟨hnk, hkind⟩, hname, isScript_stripFunction hfunction hf⟩
    · refine passesParts_expression.isScript _ (List.forall_mem_singleton.mpr ?_)
      exact isScript_registration hname id text
  · cases hfunction with
    | function => exact statements_stripUseServer _
    | _ => exact absurd hfk Bool.false_ne_true
  -- Only the declaration can be a server closure. The function that stands behind its name is none,
  -- and the call has a name for its argument.
  · simp only [Build.statement, Build.node, serverClosuresIn_cons, serverClosuresIn_nil,
      List.append_nil, passesParts_exportDecl.closures, passesParts_expression.closures,
      serverClosures_registration, serverClosures_name hname (.inl hnk)]
    rw [serverClosures_of_not_closure rfl hnone, Node.children_mk, serverClosuresIn_cons,
      serverClosuresIn_cons, serverClosures_of_isFunctionKind hf hfk]
    exact serverClosures_of_not_isType rfl
  · simp only [Build.statement, Build.node, registrationsIn, registrations_module,
      registrations_stmt, registrations_registration, registrations_name hname (.inl hnk),
      registrations_stripFunction hfunction hf, List.nil_append, List.append_nil]
    exact .refl _

/-- A default function that becomes an expression in the call that registers it. -/
theorem accounts_defaultFunction {sp : Span} {name f : Node}
    (h : isScript (.mk (.module .exportDefaultFunction) sp [name, f]) = true) :
    Accounts id [.mk (.module .exportDefaultFunction) sp [name, f]]
      [⟨defaultName, .mk (.module .exportDefaultFunction) sp [name, f],
        stripFunction (.mk (.expr .function) f.span [name, f])⟩]
      [Build.exportDefault (registration
        (stripFunction (.mk (.expr .function) f.span [name, f])) id defaultName)] := by
  obtain ⟨⟨-, hfk⟩, hname, hf⟩ := isScript_default_iff.mp h
  have hscript : isScript (.mk (.expr .function) f.span [name, f]) = true :=
    isScript_expression_iff.mpr ⟨hfk, hname, hf⟩
  have hfunction := isFunction_of_isFunctionExpr hscript rfl
  refine .single ?_ (ownStatements_stripFunction hfunction)
    (isServerClosure_stripFunction hfunction) ?_ ?_ rfl
  · refine List.forall_mem_singleton.mpr
      (passesParts_exportDefaultExpr.isScript _ (List.forall_mem_singleton.mpr ?_))
    exact isScript_registration (isScript_stripFunction hfunction hscript) id defaultName
  -- The default function and the expression that takes its place have the same parts.
  · rw [Build.exportDefault, Build.node, serverClosuresIn_cons, serverClosuresIn_nil,
      List.append_nil, passesParts_exportDefaultExpr.closures, serverClosuresIn_cons,
      serverClosuresIn_nil, List.append_nil, serverClosures_registration,
      serverClosures_stripFunction hfunction hscript]
    exact serverClosures_of_not_isType rfl
  · simp only [Build.exportDefault, Build.node, registrationsIn, registrations_module,
      registrations_registration, registrations_stripFunction hfunction hscript, List.append_nil]
    rw [registrations_of_not_call (by simp)]
    simp only [registrationsIn, List.append_nil]
    exact (List.perm_append_singleton _ _).symm

/-! ## One item -/

theorem RegistersDeclarator.accounts {d : Node} {direct : List DirectExport} {new : List Node}
    (h : RegistersDeclarator id d direct new) (hscript : isScript d = true) :
    Accounts id [d] direct new := by
  cases h with
  | @function definite o sp psp pcs name value hf =>
    have hvalue : isScript value = true := isScript_part hscript 1
    have hname : Accounts id [_] [] [_] :=
      .unchanged (List.forall_mem_singleton.mpr (isScript_part hscript 0))
    refine .inside (passesParts_declarator definite) sp ?_
    exact hname.append (.wrapped (isFunction_of_isFunctionExpr hvalue hf) hvalue id name)
  | other => exact .unchanged (List.forall_mem_singleton.mpr hscript)

theorem RegistersItem.accounts {item : Node} {direct : List DirectExport} {new : List Node}
    (h : RegistersItem id item direct new) (hscript : isScript item = true) :
    Accounts id [item] direct new := by
  cases h with
  | declaration => exact accounts_declaration hscript
  | @declarators sp vsp w isDeclare ds ds' direct hds =>
    have hparts : Accounts id ds direct ds' :=
      hds.accounts (fun _ _ _ => RegistersDeclarator.accounts) fun d hd =>
        isScript_of_mem (isScript_part hscript 0) hd
    exact .inside passesParts_exportDecl sp (.inside (passesParts_variable w isDeclare) vsp hparts)
  | defaultFunction => exact accounts_defaultFunction hscript
  | @defaultExpression sp e he =>
    have hvalue : isScript e = true := isScript_part hscript 0
    refine .inside passesParts_exportDefaultExpr sp ?_
    exact .wrapped (isFunction_of_isFunctionExpr hvalue he) hvalue id defaultName
  | other => exact .unchanged (List.forall_mem_singleton.mpr hscript)

end ServerBoundary.Boundary
