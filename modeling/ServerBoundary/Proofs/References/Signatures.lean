import Mathlib.Data.List.Count
import Mathlib.Data.List.Forall2
import ServerBoundary.Proofs.References.DirectExports

/-!
# Signatures in a server module

In TypeScript a function may be written several times: overload signatures and ambient declarations
have no body and nothing that could be registered, and one declaration implements them. `Becomes`
says what each form of item becomes, and `emitted` reads the registrations off the items that come
out.

> `Becomes.perm_emitted`: an item registers the functions that it implements, each once, and
> `strayNames`: the default function whose signature alone is written, and an ambient variable with
> a function as its value.

> `implementations_are_registered_once`: so a module without these registers each function exactly
> as often as it implements it, and every signature stays what and where it was.

> `default_signature_is_registered`: the signatures of a default function do not stay.
-/

namespace ServerBoundary.Boundary

open Syntax

/-! ## Signatures and implementations -/

/-- Whether a statement is a function that is ambient or has no body. -/
def isBodilessFunction : Node → Bool
  | .mk (.stmt (.function isDeclare)) _ [_, f] => isDeclare || !hasBody f
  | _ => false

/-- Whether an item is a signature: a function, exported or not, that is ambient or has no body. -/
def isSignature : Node → Bool
  | .mk (.module .exportDecl) _ [d] => isBodilessFunction d
  | .mk (.module .exportDefaultFunction) _ [_, f] => !hasBody f
  | item => isBodilessFunction item

/-- Whether an item is a default export of a function that is declared. -/
def isDefaultFunction : Node → Bool
  | .mk (.module .exportDefaultFunction) _ _ => true
  | _ => false

/-- The functions that an item exports where it implements them, under the names of the exports. -/
def implementedNames : Node → List String
  | .mk (.module .exportDecl) _ [.mk (.stmt (.function false)) _ [name, f]] =>
    if hasBody f then (writtenName? name).toList else []
  | .mk (.module .exportDecl) _ [.mk (.stmt (.variable_ _ false)) _ ds] =>
    ds.filterMap functionDeclarator?
  | .mk (.module .exportDefaultFunction) _ [_, f] => if hasBody f then [defaultName] else []
  | .mk (.module .exportDefaultExpr) _ [e] => if isFunctionExpr e then [defaultName] else []
  | _ => []

/-- The functions that an item does not implement and that are registered: the default function of
which it is a signature, and the ambient variables that have functions as their values. -/
def strayNames : Node → List String
  | .mk (.module .exportDecl) _ [.mk (.stmt (.variable_ _ true)) _ ds] =>
    ds.filterMap functionDeclarator?
  | .mk (.module .exportDefaultFunction) _ [_, f] => if hasBody f then [] else [defaultName]
  | _ => []

/-- The ids and names that an item registers by itself: as a statement, or as the value that it
exports. -/
def emitted : Node → List (String × String)
  | .mk (.stmt .expression) _ [e] => (registrationOf? e).toList
  | .mk (.module .exportDecl) _ [.mk (.stmt (.variable_ _ _)) _ ds] =>
    ds.filterMap fun d => registrationOf? (d.part 1)
  | .mk (.module .exportDefaultExpr) _ [e] => (registrationOf? e).toList
  | _ => []

/-! ## What becomes of the items -/

/-- What becomes of a declarator: a function is wrapped in the call that registers it. -/
inductive BecomesDeclarator (id : String) : Node → Node → Prop
  | function {definite o : Bool} {sp psp : Span} {pcs : List Node} {name : String} {value : Node} :
      isFunctionExpr value = true →
      BecomesDeclarator id
        (.mk (.stmt (.declarator definite)) sp [.mk (.pattern (.binding name o)) psp pcs, value])
        (.mk (.stmt (.declarator definite)) sp
          [.mk (.pattern (.binding name o)) psp pcs, registration (stripFunction value) id name])
  | other {d : Node} : functionDeclarator? d = none → BecomesDeclarator id d d

/-- What becomes of an item. The call that registers a declaration stands right after it, and an
expression is wrapped in the call. Of a default function the implementation and the signatures alike
become expressions. -/
inductive Becomes (id : String) : Node → List Node → Prop
  | declaration {sp fsp : Span} {name f : Node} {text : String} : hasBody f = true →
      writtenName? name = some text →
      Becomes id (.mk (.module .exportDecl) sp [.mk (.stmt (.function false)) fsp [name, f]])
        [.mk (.module .exportDecl) sp [.mk (.stmt (.function false)) fsp [name, stripFunction f]],
          Build.statement (registration name id text)]
  | declarators {sp vsp : Span} {w : VarWord} {isDeclare : Bool} {ds ds' : List Node} :
      List.Forall₂ (BecomesDeclarator id) ds ds' →
      Becomes id (.mk (.module .exportDecl) sp [.mk (.stmt (.variable_ w isDeclare)) vsp ds])
        [.mk (.module .exportDecl) sp [.mk (.stmt (.variable_ w isDeclare)) vsp ds']]
  | defaultFunction {sp : Span} {name f : Node} :
      Becomes id (.mk (.module .exportDefaultFunction) sp [name, f])
        [Build.exportDefault (registration
          (stripFunction (.mk (.expr .function) f.span [name, f])) id defaultName)]
  | defaultExpression {sp : Span} {e : Node} : isFunctionExpr e = true →
      Becomes id (.mk (.module .exportDefaultExpr) sp [e])
        [.mk (.module .exportDefaultExpr) sp [registration (stripFunction e) id defaultName]]
  | unchanged {item : Node} : implementedNames item = [] → strayNames item = [] →
      Becomes id item [item]

variable {id : String}

theorem registerDeclarator_becomes (id : String) (d : Node) :
    ∃ d' changed, registerDeclarator (.ok id) d = .ok (d', changed) ∧
      BecomesDeclarator id d d' := by
  unfold registerDeclarator
  split
  next =>
    split
    next hf => exact ⟨_, _, rfl, .function hf⟩
    next hf => exact ⟨_, _, rfl, .other (if_neg hf)⟩
  next hother =>
    refine ⟨_, _, rfl, .other ?_⟩
    unfold functionDeclarator?
    split
    next => exact absurd rfl (hother _ _ _ _ _ _ _)
    next => rfl

theorem registerDeclarators_becomes (id : String) (ds : List Node) :
    ∃ ds' changed, registerDeclarators (.ok id) ds = .ok (ds', changed) ∧
      List.Forall₂ (BecomesDeclarator id) ds ds' := by
  induction ds with
  | nil => exact ⟨[], false, rfl, .nil⟩
  | cons d ds ih =>
    obtain ⟨d', changed, hd, hbecomes⟩ := registerDeclarator_becomes id d
    obtain ⟨ds', changes, hds, hrest⟩ := ih
    exact ⟨d' :: ds', changed || changes, by rw [registerDeclarators, hd, hds]; rfl,
      .cons hbecomes hrest⟩

/-- Every item becomes something, with the id at hand. -/
theorem registerItem_becomes (id : String) (item : Node) :
    ∃ new changed, registerItem (.ok id) item = .ok (new, changed) ∧ Becomes id item new := by
  unfold registerItem
  split
  next sp fsp name f =>
    split
    next text hbody hname => exact ⟨_, _, rfl, .declaration hbody hname⟩
    next hsignature =>
      refine ⟨_, _, rfl, .unchanged ?_ rfl⟩
      rw [implementedNames]
      split
      next hbody =>
        cases hname : writtenName? name with
        | none => rfl
        | some text => exact absurd hname (hsignature text hbody)
      next => rfl
  next sp w isDeclare vsp ds =>
    obtain ⟨ds', changed, hds, hbecomes⟩ := registerDeclarators_becomes id ds
    rw [hds]
    exact ⟨_, _, rfl, .declarators hbecomes⟩
  next => exact ⟨_, _, rfl, .defaultFunction⟩
  next sp e =>
    split
    next he => exact ⟨_, _, rfl, .defaultExpression he⟩
    next he => exact ⟨_, _, rfl, .unchanged (if_neg he) rfl⟩
  next hfunction hvariable hdefault hexpression =>
    refine ⟨_, _, rfl, .unchanged ?_ ?_⟩
    · unfold implementedNames
      split
      next => exact absurd rfl (hfunction _ _ _ _)
      next => exact absurd rfl (hvariable _ _ _ _ _)
      next => exact absurd rfl (hdefault _ _ _)
      next => exact absurd rfl (hexpression _ _)
      next => rfl
    · unfold strayNames
      split
      next => exact absurd rfl (hvariable _ _ _ _ _)
      next => exact absurd rfl (hdefault _ _ _)
      next => rfl

/-- **A module is registered item by item.** -/
theorem registerItems_becomes (id : String) (items : List Node) :
    ∃ segments changed, registerItems (.ok id) items = .ok (segments.flatten, changed) ∧
      List.Forall₂ (Becomes id) items segments := by
  induction items with
  | nil => exact ⟨[], false, rfl, .nil⟩
  | cons item items ih =>
    obtain ⟨new, changed, hitem, hbecomes⟩ := registerItem_becomes id item
    obtain ⟨segments, changes, hitems, hrest⟩ := ih
    exact ⟨new :: segments, changed || changes, by rw [registerItems, hitem, hitems]; rfl,
      .cons hbecomes hrest⟩

/-! ## What is registered -/

/-- A function is no call that registers something. -/
theorem registrationOf?_of_isFunctionExpr {e : Node} (h : isFunctionExpr e = true) :
    registrationOf? e = none := by
  unfold isFunctionExpr at h
  split at h
  next => exact registrationOf?_eq_none (by simp)
  next => exact registrationOf?_eq_none (by simp)
  next => exact absurd h Bool.false_ne_true

theorem BecomesDeclarator.registrationOf?_eq {d d' : Node} (h : BecomesDeclarator id d d') :
    (registrationOf? (d'.part 1)).toList =
      (registrationOf? (d.part 1)).toList ++ ((functionDeclarator? d).toList.map (id, ·)) := by
  cases h with
  | function hf =>
    have hnone := registrationOf?_of_isFunctionExpr hf
    rw [functionDeclarator?, if_pos hf]
    exact congrArg (Option.toList · ++ _) hnone.symm
  | other hnone => rw [hnone, Option.toList_none, List.map_nil, List.append_nil]

theorem filterMap_cons_eq_append {α β : Type} (f : α → Option β) (x : α) (xs : List α) :
    (x :: xs).filterMap f = (f x).toList ++ xs.filterMap f := by
  rw [List.filterMap_cons]
  cases f x with
  | none => rfl
  | some y => rfl

theorem perm_emitted_declarators {ds ds' : List Node}
    (h : List.Forall₂ (BecomesDeclarator id) ds ds') :
    (ds'.filterMap fun d => registrationOf? (d.part 1)).Perm
      ((ds.filterMap fun d => registrationOf? (d.part 1)) ++
        (ds.filterMap functionDeclarator?).map (id, ·)) := by
  induction h with
  | nil => exact .refl _
  | cons hd _ ih =>
    rw [filterMap_cons_eq_append, filterMap_cons_eq_append, filterMap_cons_eq_append,
      hd.registrationOf?_eq, List.map_append]
    exact (ih.append_left _).trans perm_append_interchange

/-- **An item registers the functions that it implements, each once**, and those that it has no
business to register. -/
theorem Becomes.perm_emitted {item : Node} {new : List Node} (h : Becomes id item new) :
    (new.flatMap emitted).Perm
      (emitted item ++ (implementedNames item ++ strayNames item).map (id, ·)) := by
  cases h with
  | declaration hbody hname =>
    rw [implementedNames, if_pos hbody, hname]
    exact .refl _
  | @declarators sp vsp w isDeclare ds ds' hds =>
    have hnames : implementedNames
          (.mk (.module .exportDecl) sp [.mk (.stmt (.variable_ w isDeclare)) vsp ds]) ++
        strayNames (.mk (.module .exportDecl) sp [.mk (.stmt (.variable_ w isDeclare)) vsp ds]) =
          ds.filterMap functionDeclarator? := by
      cases isDeclare with
      | true => rfl
      | false => exact List.append_nil _
    rw [hnames, List.flatMap_singleton]
    exact perm_emitted_declarators hds
  | @defaultFunction sp name f =>
    have hnames : implementedNames (.mk (.module .exportDefaultFunction) sp [name, f]) ++
        strayNames (.mk (.module .exportDefaultFunction) sp [name, f]) = [defaultName] := by
      rw [implementedNames, strayNames]
      cases hasBody f with
      | true => rfl
      | false => rfl
    rw [hnames]
    exact .refl _
  | @defaultExpression sp e he =>
    have hemitted : emitted (.mk (.module .exportDefaultExpr) sp [e]) = [] := by
      rw [emitted, registrationOf?_of_isFunctionExpr he]
      rfl
    rw [hemitted, implementedNames, if_pos he]
    exact .refl _
  | unchanged himplemented hstray =>
    rw [himplemented, hstray, List.flatMap_singleton]
    exact .of_eq (List.append_nil _).symm

theorem perm_emitted_segments {items : List Node} {segments : List (List Node)}
    (h : List.Forall₂ (Becomes id) items segments) :
    (segments.flatten.flatMap emitted).Perm (items.flatMap emitted ++
      (items.flatMap implementedNames ++ items.flatMap strayNames).map (id, ·)) := by
  induction h with
  | nil => exact .refl _
  | cons hitem _ ih =>
    rw [List.flatten_cons, List.flatMap_append, List.flatMap_cons, List.flatMap_cons,
      List.flatMap_cons]
    refine (hitem.perm_emitted.append ih).trans (perm_append_interchange.trans ?_)
    rw [← List.map_append]
    exact (perm_append_interchange.map _).append_left _

/-! ## Signatures -/

/-- A signature implements nothing, and only that of a default function is registered. -/
theorem names_of_isSignature {item : Node} (h : isSignature item = true) :
    implementedNames item = [] ∧
      strayNames item = if isDefaultFunction item then [defaultName] else [] := by
  unfold isSignature at h
  split at h
  next sp d =>
    unfold isBodilessFunction at h
    split at h
    next isDeclare fsp name f =>
      refine ⟨?_, rfl⟩
      cases isDeclare with
      | true => rfl
      | false =>
        rw [implementedNames, if_neg (by simpa using h)]
    next => exact absurd h Bool.false_ne_true
  next sp name f =>
    rw [Bool.not_eq_true'] at h
    rw [implementedNames, strayNames, h]
    exact ⟨rfl, rfl⟩
  next =>
    unfold isBodilessFunction at h
    split at h
    next => exact ⟨rfl, rfl⟩
    next => exact absurd h Bool.false_ne_true

/-- A signature stays as it is, unless it is one of a default function. -/
theorem Becomes.eq_of_isSignature {item : Node} {new : List Node} (h : Becomes id item new)
    (hsignature : isSignature item = true) : new = [item] ↔ isDefaultFunction item = false := by
  obtain ⟨-, hstray⟩ := names_of_isSignature hsignature
  cases h with
  | declaration hbody _ =>
    exact absurd hsignature (by simp [isSignature, isBodilessFunction, hbody])
  | declarators _ => exact absurd hsignature Bool.false_ne_true
  | defaultFunction =>
    refine ⟨fun heq => ?_, fun hdefault => absurd hdefault (by simp [isDefaultFunction])⟩
    -- It is an expression now.
    exact absurd (congrArg (List.map Node.kind) heq) (by simp [Build.exportDefault, Build.node])
  | defaultExpression _ => exact absurd hsignature Bool.false_ne_true
  | unchanged _ hnone =>
    refine iff_of_true rfl ?_
    rw [hnone] at hstray
    by_contra hdefault
    rw [Bool.not_eq_false] at hdefault
    rw [hdefault] at hstray
    exact absurd hstray (by simp)

/-! ## The items of a module -/

/-- What the registration of exported functions makes of some items: one segment of each. -/
structure RegistersImplementations (id : String) (items : List Node)
    (segments : List (List Node)) : Prop where
  becomes : List.Forall₂ (Becomes id) items segments
  /-- A signature stays what it is exactly if it is not one of a default function. -/
  signatures : ∀ (i : Nat) item, items[i]? = some item → isSignature item = true →
    (segments[i]? = some [item] ↔ isDefaultFunction item = false)
  /-- The registrations are those that were there, one for each implementation and one for each
  stray name. -/
  registrations : (segments.flatten.flatMap emitted).Perm (items.flatMap emitted ++
    (items.flatMap implementedNames ++ items.flatMap strayNames).map (id, ·))
  /-- So without stray names a function is registered exactly as often as it is implemented,
  whatever signatures stand beside the implementation. -/
  once : items.flatMap strayNames = [] → ∀ f,
    (segments.flatten.flatMap emitted).count (id, f) =
      (items.flatMap emitted).count (id, f) + (items.flatMap implementedNames).count f
  /-- There is a stray name for each signature of a default function. -/
  stray : ∀ item ∈ items, isSignature item = true → isDefaultFunction item = true →
    strayNames item = [defaultName]

theorem getElem?_of_forall₂ {α β : Type} {R : α → β → Prop} {xs : List α} {ys : List β}
    (h : List.Forall₂ R xs ys) {i : Nat} {x : α} (hx : xs[i]? = some x) :
    ∃ y, ys[i]? = some y ∧ R x y := by
  obtain ⟨hi, rfl⟩ := List.getElem?_eq_some_iff.mp hx
  have hi' : i < ys.length := h.length_eq ▸ hi
  exact ⟨ys[i], List.getElem?_eq_getElem hi', h.get hi hi'⟩

/-- **Implementations are registered once and signatures never**, apart from stray names: whatever
the order of the items and the number of signatures, what is registered is what the items
implement. -/
theorem implementations_are_registered_once (id : String) (module : Node) :
    ∃ segments changed,
      registerExports (.ok id) module = .ok (withItems module segments.flatten, changed) ∧
      RegistersImplementations id module.children segments := by
  obtain ⟨segments, changed, hitems, hbecomes⟩ := registerItems_becomes id module.children
  have hperm := perm_emitted_segments hbecomes
  refine ⟨segments, changed, by rw [registerExports, hitems]; rfl, ?_⟩
  exact {
    becomes := hbecomes
    signatures := by
      intro i item hitem hsignature
      obtain ⟨new, hnew, h⟩ := getElem?_of_forall₂ hbecomes hitem
      rw [hnew, Option.some.injEq]
      exact h.eq_of_isSignature hsignature
    registrations := hperm
    once := by
      intro hnone f
      rw [hnone, List.append_nil] at hperm
      rw [hperm.count_eq, List.count_append,
        List.count_map_of_injective _ _ fun _ _ heq => (Prod.mk.inj heq).2]
    stray := by
      intro item _ hsignature hdefault
      rw [(names_of_isSignature hsignature).2, if_pos hdefault] }

/-- A function without parameters, with a name in front. -/
def functionParts (name : String) (body : Node) : List Node :=
  [Build.ident name,
    Build.node (.member (.function {})) [.group [], .group [], body, .absent, .absent]]

/-- An exported declaration of a function. -/
def exportedFunction (name : String) (isDeclare : Bool) (body : Node) : Node :=
  Build.node (.module .exportDecl)
    [Build.node (.stmt (.function isDeclare)) (functionParts name body)]

/-- A default export of a function. -/
def defaultFunctionNamed (name : String) (body : Node) : Node :=
  Build.node (.module .exportDefaultFunction) (functionParts name body)

/-- An implementation of `save` among an overload signature, an ambient declaration and another
signature is registered once, and the three stay. -/
theorem overloads_of_save_are_not_registered :
    let items := [exportedFunction "save" false .absent, exportedFunction "save" true .absent,
      exportedFunction "save" false (Build.node (.stmt .block) []),
      exportedFunction "save" false .absent]
    items.flatMap strayNames = [] ∧
    (items.map isSignature = [true, true, false, true]) ∧
    ∃ segments changed,
      registerExports (.ok "m") (Build.module items) =
        .ok (Build.module segments.flatten, changed) ∧
      RegistersImplementations "m" items segments ∧
      (segments.flatten.flatMap emitted).count ("m", "save") = 1 ∧
      ∀ (i : Nat) item, items[i]? = some item → isSignature item = true →
        segments[i]? = some [item] := by
  intro items
  have hstray : items.flatMap strayNames = [] := rfl
  obtain ⟨segments, changed, hout, hregisters⟩ :=
    implementations_are_registered_once "m" (Build.module items)
  refine ⟨hstray, rfl, segments, changed, hout, hregisters, ?_, ?_⟩
  · exact (hregisters.once hstray "save").trans (by decide)
  · intro i item hitem hsignature
    refine (hregisters.signatures i item hitem hsignature).mpr ?_
    have hnone : ∀ item ∈ items, isDefaultFunction item = false := by decide
    exact hnone item (List.mem_of_getElem? hitem)

/-- A default function with one overload signature is registered twice, and the signature does not
stay: both become expressions. -/
theorem default_signature_is_registered :
    let items := [defaultFunctionNamed "save" .absent,
      defaultFunctionNamed "save" (Build.node (.stmt .block) [])]
    items.map isSignature = [true, false] ∧
    items.flatMap implementedNames = [defaultName] ∧
    ∃ out, registerExports (.ok "m") (Build.module items) = .ok (out, true) ∧
      out.children.flatMap emitted = [("m", defaultName), ("m", defaultName)] ∧
      out.children.map Node.kind = [.module .exportDefaultExpr, .module .exportDefaultExpr] := by
  exact ⟨rfl, rfl, _, rfl, rfl, rfl⟩

end ServerBoundary.Boundary
