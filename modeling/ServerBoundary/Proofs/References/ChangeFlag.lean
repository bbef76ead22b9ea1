import ServerBoundary.Boundary.Transform
import ServerBoundary.Proofs.References.ServerForm

/-!
# Whether a module changed

The transform of a module says whether it changed. A source is printed again only if it did, and the
pass over a module that was read already does not ask. So the two agree as far as the answer is
right.

> `server_entries_agree`: a module that is said not to have changed is the module that was given,
> without its directive if it is a server module. A source that is printed again is printed as the
> pass leaves it; if it is not although it mentions a directive, the pass has left what it said.

> `directive_goes_without_change`: a server module of which nothing is registered loses its
> directive and is said not to have changed.

Each step of the passes answers for itself, so the proof has one lemma for each of them: a step that
says that nothing changed has left everything as it was.
-/

namespace ServerBoundary.Boundary

open Syntax

variable {id : ModuleId}

/-! ## The registration of exports -/

theorem registerDeclarator_unchanged {d d' : Node}
    (h : registerDeclarator id d = .ok (d', false)) : d' = d := by
  unfold registerDeclarator at h
  split at h
  next =>
    split at h
    next =>
      obtain ⟨s, -, hs⟩ := exists_of_requireId h
      exact absurd hs (by simp [pure, Except.pure])
    next =>
      cases h
      rfl
  next =>
    cases h
    rfl

theorem registerDeclarators_unchanged {ds ds' : List Node}
    (h : registerDeclarators id ds = .ok (ds', false)) : ds' = ds := by
  induction ds generalizing ds' with
  | nil =>
    cases h
    rfl
  | cons d ds ih =>
    obtain ⟨⟨first, changed⟩, hd, hrest⟩ := exists_of_bind_eq_ok h
    obtain ⟨⟨rest, changes⟩, hds, hout⟩ := exists_of_bind_eq_ok hrest
    -- Neither the first declarator nor a later one changed.
    obtain ⟨rfl, hflags⟩ := Prod.mk.inj (Except.ok.inj hout)
    obtain ⟨rfl, rfl⟩ := Bool.or_eq_false_iff.mp hflags
    rw [registerDeclarator_unchanged hd, ih hds]

theorem registerItem_unchanged {item : Node} {new : List Node}
    (h : registerItem id item = .ok (new, false)) : new = [item] := by
  unfold registerItem at h
  split at h
  next =>
    split at h
    next =>
      obtain ⟨s, -, hs⟩ := exists_of_requireId h
      exact absurd hs (by simp [pure, Except.pure])
    next =>
      cases h
      rfl
  next =>
    obtain ⟨⟨ds', changed⟩, hds, hout⟩ := exists_of_bind_eq_ok h
    obtain ⟨rfl, rfl⟩ := Prod.mk.inj (Except.ok.inj hout)
    rw [registerDeclarators_unchanged hds]
  next =>
    obtain ⟨s, -, hs⟩ := exists_of_requireId h
    exact absurd hs (by simp [pure, Except.pure])
  next =>
    split at h
    next =>
      obtain ⟨s, -, hs⟩ := exists_of_requireId h
      exact absurd hs (by simp [pure, Except.pure])
    next =>
      cases h
      rfl
  next =>
    cases h
    rfl

theorem registerItems_unchanged {items new : List Node}
    (h : registerItems id items = .ok (new, false)) : new = items := by
  induction items generalizing new with
  | nil =>
    cases h
    rfl
  | cons item items ih =>
    obtain ⟨⟨first, changed⟩, hitem, hrest⟩ := exists_of_bind_eq_ok h
    obtain ⟨⟨rest, changes⟩, hitems, hout⟩ := exists_of_bind_eq_ok hrest
    obtain ⟨rfl, hflags⟩ := Prod.mk.inj (Except.ok.inj hout)
    obtain ⟨rfl, rfl⟩ := Bool.or_eq_false_iff.mp hflags
    rw [registerItem_unchanged hitem, ih hitems]
    rfl

theorem withItems_children (module : Node) : withItems module module.children = module := by
  obtain ⟨k, sp, items⟩ := module
  rfl

theorem registerExports_unchanged {module out : Node}
    (h : registerExports id module = .ok (out, false)) : out = module := by
  obtain ⟨⟨items, changed⟩, hitems, hout⟩ := exists_of_bind_eq_ok h
  obtain ⟨rfl, rfl⟩ := Prod.mk.inj (Except.ok.inj hout)
  rw [registerItems_unchanged hitems, withItems_children]

/-! ## Both passes -/

theorem extractModule_unchanged {module out : Node}
    (h : extractModule id module = .ok (out, false)) : out = module := by
  unfold extractModule at h
  dsimp only at h
  split at h
  next =>
    cases h
    rfl
  next =>
    obtain ⟨s, -, hs⟩ := exists_of_requireId h
    exact absurd hs (by simp [pure, Except.pure])

theorem serverSide_unchanged {whole : Bool} {module out : Node}
    (h : serverSide id whole module = .ok (out, false)) : out = module := by
  rw [serverSide_eq] at h
  obtain ⟨⟨first, registered⟩, hfirst, hrest⟩ := exists_of_bind_eq_ok h
  obtain ⟨⟨second, extracted⟩, hsecond, hout⟩ := exists_of_bind_eq_ok hrest
  dsimp only at hout
  cases hflags : registered || extracted with
  | true =>
    rw [hflags, if_pos rfl] at hout
    exact absurd hout (by simp)
  | false =>
    rw [hflags, if_neg (by simp)] at hout
    cases hout
    obtain ⟨rfl, rfl⟩ := Bool.or_eq_false_iff.mp hflags
    rw [extractModule_unchanged hsecond]
    cases whole with
    | true => exact registerExports_unchanged hfirst
    | false =>
      cases hfirst
      rfl

/-- Without its directive a server module is another one, and any other module is the same. -/
theorem withItems_bodyItems_eq_iff {module : Node} :
    withItems module (bodyItems module) = module ↔ isServerModule module = false := by
  unfold bodyItems isServerModule
  cases hdirective : moduleDirective module with
  | none => exact ⟨fun _ => rfl, fun _ => withItems_children module⟩
  | some directive =>
    obtain ⟨index, d⟩ := directive
    cases d with
    | useClient => exact ⟨fun _ => rfl, fun _ => withItems_children module⟩
    | useServer =>
      -- The directive is an item of the module, so there is one item less.
      obtain ⟨j, item, value, hj, hitem, -⟩ := exists_of_directiveFrom hdirective
      have hlt : index < module.children.length := by
        have hfound := (List.getElem?_eq_some_iff.mp hitem).1
        omega
      constructor
      · intro hsame
        have hlength := congrArg (fun n => n.children.length) hsame
        dsimp only [withItems, Node.children_mk] at hlength
        rw [List.length_eraseIdx_of_lt hlt] at hlength
        omega
      · intro hfalse
        exact absurd hfalse (by simp)

/-- **The flag.** A module that is said not to have changed is the one that was given, without the
directive of a server module. -/
theorem serverModule_unchanged {options : ServerOptions} {module out : Node}
    (h : serverModule options module = .ok (out, false)) :
    out = withItems module (bodyItems module) := by
  by_cases hside : ∃ index, moduleDirective module = some (index, .useClient)
  · -- A client module is always said to have changed.
    obtain ⟨index, hdirective⟩ := hside
    rw [serverModule, hdirective] at h
    obtain ⟨client, -, hout⟩ := exists_of_bind_eq_ok h
    exact absurd hout (by simp [pure, Except.pure])
  · rw [serverModule_of_not_client options fun index hdirective => hside ⟨index, hdirective⟩] at h
    exact serverSide_unchanged h

/-! ## From source to source -/

/-- Whether a source mentions one of the directives, so that it is read at all. -/
def mentionsDirective (source : String) : Bool :=
  mentions .useClient source || mentions .useServer source

/-- What is made of a source that can be read, by what the transform of its module says. -/
theorem transformServer_of_parse {options : ServerOptions} {file source : String}
    {parsed : Grammar.Parsed} (hparse : parseFile file source = .ok parsed) :
    transformServer options file source =
      if mentionsDirective source then
        match serverModule options parsed.module with
        | .ok (module, true) => .ok (some (Layout.print module parsed.comments))
        | .ok (_, false) => .ok none
        | .error e => .error (.boundary e)
      else .ok none := by
  have hmentions : (!mentions .useClient source && !mentions .useServer source) =
      !mentionsDirective source := by
    rw [mentionsDirective, Bool.not_or]
  rw [transformServer, hmentions]
  cases mentionsDirective source with
  | false => rfl
  | true =>
    rw [hparse]
    show (atBoundary (serverModule options parsed.module) >>= _) = _
    cases serverModule options parsed.module with
    | error e => rfl
    | ok result =>
      obtain ⟨module, changed⟩ := result
      cases changed <;> rfl

/-- How what is made of a source agrees with what the pass makes of the module that was read from
it. -/
structure EntriesAgree (options : ServerOptions) (file source : String) (parsed : Grammar.Parsed) :
    Prop where
  /-- A source that is printed again is printed as the pass leaves the module. -/
  printed : ∀ code, transformServer options file source = .ok (some code) →
    ∃ out, serverPass options parsed.module = (out, none) ∧ code = Layout.print out parsed.comments
  /-- If a source is left alone after it was read, the pass has left the module as it was, up to the
  directive of a server module. -/
  left : mentionsDirective source = true → transformServer options file source = .ok none →
    serverPass options parsed.module =
        (withItems parsed.module (bodyItems parsed.module), none) ∧
      (isServerModule parsed.module = false →
        serverPass options parsed.module = (parsed.module, none))
  /-- Both report the same error, and with an error the module stays as it is. -/
  failed : ∀ e, transformServer options file source = .error e →
    ∃ b, e = .boundary b ∧ serverPass options parsed.module = (parsed.module, some b)

theorem entriesAgree {options : ServerOptions} {file source : String} {parsed : Grammar.Parsed}
    (hparse : parseFile file source = .ok parsed) : EntriesAgree options file source parsed := by
  have htransform := @transformServer_of_parse options file source parsed hparse
  constructor
  · intro code hcode
    rw [htransform] at hcode
    split at hcode
    next =>
      split at hcode
      next out hmodule =>
        cases hcode
        exact ⟨out, by rw [serverPass, hmodule], rfl⟩
      next => exact absurd hcode (by simp)
      next => exact absurd hcode (by simp)
    next => exact absurd hcode (by simp)
  · intro hmentions hnone
    rw [htransform, if_pos hmentions] at hnone
    split at hnone
    next => exact absurd hnone (by simp)
    next out hmodule =>
      have hpass : serverPass options parsed.module =
          (withItems parsed.module (bodyItems parsed.module), none) := by
        rw [serverPass, hmodule, serverModule_unchanged hmodule]
      refine ⟨hpass, fun hserver => ?_⟩
      rw [hpass, withItems_bodyItems_eq_iff.mpr hserver]
    next => exact absurd hnone (by simp)
  · intro e he
    rw [htransform] at he
    split at he
    next =>
      split at he
      next => exact absurd he (by simp)
      next => exact absurd he (by simp)
      next b hmodule =>
        cases he
        exact ⟨b, rfl, by rw [serverPass, hmodule]⟩
    next => exact absurd he (by simp)

/-- **The flag is right but for a directive, and the two entries agree.** A module that is said not
to have changed is the one that was given, exactly if it is no server module; a server module has
lost its directive and nothing else. -/
theorem server_entries_agree (options : ServerOptions) :
    (∀ module out, serverModule options module = .ok (out, false) →
      out = withItems module (bodyItems module) ∧
        (out = module ↔ isServerModule module = false)) ∧
    ∀ file source parsed, parseFile file source = .ok parsed →
      EntriesAgree options file source parsed := by
  refine ⟨fun module out h => ?_, fun file source parsed hparse => entriesAgree hparse⟩
  obtain rfl := serverModule_unchanged h
  exact ⟨rfl, withItems_bodyItems_eq_iff⟩

/-- `'use server'; export const limit = '3'` is said not to have changed. What is left has no
directive, and this is what the pass prints. -/
theorem directive_goes_without_change :
    let limit := Build.exportConst "limit" (Build.string "3")
    let module := Build.module [Build.statement (Build.string Directive.useServer.text), limit]
    serverModule ⟨.ok "m", .ok "m", false⟩ module = .ok (Build.module [limit], false) ∧
      Build.module [limit] ≠ module ∧
      serverPass ⟨.ok "m", .ok "m", false⟩ module = (Build.module [limit], none) ∧
      Layout.print (Build.module [limit]) [] ≠ Layout.print module [] := by
  intro limit module
  refine ⟨rfl, fun h => ?_, rfl, by decide⟩
  exact absurd (congrArg (fun n => n.children.length) h) (by decide)

end ServerBoundary.Boundary
