import ServerBoundary.Boundary.InPlace
import ServerBoundary.Proofs.ClientModule.Marker
import ServerBoundary.Proofs.References.ChangeFlag

/-!
# Errors of the pass leave the module alone

In place the pass changes the module step by step, so an error could leave it half rewritten. With
fixed ids it does not: the only step that fails is the search for the allowed items, and it comes
before the first change.

> `InPlace.computes_serverModule`: in place a module becomes what `serverModule` makes of it, and
> the pass fails when that does, whatever ids there are.

> `authoring_errors_leave_module_intact`: with fixed ids the pass reports an error exactly if a
> client module misuses the marker, it reports one, and leaves the module as it was.
-/

namespace ServerBoundary.Boundary

open Syntax

namespace InPlace

/-! ## Steps -/

section Steps

variable {α β : Type} {module : Node}

@[simp] theorem outcome_get : outcome get module = (.ok module, module) := rfl

@[simp] theorem outcome_modifyItems (f : List Node → List Node) :
    outcome (modifyItems f) module = (.ok (), withItems module (f module.children)) := rfl

@[simp] theorem outcome_takeItems :
    outcome takeItems module = (.ok module.children, withItems module []) := rfl

@[simp] theorem outcome_attempt (r : Except BoundaryError α) :
    outcome (attempt r) module = (r, module) := by
  cases r with
  | error e => rfl
  | ok a => rfl

/-- A step that fails leaves the module as it is then, and the next one is not taken. -/
@[simp] theorem outcome_bind (step : InPlace α) (next : α → InPlace β) :
    outcome (step >>= next) module =
      match outcome step module with
      | (.ok a, left) => outcome (next a) left
      | (.error e, left) => (.error e, left) := by
  change (match outcome step module with
    | (r, left) => StateT.run (ExceptT.bindCont next r) left) = _
  cases outcome step module with
  | mk r left =>
    cases r with
    | error e => rfl
    | ok a => rfl

/-- On a module a step in place comes to a result: it returns the same value and leaves the module
that is made, or it fails with the same error. -/
def Computes (step : InPlace α) (module : Node) : Except BoundaryError (α × Node) → Prop
  | .ok (a, out) => outcome step module = (.ok a, out)
  | .error e => (outcome step module).1 = .error e

/-- A step that succeeds hands its value on to the next one, which starts from the module left. -/
theorem computes_bind_of_ok {step : InPlace α} {next : α → InPlace β} {a : α} {left : Node}
    {r : Except BoundaryError (β × Node)} (h : Computes step module (.ok (a, left)))
    (hnext : Computes (next a) left r) : Computes (step >>= next) module r := by
  have hbind : outcome (step >>= next) module = outcome (next a) left := by
    rw [outcome_bind, show outcome step module = _ from h]
  unfold Computes
  rw [hbind]
  exact hnext

/-- After a step that fails no other is taken. -/
theorem computes_bind_of_error {step : InPlace α} (next : α → InPlace β) {e : BoundaryError}
    (h : Computes step module (.error e)) : Computes (step >>= next) module (.error e) := by
  change (outcome (step >>= next) module).1 = .error e
  rw [outcome_bind]
  cases houtcome : outcome step module with
  | mk r left =>
    obtain rfl : r = .error e := by simpa only [Computes, houtcome] using h
    rfl

end Steps

/-! ## The functions of the pass -/

variable (id : ModuleId) (module : Node)

theorem computes_keepAllowed (bare : Bool) :
    Computes (keepAllowed id bare) module
      ((Boundary.keepAllowed id bare module).map fun kept => (kept.stubs, kept.module)) := by
  unfold keepAllowed Boundary.keepAllowed Computes
  simp only [outcome_bind, outcome_get, outcome_attempt]
  cases allowedItems (markerIn module.children) module.children with
  | error e => rfl
  | ok allowed =>
    cases allowed with
    | nil => rfl
    | cons a allowed =>
      cases bare with
      | true => rfl
      | false =>
        cases id with
        | error e => rfl
        | ok id => rfl

theorem computes_clientModule (bare : Bool) :
    Computes (clientModule id bare) module
      ((Boundary.clientModule id bare module).map fun out => ((), out)) := by
  have hkept := computes_keepAllowed id module bare
  unfold clientModule Boundary.clientModule
  cases h : Boundary.keepAllowed id bare module with
  | error e =>
    rw [h] at hkept
    exact computes_bind_of_error _ hkept
  | ok kept =>
    rw [h] at hkept
    refine computes_bind_of_ok hkept ?_
    obtain ⟨clientId, hid⟩ := exists_clientId id
    obtain ⟨allowed, -, -, rfl⟩ := keepAllowed_cases hid h
    refine computes_bind_of_ok
      (show Computes _ _ (.ok ((), _)) from outcome_modifyItems _) ?_
    change Computes _ _ (Except.map _ (if (stubNames module allowed).isEmpty then _ else _))
    dsimp only
    cases (stubNames module allowed).isEmpty with
    | true => rfl
    | false =>
      cases id with
      | error e => rfl
      | ok id => rfl

theorem computes_registerExports :
    Computes (registerExports id) module
      ((Boundary.registerExports id module).map Prod.swap) := by
  unfold registerExports Boundary.registerExports Computes
  simp only [outcome_bind, outcome_takeItems, outcome_attempt]
  cases registerItems id module.children with
  | error e => rfl
  | ok result => rfl

theorem computes_extractModule :
    Computes (extractModule id) module ((Boundary.extractModule id module).map Prod.swap) := by
  unfold extractModule Boundary.extractModule Computes
  simp only [outcome_bind, outcome_get, outcome_modifyItems]
  cases hfound : (extractAll module.children {}).2.found with
  | nil =>
    -- Without closures the items that are put back are the ones that were there.
    rw [extractAll_of_found_eq_nil hfound, withItems_children]
    rfl
  | cons e found =>
    cases id with
    | error e => rfl
    | ok id => rfl

theorem computes_firstPass (whole : Bool) :
    Computes (firstPass id whole) module
      ((if whole then Boundary.registerExports id module else pure (module, false)).map
        Prod.swap) := by
  cases whole with
  | true => exact computes_registerExports id module
  | false => rfl

theorem computes_serverSide (whole : Bool) :
    Computes (serverSide id whole) module
      ((Boundary.serverSide id whole module).map Prod.swap) := by
  rw [serverSide_eq]
  have hfirst := computes_firstPass id module whole
  unfold serverSide
  cases h : (if whole then Boundary.registerExports id module else pure (module, false)) with
  | error e =>
    rw [h] at hfirst
    exact computes_bind_of_error _ hfirst
  | ok first =>
    rw [h] at hfirst
    refine computes_bind_of_ok hfirst ?_
    have hsecond := computes_extractModule id first.1
    change Computes _ _ (Except.map Prod.swap (Boundary.extractModule id first.1 >>= _))
    cases h : Boundary.extractModule id first.1 with
    | error e =>
      rw [h] at hsecond
      exact computes_bind_of_error _ hsecond
    | ok second =>
      rw [h] at hsecond
      refine computes_bind_of_ok hsecond ?_
      change Computes _ _ (Except.map Prod.swap (if first.2 || second.2 then _ else _))
      cases first.2 || second.2 with
      | true => rfl
      | false => rfl

/-- **In place a module becomes what is made of it**, and the pass fails with the same error. -/
theorem computes_serverModule (options : ServerOptions) :
    Computes (serverModule options) module
      ((Boundary.serverModule options module).map Prod.swap) := by
  unfold serverModule Boundary.serverModule
  refine computes_bind_of_ok (show Computes _ _ (.ok (module, _)) from outcome_get) ?_
  cases moduleDirective module with
  | none => exact computes_serverSide _ _ false
  | some directive =>
    obtain ⟨index, d⟩ := directive
    cases d with
    | useServer =>
      refine computes_bind_of_ok (show Computes _ _ (.ok ((), _)) from outcome_modifyItems _) ?_
      exact computes_serverSide _ _ true
    | useClient =>
      have hclient := computes_clientModule options.clientId module options.bare
      dsimp only
      cases h : Boundary.clientModule options.clientId options.bare module with
      | error e =>
        rw [h] at hclient
        exact computes_bind_of_error _ hclient
      | ok out =>
        rw [h] at hclient
        exact computes_bind_of_ok hclient rfl

/-! ## Errors -/

/-- A call that misuses the marker is found before the module is touched. -/
theorem outcome_of_misuse {options : ServerOptions} {index : Nat} {e : BoundaryError}
    (hside : moduleDirective module = some (index, .useClient))
    (h : allowedItems (markerIn module.children) module.children = .error e) :
    outcome (serverModule options) module = (.error e, module) := by
  unfold serverModule clientModule keepAllowed
  simp only [outcome_bind, outcome_get]
  rw [hside]
  simp only [outcome_bind, outcome_get, outcome_attempt]
  rw [h]

end InPlace

/-- With the ids at hand a module that is not a client module is always transformed. -/
theorem exists_serverSide (id : String) (whole : Bool) (module : Node) :
    ∃ result, serverSide (.ok id) whole module = .ok result := by
  obtain ⟨first, hfirst⟩ : ∃ first,
      (if whole then registerExports (.ok id) module else pure (module, false)) = .ok first := by
    cases whole with
    | false => exact ⟨_, rfl⟩
    | true =>
      obtain ⟨new, changed, hnew, -⟩ := registerItems_ok id module.children
      exact ⟨_, by rw [if_pos rfl, registerExports, hnew]; rfl⟩
  obtain ⟨out, changed, hsecond, -⟩ := extractModule_ok id first.1
  rw [serverSide_eq, hfirst]
  change ∃ result, (extractModule (.ok id) first.1 >>= _) = Except.ok result
  rw [hsecond]
  change ∃ result, (if first.2 || changed then _ else _) = Except.ok result
  cases first.2 || changed with
  | true => exact ⟨_, rfl⟩
  | false => exact ⟨_, rfl⟩

/-- With the ids at hand only a misused marker keeps a module from the server graph. -/
theorem serverModule_eq_error_iff {clientId serverId : String} {bare : Bool} {module : Node}
    {e : BoundaryError} :
    serverModule ⟨.ok clientId, .ok serverId, bare⟩ module = .error e ↔
      e = .markerArguments ∧ (∃ index, moduleDirective module = some (index, .useClient)) ∧
        ∃ d ∈ module.children.flatMap exportedDeclarators,
          Misuses (markerIn module.children) d := by
  by_cases hside : ∃ index, moduleDirective module = some (index, .useClient)
  · have hclient : serverModule ⟨.ok clientId, .ok serverId, bare⟩ module = .error e ↔
        clientModule (.ok clientId) bare module = .error e := by
      obtain ⟨index, hdirective⟩ := hside
      rw [serverModule, hdirective]
      dsimp only
      cases clientModule (.ok clientId) bare module with
      | error e' =>
        exact ⟨fun h => congrArg _ (Except.error.inj h), fun h => congrArg _ (Except.error.inj h)⟩
      | ok out => exact iff_of_false (by simp) (by simp)
    rw [hclient, clientModule_eq_error_iff, and_iff_right hside]
  · rw [serverModule_of_not_client _ fun index hdirective => hside ⟨index, hdirective⟩]
    obtain ⟨result, hresult⟩ := exists_serverSide serverId (isServerModule module)
      (withItems module (bodyItems module))
    dsimp only
    rw [hresult]
    exact iff_of_false (by simp) fun h => hside h.2.1

/-- What the pass leaves of a module, and the errors that it reports. -/
structure FailsWhole (clientId serverId : String) (bare : Bool) (module left : Node)
    (errors : List BoundaryError) : Prop where
  /-- It reports an error exactly if the module is a client module that misuses the marker. -/
  reports_iff : errors ≠ [] ↔
    (∃ index, moduleDirective module = some (index, .useClient)) ∧
      ∃ d ∈ module.children.flatMap exportedDeclarators, Misuses (markerIn module.children) d
  /-- Then it reports this error only, and leaves the module as it was. -/
  one : errors ≠ [] → errors = [.markerArguments]
  intact : errors ≠ [] → left = module
  /-- The result is the one that is made without a module in place. -/
  pass_eq : serverPass ⟨.ok clientId, .ok serverId, bare⟩ module = (left, errors.head?)

/-- **Errors of the author leave the module as it was.** Whatever the ids are, the pass over a
module in place either reports nothing, or it reports one misused marker and has not touched the
module. -/
theorem authoring_errors_leave_module_intact (clientId serverId : String) (bare : Bool)
    (module : Node) :
    FailsWhole clientId serverId bare module (InPlace.pass clientId serverId bare module).1
      (InPlace.pass clientId serverId bare module).2 := by
  have hcomputes :=
    InPlace.computes_serverModule module ⟨.ok clientId, .ok serverId, bare⟩
  cases hmodule : serverModule ⟨.ok clientId, .ok serverId, bare⟩ module with
  | ok result =>
    obtain ⟨out, changed⟩ := result
    rw [hmodule] at hcomputes
    have hpass : InPlace.pass clientId serverId bare module = (out, []) := by
      rw [InPlace.pass, show InPlace.outcome _ module = (.ok changed, out) from hcomputes]
    rw [hpass]
    refine ⟨⟨fun h => absurd rfl h, fun h => ?_⟩, fun h => absurd rfl h, fun h => absurd rfl h, ?_⟩
    · rw [serverModule_eq_error_iff.mpr ⟨rfl, h⟩] at hmodule
      cases hmodule
    · rw [serverPass, hmodule]
      rfl
  | error e =>
    obtain ⟨rfl, ⟨index, hside⟩, hmisuse⟩ := serverModule_eq_error_iff.mp hmodule
    have hpass : InPlace.pass clientId serverId bare module = (module, [.markerArguments]) := by
      rw [InPlace.pass, InPlace.outcome_of_misuse module hside
        (allowedItems_eq_error_iff.mpr ⟨rfl, hmisuse⟩)]
    rw [hpass]
    refine ⟨⟨fun _ => ⟨⟨index, hside⟩, hmisuse⟩, fun _ => List.cons_ne_nil _ _⟩,
      fun _ => rfl, fun _ => rfl, ?_⟩
    rw [serverPass, hmodule]
    rfl

example :
    let module := Build.module [
      Build.statement (Build.string Directive.useClient.text),
      Build.exportConst "limit" (Build.call markerName [Build.string "1", Build.string "2"])]
    InPlace.pass "m" "m" false module = (module, [.markerArguments]) := rfl

end ServerBoundary.Boundary
