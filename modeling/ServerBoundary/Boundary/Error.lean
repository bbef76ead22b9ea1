/-!
# What can go wrong at the boundary
-/

namespace ServerBoundary.Boundary

/-- Why a module has no id. -/
inductive IdError where
  /-- No id was given for that side. -/
  | unavailable (what : String)
  /-- Client ids are asked for in the server graph only. -/
  | clientGraph
  | unknownClient (file : String)
  | unknownServer (file : String)
deriving DecidableEq, Repr

/-- The wording of a missing id. -/
def IdError.message : IdError → String
  | unavailable what => what ++ " is not available"
  | clientGraph => "getClientId is only for server"
  | unknownClient file => "client id not found: " ++ file
  | unknownServer file => "server id not found: " ++ file

/-- The id of a module, which is looked at only if it is needed. -/
abbrev ModuleId := Except IdError String

/-- Why a module cannot be transformed. -/
inductive BoundaryError where
  /-- The allow-server marker is not called with one plain argument. -/
  | markerArguments
  | missingId (e : IdError)
deriving DecidableEq, Repr

/-- The wording of an error. -/
def BoundaryError.message : BoundaryError → String
  | markerArguments => "allowServer should have exactly one argument"
  | missingId e => e.message

/-- The id, if there is one. -/
def requireId : ModuleId → Except BoundaryError String
  | .ok id => .ok id
  | .error e => .error (.missingId e)

/-- What needs the result of a step succeeds only if the step does. -/
theorem exists_of_bind_eq_ok {ε α β : Type} {x : Except ε α} {f : α → Except ε β} {b : β}
    (h : (x >>= f) = .ok b) : ∃ a, x = .ok a ∧ f a = .ok b := by
  cases x with
  | error e => exact nomatch h
  | ok a => exact ⟨a, rfl, h⟩

/-- What needs the id succeeds only if it is there. -/
theorem exists_of_requireId {α : Type} {id : ModuleId} {f : String → Except BoundaryError α} {a : α}
    (h : (requireId id >>= f) = .ok a) : ∃ s, id = .ok s ∧ f s = .ok a := by
  cases id with
  | error e => exact nomatch h
  | ok s => exact ⟨s, rfl, h⟩

end ServerBoundary.Boundary
