import ServerBoundary.Client.Store

/-!
# Sessions

A session is a store together with the responses that have arrived and the calls of server functions
that are still waiting. Responses arrive in any order; `Session.settle` ends the calls whose elements
are known, and only those, in the order in which they were made.
-/

namespace ServerBoundary.Client

/-- What a call of a server function came to: its result, or none. -/
abbrev CallResult := Except RscError (Option Json)

/-- A store in the course of time. -/
structure Session (ρ : Type) where
  store : Store ρ := {}
  /-- What has arrived, by number. -/
  arrived : List (Nat × Delivery) := []
  /-- The calls that wait for their elements, oldest first. -/
  waiting : List (Nat × Promise) := []
  /-- The calls that have ended. -/
  ended : List (Nat × CallResult) := []
  nextCall : Nat := 0

namespace Session

variable {ρ : Type}

/-- The value of a number in a list of pairs. -/
def lookup {α : Type} (n : Nat) : List (Nat × α) → Option α
  | [] => none
  | (m, a) :: rest => if m == n then some a else lookup n rest

/-- What arrived under a number. -/
def delivery? (s : Session ρ) (n : Nat) : Option Delivery := lookup n s.arrived

/-- What a promise came to so far. -/
def outcome? (s : Session ρ) (p : Promise) : Option Outcome := p.outcome? s.delivery?

/-- A response arrives. What arrived before under its number stays. -/
def deliver (s : Session ρ) (n : Nat) (d : Delivery) : Session ρ :=
  if (s.delivery? n).isSome then s else { s with arrived := s.arrived ++ [(n, d)] }

/-- Ends those of some calls whose elements are known, from left to right. -/
def endKnown : List (Nat × Promise) → Session ρ → Session ρ
  | [], s => s
  | (n, p) :: rest, s =>
    match s.outcome? p with
    | none => endKnown rest { s with waiting := s.waiting ++ [(n, p)] }
    | some outcome =>
      let (result, store) := s.store.finishCall outcome
      endKnown rest { s with store := store, ended := s.ended ++ [(n, result)] }

/-- Ends the calls whose elements are known. -/
def settle (s : Session ρ) : Session ρ := endKnown s.waiting { s with waiting := [] }

/-- Starts a call under a new number. A call that cannot be made has ended. -/
def call (s : Session ρ) (route : ρ) (id : String) (args : List Params) : Nat × Session ρ :=
  let n := s.nextCall
  let s := { s with nextCall := n + 1 }
  match s.store.call route id args with
  | .error f => (n, { s with ended := s.ended ++ [(n, .error (.invalidFunctionId f))] })
  | .ok (p, store) => (n, { s with store := store, waiting := s.waiting ++ [(n, p)] })

/-- What a call came to so far. -/
def result? (s : Session ρ) (n : Nat) : Option CallResult := lookup n s.ended

end Session

end ServerBoundary.Client
