import ServerBoundary.Client.Exchange

/-!
# Promises

A promise is elements that may still be on their way. It is made of responses, which are known by
their numbers, and `Promise.outcome?` says what it comes to once some responses have arrived. Two
promises with the same number are the same one.
-/

namespace ServerBoundary.Client

/-- What a request came to. -/
abbrev Delivery := Except RscError Response

/-- What elements came to. -/
abbrev Outcome := Except RscError Elements

/-- A response that may still be on its way. -/
inductive PendingResponse where
  /-- A response that arrives under a number. -/
  | expected (number : Nat)
  /-- A request that could not be made. -/
  | failed (e : RscError)
deriving DecidableEq, Repr

/-- What a response came to, given the deliveries that have arrived. -/
def PendingResponse.delivery? (arrived : Nat → Option Delivery) : PendingResponse → Option Delivery
  | expected n => arrived n
  | failed e => some (.error e)

/-- Elements that may still be on their way. -/
inductive Promise where
  /-- The elements of a successful response. -/
  | payload (number : Nat) (response : PendingResponse)
  /-- The elements in the body of a response, whatever its status. -/
  | body (number : Nat) (response : PendingResponse)
  | ready (number : Nat) (elements : Elements)
  /-- The elements of a promise, or none at all if it fails. -/
  | orEmpty (number : Nat) (promise : Promise)
  /-- The elements of a promise with those of another over them. -/
  | merged (number : Nat) (base patch : Promise)

namespace Promise

/-- The number of a promise. -/
def number : Promise → Nat
  | payload n _ => n
  | body n _ => n
  | ready n _ => n
  | orEmpty n _ => n
  | merged n _ _ => n

/-- Whether two are the same promise. -/
def isSame (p q : Promise) : Bool := p.number == q.number

/-- Two outcomes joined: an error as soon as either is one, the first before the second. -/
def join : Option Outcome → Option Outcome → Option Outcome
  | some (.error e), _ => some (.error e)
  | _, some (.error e) => some (.error e)
  | some (.ok a), some (.ok b) => some (.ok (a.merge b))
  | _, _ => none

/-- An outcome in which an error counts as no elements. -/
def forgiving : Outcome → Outcome
  | .ok e => .ok e
  | .error _ => .ok .empty

/-- What a promise came to, given the deliveries that have arrived. -/
def outcome? (arrived : Nat → Option Delivery) : Promise → Option Outcome
  | payload _ r => (r.delivery? arrived).map fun d => d >>= fun r => r.checkStatus >>= Response.elements
  | body _ r => (r.delivery? arrived).map fun d => d >>= Response.elements
  | ready _ e => some (.ok e)
  | orEmpty _ p => (p.outcome? arrived).map forgiving
  | merged _ p q => join (p.outcome? arrived) (q.outcome? arrived)

/-- The response that a promise of a single response waits for. -/
def response? : Promise → Option Nat
  | payload _ (.expected n) => some n
  | body _ (.expected n) => some n
  | _ => none

end Promise

end ServerBoundary.Client
