import ServerBoundary.Client.Promise

/-!
# The store of a client

A store holds what a mounted root, its refetches and calls of server functions share: the live entry,
which is the last fetch with its elements; responses that were prefetched and wait to be adopted; the
live elements; and the functions registered with it. Fetching what the live entry holds gives its
elements again, and anything else supersedes it.

What a store does to the world around it is written down in its effects, in order. A request goes out
through a route, of which the store knows nothing more; its response is expected under a number.
-/

namespace ServerBoundary.Client

/-- The input of a fetch, which transformers may rewrite. -/
structure FetchInput where
  path : String
  params : Option Params
  /-- Only start the request, for a later fetch. -/
  prefetchOnly : Bool

/-- A function that rewrites the inputs of fetches. -/
abbrev Transformer := FetchInput → FetchInput

/-- What a store does to the world around it. -/
inductive Effect (ρ : Type) where
  /-- A registered transformer was given an input. -/
  | transformed (registration : Nat) (input : FetchInput)
  /-- A request went out through a route; its response is expected under a number. -/
  | requested (response : Nat) (route : ρ) (request : Request)
  /-- A registered listener was given a patch. -/
  | notified (registration : Nat) (patch : Elements)

/-- The last fetch with its elements. -/
structure Entry where
  path : String
  params : Option Params
  elements : Promise

/-- A response that waits to be adopted by a fetch. -/
inductive Parked where
  /-- A response that came with the document; it suits any parameters. -/
  | seeded (response : PendingResponse)
  /-- The response of a prefetch with its parameters. -/
  | prefetched (response : PendingResponse) (params : Option Params)

/-- What a hot reload fetches. -/
structure ReloadTarget (ρ : Type) where
  path : String
  params : Option Params
  route : ρ

/-- The state of a store whose requests go out through routes of type `ρ`. -/
structure Store (ρ : Type) where
  config : ClientConfig := {}
  entry : Option Entry := none
  /-- Responses that wait to be adopted, by path. -/
  parked : OrderedMap Parked := .empty
  /-- Registered transformers, oldest first. -/
  transformers : List (Nat × Transformer) := []
  /-- Registered listeners, oldest first. -/
  listeners : List Nat := []
  nextRegistration : Nat := 0
  /-- The live elements. -/
  live : Option Promise := none
  /-- How often the live elements were replaced. -/
  liveVersion : Nat := 0
  reloadTarget : Option (ReloadTarget ρ) := none
  nextResponse : Nat := 0
  nextPromise : Nat := 0
  /-- What the store did to the world around it, oldest first. -/
  effects : List (Effect ρ) := []

namespace Store

variable {ρ : Type}

/-! ### Registrations -/

/-- Registers a transformer; the number is needed to unregister it. -/
def addTransformer (s : Store ρ) (t : Transformer) : Nat × Store ρ :=
  (s.nextRegistration,
    { s with
      transformers := s.transformers ++ [(s.nextRegistration, t)]
      nextRegistration := s.nextRegistration + 1 })

/-- Registers a listener; the number is needed to unregister it. -/
def addListener (s : Store ρ) : Nat × Store ρ :=
  (s.nextRegistration,
    { s with
      listeners := s.listeners ++ [s.nextRegistration]
      nextRegistration := s.nextRegistration + 1 })

/-- Removes a transformer. -/
def removeTransformer (s : Store ρ) (registration : Nat) : Store ρ :=
  { s with transformers := s.transformers.filter fun t => t.1 != registration }

/-- Removes a listener. -/
def removeListener (s : Store ρ) (registration : Nat) : Store ρ :=
  { s with listeners := s.listeners.filter (· != registration) }

/-! ### The live elements -/

/-- A new promise. -/
def promise (s : Store ρ) (make : Nat → Promise) : Promise × Store ρ :=
  (make s.nextPromise, { s with nextPromise := s.nextPromise + 1 })

/-- Replaces the live elements. -/
def setLive (s : Store ρ) (p : Promise) : Store ρ :=
  { s with live := some p, liveVersion := s.liveVersion + 1 }

/-- Lays a patch over the live elements; if there are none, it becomes them. -/
def mergeLive (s : Store ρ) (patch : Promise) : Store ρ :=
  match s.live with
  | none => s.setLive patch
  | some current =>
    let (merged, s) := s.promise fun n => .merged n current patch
    s.setLive merged

/-- Drops the live entry, so that the next fetch asks for something new. -/
def clearEntry (s : Store ρ) : Store ρ := { s with entry := none }

/-! ### Requests -/

/-- What the transformers are given when they run on an input, in order. -/
def transformEffects : List (Nat × Transformer) → FetchInput → List (Effect ρ)
  | [], _ => []
  | (n, t) :: ts, input => .transformed n input :: transformEffects ts (t input)

/-- What the transformers make of an input. -/
def transformed : List (Nat × Transformer) → FetchInput → FetchInput
  | [], input => input
  | (_, t) :: ts, input => transformed ts (t input)

/-- A response that is expected under a new number. -/
def expect (s : Store ρ) : Nat × Store ρ :=
  (s.nextResponse, { s with nextResponse := s.nextResponse + 1 })

/-- Sends the request for a path, if the path can be encoded. -/
def request (s : Store ρ) (route : ρ) (path : String) (params : Option Params) :
    PendingResponse × Store ρ :=
  match Request.ofPath s.config path params with
  | .error f => (.failed (.invalidPath f), s)
  | .ok r =>
    let (n, s) := s.expect
    (.expected n, { s with effects := s.effects ++ [.requested n route r] })

/-- The parked response that an input may adopt: one that came with the document, or one that was
prefetched with the same parameters. -/
def adoptable (input : FetchInput) : Option Parked → Option PendingResponse
  | none => none
  | some (.seeded r) => if input.prefetchOnly then none else some r
  | some (.prefetched r params) =>
    if !input.prefetchOnly && sameParams params input.params then some r else none

/-- Elements for a path that are not those of the live entry: transformers run, a response parked
under the path is adopted or dropped, and a request is sent if none was adopted. The response of a
prefetch is parked. -/
def obtain (s : Store ρ) (route : ρ) (input : FetchInput) : Promise × Store ρ :=
  let s := { s with effects := s.effects ++ transformEffects s.transformers input }
  let input := transformed s.transformers input
  let parked := s.parked.get? input.path
  let s := { s with parked := s.parked.erase input.path }
  let (response, s) :=
    match adoptable input parked with
    | some r => (r, s)
    | none => s.request route input.path input.params
  let s :=
    if input.prefetchOnly then
      { s with parked := s.parked.insert input.path (.prefetched response input.params) }
    else s
  s.promise fun n => .payload n response

/-- Parks a response that came with the document. -/
def seed (s : Store ρ) (path : String) : Nat × Store ρ :=
  let (n, s) := s.expect
  (n, { s with parked := s.parked.insert path (.seeded (.expected n)) })

/-- Whether a response is parked under a path. -/
def hasParked (s : Store ρ) (path : String) : Bool := s.parked.contains path

/-- The elements of the live entry, if it is the one for a path and parameters. -/
def liveEntry? (s : Store ρ) (path : String) (params : Option Params) : Option Promise :=
  match s.entry with
  | some e => if e.path == path && sameParams e.params params then some e.elements else none
  | none => none

/-- Notes what a hot reload fetches, if there are hot reloads. -/
def aimReload (s : Store ρ) (route : ρ) (path : String) (params : Option Params) : Store ρ :=
  if s.config.hot then { s with reloadTarget := some ⟨path, params, route⟩ } else s

/-- Elements for a path: those of the live entry, or new ones, which become the live entry. -/
def fetch (s : Store ρ) (route : ρ) (path : String) (params : Option Params) : Promise × Store ρ :=
  let s := s.aimReload route path params
  match s.liveEntry? path params with
  | some p => (p, s)
  | none =>
    let (p, s) := s.obtain route ⟨path, params, false⟩
    (p, { s with entry := some ⟨path, params, p⟩ })

/-- Whether a prefetch with the same parameters is parked under a path. -/
def isPrefetched (s : Store ρ) (path : String) (params : Option Params) : Bool :=
  match s.parked.get? path with
  | some (.prefetched _ parkedParams) => sameParams parkedParams params
  | _ => false

/-- Starts a request for a later fetch to adopt, unless it has been started. -/
def prefetch (s : Store ρ) (route : ρ) (path : String) (params : Option Params) : Store ρ :=
  if s.isPrefetched path params then s else (s.obtain route ⟨path, params, true⟩).2

/-! ### Calls of server functions -/

/-- Starts the call of a server function. -/
def call (s : Store ρ) (route : ρ) (id : String) (args : List Params) :
    Except FunctionIdFault (Promise × Store ρ) :=
  match RscPath.ofFunctionId id with
  | .error f => .error f
  | .ok path => .ok (s.obtain route ⟨path, some (.ofArguments args), false⟩)

/-- Gives a patch to the listeners and lays it over the live elements, unless it is empty. -/
def applyPatch (s : Store ρ) (patch : Elements) : Store ρ :=
  if patch.isEmpty then s
  else
    let s := { s with effects := s.effects ++ s.listeners.map (Effect.notified · patch) }
    let (p, s) := s.promise fun n => .ready n patch
    s.mergeLive p

/-- Ends a call with what its elements came to. Its result is the value among them, and the other
elements are a patch. -/
def finishCall (s : Store ρ) : Outcome → Except RscError (Option Json) × Store ρ
  | .error e => (.error e, s)
  | .ok elements =>
    let (value, patch) := elements.splitValue
    (.ok value, s.applyPatch patch)

/-! ### Roots -/

/-- Mounts a root: what it fetches becomes the live elements. -/
def mount (s : Store ρ) (route : ρ) (path : String) (params : Option Params) : Promise × Store ρ :=
  let (p, s) := s.fetch route path params
  (p, s.setLive p)

/-- Fetches anew and lays the result over the live elements. If that fails, the live elements keep
what they had, and only the caller is told. -/
def refetch (s : Store ρ) (route : ρ) (path : String) (params : Option Params) :
    Promise × Store ρ :=
  let (p, s) := s.clearEntry.fetch route path params
  let (patch, s) := s.promise fun n => .orEmpty n p
  (p, s.mergeLive patch)

/-- Fetches anew what was fetched last and makes it the live elements, if there are hot reloads and
something was fetched. -/
def reload (s : Store ρ) : Option (Promise × Store ρ) :=
  match s.reloadTarget with
  | none => none
  | some t =>
    let (p, s) := s.clearEntry.fetch t.route t.path t.params
    some (p, s.setLive p)

end Store

/-- A place for an element, with what the element may show inside. -/
structure Slot where
  id : String
  children : Option Json := none

/-- An element in its place. -/
structure Rendered where
  element : Json
  children : Option Json

/-- The element of a slot, once the elements around it are known. -/
def Slot.render (slot : Slot) : Outcome → Except RscError Rendered
  | .error e => .error e
  | .ok elements =>
    match elements.get? slot.id with
    | some (some element) => .ok ⟨element, slot.children⟩
    | some none => .error (.undefinedElement slot.id)
    | none => .error (.invalidElement slot.id)

end ServerBoundary.Client
