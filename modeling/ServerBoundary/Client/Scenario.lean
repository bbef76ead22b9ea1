import ServerBoundary.Client.Session

/-!
# Scenarios

A scenario plays steps on a store whose server is scripted. A rule of the script says what a request
for an address is answered with, and a gate may hold the answer back until a step opens it. The
requests go through views of the store, which may change the address, answer by themselves, or note
that they were used. Each step has a report: its result, the requests that reached the server, and
what the scripted functions noted.
-/

namespace ServerBoundary.Client

/-- An answer of the scripted server, which a gate may hold back. -/
structure Reply where
  delivery : Delivery
  gate : Option String := none

/-- What the scripted server answers at an address. -/
structure Rule where
  url : String
  /-- The rule is used only once. -/
  once : Bool := false
  reply : Reply

/-- A step that requests take in a view. -/
structure Layer where
  /-- The name under which each request is noted. -/
  log : Option String := none
  /-- What is put at the end of the address. -/
  appended : String := ""
  /-- The answer, if requests do not go any further. -/
  reply : Option Reply := none

/-- The layers of a view, outermost first. -/
abbrev Route := List Layer

/-- What a scripted transformer does to an input. -/
structure Rewrite where
  path : Option String := none
  appended : String := ""
  params : Option (Option Params) := none
  prefetchOnly : Option Bool := none

/-- The transformer of a rewrite. -/
def Rewrite.apply (r : Rewrite) (input : FetchInput) : FetchInput where
  path := r.path.getD input.path ++ r.appended
  params := r.params.getD input.params
  prefetchOnly := r.prefetchOnly.getD input.prefetchOnly

/-- What scripted functions note. -/
inductive Event where
  | fetched (log url : String)
  | transformed (name : String) (input : FetchInput)
  | notified (name : String) (patch : Elements)

/-- Where a slot finds its elements. -/
inductive SlotContext where
  | root
  | server
  | outside

/-- Something that a step keeps under a name. -/
inductive Kept where
  | promise (p : Promise)
  | call (number : Nat)
  /-- A slot, and the elements it waits for, if there is a root. -/
  | slot (slot : Slot) (elements : Option Promise)

/-- A step of a scenario. -/
inductive Step where
  | fetch (view path : String) (params : Option Params)
  | prefetch (view path : String) (params : Option Params)
  | call (view id : String) (args : List Params)
  | mount (view path : String) (params : Option Params)
  | refetch (path : String) (params : Option Params) (layer : Option Layer)
  | slot (slot : Slot) (context : SlotContext)
  | serveKept (name : String)
  | serveElements (elements : Elements)
  | seed (path : String) (reply : Reply)
  | respond (rule : Rule)
  | release (gate : String)
  | poll (name : String)
  | same (first second : String)
  | live
  | hasParked (path : String)
  | clearEntry
  | config
  | changed
  | setElements (elements : Elements) (merge : Bool)
  | setResponse (reply : Reply)
  | view (name source : String) (layer : Layer)
  | rawFetch (view : String) (request : Request)
  | addTransformer (name : String) (rewrite : Rewrite)
  | addListener (name : String)
  | unregister (name : String)
  | reload

/-- The result of a step. What is still on its way is `none` inside. -/
inductive StepResult where
  | nothing
  | elements (outcome : Option Outcome)
  | call (result : Option CallResult)
  | rendered (result : Option (Except RscError Rendered))
  | response (delivery : Option Delivery)
  | flag (value : Bool)
  | config (value : ClientConfig)

/-- What a step did. -/
structure Report where
  result : StepResult
  requests : List Request
  events : List Event
  /-- The live elements after the step, if there are any. -/
  live : Option (Option Outcome)

/-- A scenario between two steps. -/
structure Scenario where
  session : Session Route
  rules : List Rule
  openGates : List String := []
  /-- Answers that are held back: the number, the gate and the answer. -/
  held : List (Nat × String × Delivery) := []
  /-- The responses that something waits for, in the order in which that began. -/
  awaited : List Nat := []
  views : List (String × Route) := [("main", [])]
  /-- The view of the mounted root. -/
  root : Option Route := none
  serverRoot : Option Promise := none
  kept : List (String × Kept) := []
  /-- The registrations by name, and the names of all registrations there ever were. -/
  registrations : List (String × Nat) := []
  names : List (Nat × String) := []
  /-- The version of the live elements that was seen last. -/
  seenVersion : Nat := 0
  requests : List Request := []
  events : List Event := []

namespace Scenario

/-- The start of a scenario. -/
def start (config : ClientConfig) (rules : List Rule) : Scenario where
  session := { store := { config := config } }
  rules := rules

/-- Takes the first rule for an address; a rule that is used once goes. -/
def takeRule (url : String) : List Rule → Option Reply × List Rule
  | [] => (none, [])
  | r :: rest =>
    if r.url == url then (some r.reply, if r.once then rest else r :: rest)
    else
      let (found, rest) := takeRule url rest
      (found, r :: rest)

/-- The answer where there is no rule. -/
def notFound : Reply := { delivery := .ok { status := 404, statusText := "Not Found" } }

/-- Answers a request, or holds the answer back. -/
def answer (sc : Scenario) (n : Nat) (reply : Reply) : Scenario :=
  match reply.gate with
  | some gate =>
    if sc.openGates.contains gate then { sc with session := sc.session.deliver n reply.delivery }
    else { sc with held := sc.held ++ [(n, gate, reply.delivery)] }
  | none => { sc with session := sc.session.deliver n reply.delivery }

/-- Sends a request through the layers of a route to the server. -/
def send (sc : Scenario) (n : Nat) : Route → Request → Scenario
  | [], request =>
    let (reply, rules) := takeRule request.url sc.rules
    answer { sc with requests := sc.requests ++ [request], rules := rules } n (reply.getD notFound)
  | layer :: rest, request =>
    let sc := match layer.log with
      | some log => { sc with events := sc.events ++ [.fetched log request.url] }
      | none => sc
    match layer.reply with
    | some reply => answer sc n reply
    | none => send sc n rest { request with url := request.url ++ layer.appended }

/-- Notes that something waits for a response. -/
def await (sc : Scenario) (n : Nat) : Scenario :=
  if sc.awaited.contains n then sc else { sc with awaited := sc.awaited ++ [n] }

/-- The name of a registration. -/
def nameOf (sc : Scenario) (registration : Nat) : String :=
  (Session.lookup registration sc.names).getD ""

/-- Does what an effect of the store asks for. -/
def perform (sc : Scenario) : Effect Route → Scenario
  | .transformed n input =>
    { sc with events := sc.events ++ [.transformed (sc.nameOf n) input] }
  | .requested n route request => (sc.await n).send n route request
  | .notified n patch => { sc with events := sc.events ++ [.notified (sc.nameOf n) patch] }

/-- Changes the store and does what its effects ask for. -/
def withStore (sc : Scenario) (store : Store Route) : Scenario :=
  let session := { sc.session with store := { store with effects := [] } }
  store.effects.foldl perform { sc with session := session }

/-- Ends the calls whose elements are known. -/
def settle (sc : Scenario) : Scenario :=
  let session := sc.session.settle
  withStore { sc with session := session } session.store

/-- Opens a gate. Those who wait for the answers behind it go on in the order in which they began to
wait. -/
def openGate (sc : Scenario) (gate : String) : Scenario :=
  let behind := sc.held.filter fun h => h.2.1 == gate
  let first := sc.awaited.filterMap fun n => behind.find? fun h => h.1 == n
  let last := behind.filter fun h => !sc.awaited.contains h.1
  let sc :=
    { sc with
      openGates := gate :: sc.openGates
      held := sc.held.filter fun h => h.2.1 != gate }
  (first ++ last).foldl
    (fun sc (n, _, delivery) => settle { sc with session := sc.session.deliver n delivery }) sc

/-- The route of a view. -/
def routeOf (sc : Scenario) (view : String) : Route := (lookupKey view sc.views).getD []

/-- Waits for the response of a promise, if it has one. -/
def awaitPromise (sc : Scenario) (p : Promise) : Scenario :=
  match p.response? with
  | some n => sc.await n
  | none => sc

/-- What something that was kept has come to. -/
def stateOf (sc : Scenario) : Kept → StepResult
  | .promise p => .elements (sc.session.outcome? p)
  | .call n => .call (sc.session.result? n)
  | .slot _ none => .rendered (some (.error .missingRoot))
  | .slot slot (some p) => .rendered ((sc.session.outcome? p).map slot.render)

/-- What a step does, and what it has to keep. -/
def act (sc : Scenario) (step : Step) : Scenario × Option Kept × StepResult :=
  let store := sc.session.store
  let done (sc : Scenario) : Scenario × Option Kept × StepResult := (sc, none, .nothing)
  let promised (r : Promise × Store Route) : Scenario × Option Kept × StepResult :=
    let sc := (sc.withStore r.2).awaitPromise r.1
    (sc, some (.promise r.1), sc.stateOf (.promise r.1))
  match step with
  | .fetch view path params => promised (store.fetch (sc.routeOf view) path params)
  | .prefetch view path params => done (sc.withStore (store.prefetch (sc.routeOf view) path params))
  | .call view id args =>
    let (n, session) := sc.session.call (sc.routeOf view) id args
    let sc := withStore { sc with session := session } session.store
    let sc := match Session.lookup n sc.session.waiting with
      | some p => sc.awaitPromise p
      | none => sc
    let sc := sc.settle
    (sc, some (.call n), sc.stateOf (.call n))
  | .mount view path params =>
    let route := sc.routeOf view
    let (sc, kept, result) := promised (store.mount route path params)
    ({ sc with root := some route }, kept, result)
  | .refetch path params layer =>
    let route := layer.toList ++ sc.root.getD []
    promised (store.refetch route path params)
  | .slot slot context =>
    let elements := match context with
      | .root => if sc.root.isSome then store.live else none
      | .server => sc.serverRoot
      | .outside => none
    (sc, some (.slot slot elements), sc.stateOf (.slot slot elements))
  | .serveKept name =>
    match lookupKey name sc.kept with
    | some (.promise p) => done { sc with serverRoot := some p }
    | _ => done sc
  | .serveElements elements =>
    let (p, store) := store.promise fun n => .ready n elements
    done { sc.withStore store with serverRoot := some p }
  | .seed path reply =>
    let (n, store) := store.seed path
    done ((sc.withStore store).answer n reply)
  | .respond rule => done { sc with rules := rule :: sc.rules }
  | .release gate => done (sc.openGate gate)
  | .poll name => (sc, none, match lookupKey name sc.kept with
    | some k => sc.stateOf k
    | none => .nothing)
  | .same first second =>
    (sc, none, match lookupKey first sc.kept, lookupKey second sc.kept with
    | some (.promise p), some (.promise q) => .flag (p.isSame q)
    | _, _ => .flag false)
  | .live =>
    match store.live with
    | some p => (sc, some (.promise p), sc.stateOf (.promise p))
    | none => done sc
  | .hasParked path => (sc, none, .flag (store.hasParked path))
  | .clearEntry => done (sc.withStore store.clearEntry)
  | .config => (sc, none, .config store.config)
  | .changed =>
    ({ sc with seenVersion := store.liveVersion }, none, .flag (store.liveVersion != sc.seenVersion))
  | .setElements elements merge =>
    let (p, store) := store.promise fun n => .ready n elements
    done (sc.withStore (if merge then store.mergeLive p else store.setLive p))
  | .setResponse reply =>
    let (n, store) := store.expect
    let (p, store) := store.promise fun m => .body m (.expected n)
    done ((sc.withStore (store.setLive p)).answer n reply)
  | .view name source layer =>
    done { sc with views := setKey name (layer :: sc.routeOf source) sc.views }
  | .rawFetch view request =>
    let (n, store) := store.expect
    let sc := (sc.withStore store).send n (sc.routeOf view) request
    (sc, none, .response (sc.session.delivery? n))
  | .addTransformer name rewrite =>
    let (n, store) := store.addTransformer rewrite.apply
    done { sc.withStore store with
      registrations := setKey name n sc.registrations, names := (n, name) :: sc.names }
  | .addListener name =>
    let (n, store) := store.addListener
    done { sc.withStore store with
      registrations := setKey name n sc.registrations, names := (n, name) :: sc.names }
  | .unregister name =>
    match lookupKey name sc.registrations with
    | some n =>
      done { sc.withStore ((store.removeTransformer n).removeListener n) with
        registrations := eraseKey name sc.registrations }
    | none => done sc
  | .reload =>
    match store.reload with
    | some r => promised r
    | none => done sc

/-- Plays a step and keeps what comes of it under a name. -/
def play (sc : Scenario) (step : Step) (keepAs : Option String) : Scenario × Report :=
  let (sc, kept, result) := act { sc with requests := [], events := [] } step
  let sc := match keepAs, kept with
    | some name, some k => { sc with kept := setKey name k sc.kept }
    | _, _ => sc
  (sc, {
    result := result, requests := sc.requests, events := sc.events
    live := sc.session.store.live.map sc.session.outcome? })

/-- Plays steps one after the other. -/
def playAll : Scenario → List (Step × Option String) → List Report
  | _, [] => []
  | sc, (step, keepAs) :: rest =>
    let (sc, report) := sc.play step keepAs
    report :: playAll sc rest

end Scenario

end ServerBoundary.Client
