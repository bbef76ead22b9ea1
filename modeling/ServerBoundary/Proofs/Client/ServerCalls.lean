import ServerBoundary.Proofs.Client.CallCourse
import ServerBoundary.Proofs.Client.Listeners
import ServerBoundary.Proofs.Client.LiveEntry
import ServerBoundary.Proofs.Client.LiveTree
import ServerBoundary.Proofs.Client.Parking
import ServerBoundary.Proofs.Json.Reading

/-!
# Calls of server functions

A call starts with a request and waits for its response while anything else may happen. When it
ends, the response decides what it does: an error is returned and nothing else, and the elements of
a payload are split into the value that is returned and a patch, which goes to the listeners and is
then laid over the live elements.

> `server_call_is_carried_out`: a call of an id that names no function returns the error and does
> nothing. Any other call starts without a trace in the live entry, the aim of a reload, the live
> elements and the listeners. Whatever happens until it ends, what its end does is decided by the
> delivery, and it ends once.

`Delivery.Fails` and `Delivery.Carries` say what a delivery is in terms of its status and of the
text in its body; there is no third kind (`fails_or_carries`). The course of a call is `Waits` until
it ends and `Over` afterwards, and `Waits.act` says that only its own end leads from one to the
other.
-/

namespace ServerBoundary.Client

variable {ρ : Type}

/-! ## Deliveries -/

/-- A delivery without elements, with the error that it amounts to. -/
inductive Delivery.Fails : Delivery → RscError → Prop where
  | request (e : RscError) : Fails (.error e) e
  | status (r : Response) (hstatus : r.isOk = false) :
    Fails (.ok r) (.status r.status r.location
      (if r.bodyText.isEmpty then r.statusText else r.bodyText))
  | notJson (r : Response) (e : JsonError) (hstatus : r.isOk = true)
    (hread : Json.read r.body = .error e) : Fails (.ok r) (.payload (.notJson e))
  | notObject (r : Response) (v : Json) (hstatus : r.isOk = true)
    (hread : Json.read r.body = .ok v) (hv : ∀ fields, v ≠ .object fields) :
    Fails (.ok r) (.payload .notObject)

/-- A delivery of an object with some fields. -/
inductive Delivery.Carries : Delivery → List (String × Json) → Prop where
  | payload (r : Response) (fields : List (String × Json)) (hstatus : r.isOk = true)
    (hread : Json.read r.body = .ok (.object fields)) : Carries (.ok r) fields

/-- The value that a call returns: that of the reserved field, if there is one that is defined. -/
def returnedValue (fields : List (String × Json)) : Option Json :=
  (lookupKey Elements.valueKey fields).bind (decodeElement {})

/-- The other fields in their order, as elements. -/
def patchEntries (fields : List (String × Json)) : List (String × Option Json) :=
  (fields.filter fun f => f.1 != Elements.valueKey).map fun (id, v) => (id, decodeElement {} v)

/-- The elements of some fields. -/
def fieldElements (fields : List (String × Json)) : Elements :=
  .ofList (fields.map fun (id, v) => (id, decodeElement {} v))

/-- A delivery fails or carries fields. -/
theorem fails_or_carries (d : Delivery) :
    (∃ e, Delivery.Fails d e) ∨ ∃ fields, Delivery.Carries d fields := by
  cases d with
  | error e => exact .inl ⟨e, .request e⟩
  | ok r =>
    cases hstatus : r.isOk with
    | false => exact .inl ⟨_, .status r hstatus⟩
    | true =>
      cases hread : Json.read r.body with
      | error e => exact .inl ⟨_, .notJson r e hstatus hread⟩
      | ok v =>
        by_cases hobject : ∃ fields, v = .object fields
        · obtain ⟨fields, rfl⟩ := hobject
          exact .inr ⟨fields, .payload r fields hstatus hread⟩
        · exact .inl ⟨_, .notObject r v hstatus hread fun fields hv => hobject ⟨fields, hv⟩⟩

theorem outcome?_of_fails {arrived : Nat → Option Delivery} {response : PendingResponse}
    {d : Delivery} {e : RscError} (hd : response.delivery? arrived = some d)
    (h : Delivery.Fails d e) (k : Nat) :
    (Promise.payload k response).outcome? arrived = some (.error e) := by
  rw [Promise.outcome?, hd]
  cases h with
  | request e => rfl
  | status r hstatus =>
    show some (r.checkStatus >>= Response.elements) = _
    rw [Response.checkStatus, if_neg (by simp [hstatus])]
    rfl
  | notJson r e hstatus hread =>
    show some (r.checkStatus >>= Response.elements) = _
    rw [Response.checkStatus, if_pos hstatus]
    show some r.elements = _
    rw [Response.elements, decodeElements, hread]
  | notObject r v hstatus hread hv =>
    show some (r.checkStatus >>= Response.elements) = _
    rw [Response.checkStatus, if_pos hstatus]
    show some r.elements = _
    rw [Response.elements, decodeElements, hread]
    cases v with
    | object fields => exact absurd rfl (hv fields)
    | _ => rfl

theorem outcome?_of_carries {arrived : Nat → Option Delivery} {response : PendingResponse}
    {d : Delivery} {fields : List (String × Json)} (hd : response.delivery? arrived = some d)
    (h : Delivery.Carries d fields) (k : Nat) :
    (Promise.payload k response).outcome? arrived = some (.ok (fieldElements fields)) := by
  rw [Promise.outcome?, hd]
  obtain ⟨r, fields, hstatus, hread⟩ := h
  show some (r.checkStatus >>= Response.elements) = _
  rw [Response.checkStatus, if_pos hstatus]
  show some r.elements = _
  rw [Response.elements, decodeElements, hread]
  rfl

theorem lookupKey_map {α β : Type} (key : String) (f : α → β) (es : List (String × α)) :
    lookupKey key (es.map fun (k, v) => (k, f v)) = (lookupKey key es).map f := by
  induction es with
  | nil => rfl
  | cons e rest ih =>
    obtain ⟨k, v⟩ := e
    rw [List.map_cons, lookupKey, lookupKey, ih]
    split <;> rfl

/-- What a payload is split into. Its keys are different ones because it was read from a text. -/
theorem splitValue_of_carries {d : Delivery} {fields : List (String × Json)}
    (h : Delivery.Carries d fields) :
    (fieldElements fields).splitValue.1 = returnedValue fields ∧
      (fieldElements fields).splitValue.2.entries = patchEntries fields := by
  obtain ⟨r, fields, hstatus, hread⟩ := h
  have hkeys : ((fields.map fun (id, v) => (id, decodeElement {} v)).map Prod.fst).Nodup := by
    have hfields := (Json.distinctKeys_object.mp (Json.distinctKeys_of_read hread)).1
    simpa [Function.comp_def] using hfields
  have hentries : (fieldElements fields).entries =
      fields.map fun (id, v) => (id, decodeElement {} v) := OrderedMap.entries_ofList hkeys
  constructor
  · show (lookupKey Elements.valueKey (fieldElements fields).entries).join = _
    rw [hentries, lookupKey_map, returnedValue]
    cases lookupKey Elements.valueKey fields <;> rfl
  · show eraseKey Elements.valueKey (fieldElements fields).entries = _
    rw [hentries, eraseKey, patchEntries, List.filter_map]
    rfl

/-! ## The start of a call -/

/-- The listener that an effect told of a patch, with the patch. -/
def Effect.notification? : Effect ρ → Option (Nat × Elements)
  | notified registration patch => some (registration, patch)
  | _ => none

namespace Store

/-- The listeners that were told of patches, each with its patch, oldest first. -/
def notifications (s : Store ρ) : List (Nat × Elements) :=
  s.effects.filterMap Effect.notification?

/-- What starting a call does. It obtains a response for an input: the parked one that suits it, or
else that of one request, if its path has an encoding. Nothing else is sent, and only what was
parked under its path is gone. -/
structure Starts (s : Store ρ) (route : ρ) (input : FetchInput) (response : PendingResponse)
    (s' : Store ρ) : Prop where
  draws : s.Draws route input response s'
  parked : ∀ path, path ≠ (s.reached input).path → s'.parked.get? path = s.parked.get? path
  entry : s'.entry = s.entry
  reloadTarget : s'.reloadTarget = s.reloadTarget
  live : s'.live = s.live
  liveVersion : s'.liveVersion = s.liveVersion
  notifications : s'.notifications = s.notifications

/-- Running the transformers and sending a request tell no listener. -/
theorem notifications_obtain (s : Store ρ) (route : ρ) (input : FetchInput) :
    (s.obtain route input).2.notifications = s.notifications := by
  have hquiet : (s.effects ++ transformEffects s.transformers input).filterMap
      Effect.notification? = s.notifications := by
    rw [List.filterMap_append, filterMap_transformEffects_of_none fun _ _ => rfl, List.append_nil,
      notifications]
  refine obtain_cases (P := fun o => o.2.notifications = s.notifications) ?_ ?_ ?_
  · exact fun _ _ => hquiet
  · intro r _ _
    show (s.effects ++ transformEffects s.transformers input ++ _).filterMap _ = _
    rw [List.filterMap_append, hquiet]
    exact List.append_nil _
  · exact fun _ _ _ => hquiet

/-- Obtaining elements takes what is parked under the path of the input and nothing else. -/
theorem get?_parked_obtain (s : Store ρ) (route : ρ) (input : FetchInput) {path : String}
    (h : path ≠ (s.reached input).path) :
    (s.obtain route input).2.parked.get? path = s.parked.get? path := by
  have hparked : ∀ response, (s.parkedAfter input response).get? path = s.parked.get? path := by
    intro response
    rw [get?_parkedAfter, if_neg h.symm]
  exact obtain_cases (P := fun o => o.2.parked.get? path = s.parked.get? path)
    (fun response _ => hparked response) (fun _ _ _ => hparked _) (fun _ _ _ => hparked _)

/-- **The start.** What is obtained is a promise of one response, and obtaining it does no more than
a start may do. -/
theorem exists_starts (s : Store ρ) (route : ρ) (input : FetchInput) :
    ∃ response, (s.obtain route input).1 = .payload s.nextPromise response ∧
      s.Starts route input response (s.obtain route input).2 := by
  obtain ⟨response, hpromise, hdraws⟩ := s.draws_obtain route input
  have hentry := s.sameEntry_obtain route input
  obtain ⟨hlive, hversion⟩ := s.obtain_live route input
  refine ⟨response, hpromise, hdraws, fun path => s.get?_parked_obtain route input, hentry.entry,
    hentry.reloadTarget, hlive, hversion, s.notifications_obtain route input⟩

/-! ## The end of a call -/

/-- What some entries of a patch do to a store: if there are none, nothing. Otherwise every listener
is told of the patch, in order, and then the patch is laid over the live elements, or becomes them
if there are none. -/
structure Takes (s : Store ρ) (entries : List (String × Option Json)) (s' : Store ρ) : Prop where
  parking : s.SameParking s'
  entry : s'.entry = s.entry
  reloadTarget : s'.reloadTarget = s.reloadTarget
  empty : entries = [] → s' = s
  patch : entries ≠ [] → ∃ (patch : Elements) (told : Store ρ), patch.entries = entries ∧
    (told.notifications = s.notifications ++ s.listeners.map (·, patch) ∧
      told.live = s.live ∧ told.liveVersion = s.liveVersion) ∧
    s' = told.mergeLive (.ready s.nextPromise patch) ∧ s'.notifications = told.notifications ∧
      s'.liveVersion = s.liveVersion + 1 ∧
      ∀ arrived, s'.live.map (Promise.outcome? arrived) = some (match s.live with
        | none => some (.ok patch)
        | some p => Promise.join (p.outcome? arrived) (some (.ok patch)))

theorem notifications_mergeLive (s : Store ρ) (patch : Promise) :
    (s.mergeLive patch).notifications = s.notifications := by
  rw [mergeLive]
  split <;> rfl

theorem takes_applyPatch (s : Store ρ) (patch : Elements) :
    s.Takes patch.entries (s.applyPatch patch) := by
  have hparking := s.sameParking_applyPatch patch
  have hentry := s.sameEntry_applyPatch patch
  refine ⟨hparking, hentry.entry, hentry.reloadTarget, fun hnone => ?_, fun hsome => ?_⟩
  · rw [applyPatch, OrderedMap.isEmpty, hnone]
    rfl
  · let told : Store ρ := { s with
      effects := s.effects ++ s.listeners.map (Effect.notified · patch)
      nextPromise := s.nextPromise + 1 }
    have heq : s.applyPatch patch = told.mergeLive (.ready s.nextPromise patch) := by
      rw [applyPatch, OrderedMap.isEmpty, if_neg (by simpa using hsome)]
      rfl
    have hnotified : told.notifications = s.notifications ++ s.listeners.map (·, patch) := by
      show (s.effects ++ _).filterMap Effect.notification? = _
      rw [List.filterMap_append, List.filterMap_map]
      exact congrArg (_ ++ ·) (congrFun List.filterMap_eq_map' s.listeners)
    obtain ⟨hlive, hversion⟩ := told.mergeLive_live (.ready s.nextPromise patch)
    rw [heq]
    refine ⟨patch, told, rfl, ⟨hnotified, rfl, rfl⟩, rfl, notifications_mergeLive _ _, hversion, ?_⟩
    intro arrived
    rw [hlive]
    cases s.live <;> rfl

end Store

namespace Session

/-- What the end of a call does that waits for a response, by what was delivered: nothing before the
delivery; an error is returned, and the store stays as it is; the value of a payload is returned,
and the store takes the other elements. Once there is a delivery, the call has a result for good. -/
structure Ends (s : Session ρ) (n : Nat) (response : PendingResponse) : Prop where
  waits : response.delivery? s.delivery? = none → s.act (.finish n) = s
  returns : ∀ d, response.delivery? s.delivery? = some d → ∃ r, (s.act (.finish n)).Returned n r
  fails : ∀ d e, response.delivery? s.delivery? = some d → Delivery.Fails d e →
    (s.act (.finish n)).Returned n (.error e) ∧ (s.act (.finish n)).store = s.store
  succeeds : ∀ d fields, response.delivery? s.delivery? = some d → Delivery.Carries d fields →
    (s.act (.finish n)).Returned n (.ok (returnedValue fields)) ∧
      s.store.Takes (patchEntries fields) (s.act (.finish n)).store

/-- Once the elements of a call are known, its end returns what they hold. -/
theorem Waits.act_finish {s : Session ρ} {n : Nat} {p : Promise} (h : s.Waits n p)
    {outcome : Outcome} (ho : s.outcome? p = some outcome) :
    (s.act (.finish n)).store = (s.store.finishCall outcome).2 ∧
      (s.act (.finish n)).Returned n (s.store.finishCall outcome).1 := by
  have hending : s.ending? n = some outcome := by
    rw [ending?, h.waiting]
    exact ho
  constructor
  · rw [Session.act, finish, hending]
  · rcases h.act (.finish n) with hstill | ⟨outcome', -, ho', hover⟩
    · -- It does not go on waiting, because what ends does not wait.
      have hgone : lookup n (s.act (.finish n)).waiting = none := by
        rw [Session.act, finish, hending]
        exact (lookup_filter n n s.waiting).trans (if_pos rfl)
      exact absurd (hgone.symm.trans hstill.waiting) (by simp)
    · rw [Option.some.inj (ho.symm.trans ho')]
      exact hover.returned

/-- **The end.** A call that waits for one response ends as its delivery says. -/
theorem Waits.ends {s : Session ρ} {n k : Nat} {response : PendingResponse}
    (h : s.Waits n (.payload k response)) : s.Ends n response where
  waits hnone := by
    have hending : s.ending? n = none := by
      rw [ending?, h.waiting]
      show (Promise.payload k response).outcome? s.delivery? = none
      rw [Promise.outcome?, hnone]
      rfl
    rw [Session.act, finish, hending]
  returns d hd := by
    rcases fails_or_carries d with ⟨e, hfails⟩ | ⟨fields, hcarries⟩
    · exact ⟨_, (h.act_finish (outcome?_of_fails hd hfails k)).2⟩
    · exact ⟨_, (h.act_finish (outcome?_of_carries hd hcarries k)).2⟩
  fails d e hd hfails := by
    obtain ⟨hstore, hreturned⟩ := h.act_finish (outcome?_of_fails hd hfails k)
    exact ⟨hreturned, hstore⟩
  succeeds d fields hd hcarries := by
    obtain ⟨hvalue, hpatch⟩ := splitValue_of_carries hcarries
    obtain ⟨hstore, hreturned⟩ := h.act_finish (outcome?_of_carries hd hcarries k)
    constructor
    · rw [← hvalue]
      exact hreturned
    · rw [hstore, ← hpatch]
      exact s.store.takes_applyPatch (fieldElements fields).splitValue.2

end Session

/-! ## Calls in a run -/

/-- **A call of a server function is carried out.** After any run, the call of an id that is refused
returns the error for good and leaves the store as it is. Any other call starts with a response;
whatever happens until it has a result, its end does what the delivery of this response says. The
listeners that it tells are then those that were registered and not unregistered by that time, in
the order of their registrations. -/
theorem server_call_is_carried_out (config : ClientConfig) (before : List (Action ρ)) (route : ρ)
    (id : String) (args : List Params) :
    let s := (Session.start ρ config).run before
    let n := (s.call route id args).1
    let called := s.act (.call route id args)
    (∀ f, RscPath.ofFunctionId id = .error f →
      called.store = s.store ∧ called.Returned n (.error (.invalidFunctionId f))) ∧
    ∀ path, RscPath.ofFunctionId id = .ok path → ∃ response,
      s.store.Starts route ⟨path, some (.ofArguments args), false⟩ response called.store ∧
      ∀ between, (called.run between).result? n = none →
        (called.run between).Ends n response ∧
        (called.run between).store.listeners.Pairwise (· < ·) ∧
        ∀ m, m ∈ (called.run between).store.listeners ↔
          Listens (before ++ .call route id args :: between) m := by
  intro s n called
  have hnumbered : s.CallsNumbered := Session.callsNumbered_run config before
  constructor
  · intro f hf
    have hcall : s.store.call route id args = .error f := by rw [Store.call, hf]
    obtain ⟨hstore, hover⟩ := hnumbered.over_call hcall
    exact ⟨hstore, hover.returned⟩
  · intro path hpath
    obtain ⟨response, hpromise, hstarts⟩ :=
      s.store.exists_starts route ⟨path, some (.ofArguments args), false⟩
    have hcall : s.store.call route id args = .ok (.payload s.store.nextPromise response,
        (s.store.obtain route ⟨path, some (.ofArguments args), false⟩).2) := by
      rw [Store.call, hpath, ← hpromise]
    obtain ⟨hstore, hwaits⟩ := hnumbered.waits_call hcall
    refine ⟨response, hstore.symm ▸ hstarts, fun between hnone => ?_⟩
    -- The listeners are those of the run up to this point, which is one run from the start.
    obtain ⟨hsorted, hmem⟩ :=
      Session.listeners_run config (before ++ .call route id args :: between)
    have hrun : (Session.start ρ config).run (before ++ .call route id args :: between) =
        called.run between := List.foldl_append
    rw [hrun] at hsorted hmem
    refine ⟨?_, hsorted, hmem⟩
    rcases hwaits.run between with hstill | ⟨r, hover⟩
    · exact hstill.ends
    · -- A call that is over has a result.
      exact absurd (hnone.symm.trans hover.result) (by simp)

end ServerBoundary.Client
