import ServerBoundary.Proofs.Client.Obtaining
import ServerBoundary.Proofs.Client.Run

/-!
# Visits to the paths of a store

A response is parked under a path when it comes with the document or when a prefetch asks for it,
and a later operation on the path may adopt it. `Session.visits` lists what came to the paths of a
store in a run: responses that came with the document, and operations, each with the input that the
transformers made of its own and with the elements it gave.

What is said here about visits does not mention the store: what one of them left (`Remains`), when
an operation adopts it (`Operation.Adopts`), and how an operation comes by its elements
(`Operation.Served`).

> `adopts_inj`: what a visit left is adopted by one operation at most.

> `Session.turn`: whatever happens to a session does nothing about parked responses, parks one that
> came with the document, or is an operation that obtains its elements.
-/

namespace ServerBoundary.Client

variable {ρ : Type}

/-! ## Requests -/

/-- The request that an effect is: the number of its response, its route and what went out. -/
def Effect.request? : Effect ρ → Option (Nat × ρ × Request)
  | requested response route request => some (response, route, request)
  | _ => none

namespace Store

/-- The requests that went out, oldest first. -/
def requests (s : Store ρ) : List (Nat × ρ × Request) := s.effects.filterMap Effect.request?

/-- Running the transformers has no effect but those of transformers. -/
theorem filterMap_transformEffects_of_none {β : Type} {f : Effect ρ → Option β}
    (hf : ∀ registration input, f (.transformed registration input) = none)
    (ts : List (Nat × Transformer)) (input : FetchInput) :
    (transformEffects ts input).filterMap f = [] := by
  induction ts generalizing input with
  | nil => rfl
  | cons t ts ih =>
    rw [transformEffects, List.filterMap_cons_none (hf _ _)]
    exact ih (t.2 input)

/-- Running the transformers is no request. -/
@[simp] theorem filterMap_transformEffects (ts : List (Nat × Transformer)) (input : FetchInput) :
    (transformEffects ts input).filterMap (@Effect.request? ρ) = [] :=
  filterMap_transformEffects_of_none (fun _ _ => rfl) ts input

/-- How whoever obtains elements for an input comes by their response: it adopts the parked one, or
it sends a request, or the path has no encoding. -/
structure Draws (s : Store ρ) (route : ρ) (input : FetchInput) (response : PendingResponse)
    (s' : Store ρ) : Prop where
  adopts : ∀ parked, s.adopted? input = some parked →
    response = parked ∧ s'.requests = s.requests
  asks : s.adopted? input = none → ∀ r, s.outgoing input = .ok r →
    response = .expected s.nextResponse ∧
      s'.requests = s.requests ++ [(s.nextResponse, route, r)]
  fails : s.adopted? input = none → ∀ f, s.outgoing input = .error f →
    response = .failed (.invalidPath f) ∧ s'.requests = s.requests

/-- What is obtained is a promise of one response. -/
theorem draws_obtain (s : Store ρ) (route : ρ) (input : FetchInput) :
    ∃ response, (s.obtain route input).1 = .payload s.nextPromise response ∧
      s.Draws route input response (s.obtain route input).2 := by
  -- The transformers run first, which sends nothing.
  have hquiet : (s.effects ++ transformEffects s.transformers input).filterMap Effect.request? =
      s.requests := by
    rw [List.filterMap_append, filterMap_transformEffects, List.append_nil, requests]
  refine obtain_cases (P := fun o => ∃ response, o.1 = .payload s.nextPromise response ∧
    s.Draws route input response o.2) ?_ ?_ ?_
  · intro parked hadopted
    refine ⟨parked, rfl, ?_, ?_, ?_⟩
    · exact fun parked' h => ⟨Option.some.inj (hadopted.symm.trans h), hquiet⟩
    · exact fun h => absurd (hadopted.symm.trans h) (by simp)
    · exact fun h => absurd (hadopted.symm.trans h) (by simp)
  · intro r hadopted hr
    refine ⟨.expected s.nextResponse, rfl, ?_, ?_, ?_⟩
    · exact fun parked h => absurd (hadopted.symm.trans h) (by simp)
    · intro _ r' hr'
      rw [← Except.ok.inj (hr.symm.trans hr')]
      refine ⟨rfl, ?_⟩
      show (s.effects ++ transformEffects s.transformers input ++ _).filterMap _ = _
      rw [List.filterMap_append, hquiet]
      rfl
    · exact fun _ f h => absurd (hr.symm.trans h) (by simp)
  · intro f hadopted hf
    refine ⟨.failed (.invalidPath f), rfl, ?_, ?_, ?_⟩
    · exact fun parked h => absurd (hadopted.symm.trans h) (by simp)
    · exact fun _ r h => absurd (hf.symm.trans h) (by simp)
    · intro _ f' hf'
      rw [← Except.error.inj (hf.symm.trans hf')]
      exact ⟨rfl, hquiet⟩

/-- Whoever obtains elements sends one request at most. -/
theorem Draws.length_requests_le {s s' : Store ρ} {route : ρ} {input : FetchInput}
    {response : PendingResponse} (h : s.Draws route input response s') :
    s'.requests.length ≤ s.requests.length + 1 := by
  cases hadopted : s.adopted? input with
  | some parked =>
    rw [(h.adopts parked hadopted).2]
    omega
  | none =>
    cases hr : s.outgoing input with
    | ok r =>
      have hone := congrArg List.length (h.asks hadopted r hr).2
      rw [List.length_append, List.length_singleton] at hone
      omega
    | error f =>
      rw [(h.fails hadopted f hr).2]
      omega

/-- Two stores that agree in all that matters to parked responses. -/
structure SameParking (s s' : Store ρ) : Prop where
  config : s'.config = s.config
  parked : s'.parked = s.parked
  nextResponse : s'.nextResponse = s.nextResponse
  requests : s'.requests = s.requests

namespace SameParking

theorem refl (s : Store ρ) : SameParking s s := ⟨rfl, rfl, rfl, rfl⟩

theorem trans {s s' s'' : Store ρ} (h : SameParking s s') (h' : SameParking s' s'') :
    SameParking s s'' :=
  ⟨h'.config.trans h.config, h'.parked.trans h.parked, h'.nextResponse.trans h.nextResponse,
    h'.requests.trans h.requests⟩

end SameParking

theorem sameParking_aimReload (s : Store ρ) (route : ρ) (path : String) (params : Option Params) :
    SameParking s (s.aimReload route path params) := by
  rw [aimReload]
  split <;> exact ⟨rfl, rfl, rfl, rfl⟩

theorem sameParking_mergeLive (s : Store ρ) (patch : Promise) :
    SameParking s (s.mergeLive patch) := by
  rw [mergeLive]
  split <;> exact ⟨rfl, rfl, rfl, rfl⟩

theorem sameParking_refetch (s : Store ρ) (route : ρ) (path : String) (params : Option Params) :
    (s.clearEntry.fetch route path params).2.SameParking (s.refetch route path params).2 := by
  rw [refetch]
  obtain ⟨p, fetched⟩ := s.clearEntry.fetch route path params
  have hpatch : fetched.SameParking (fetched.promise fun n => .orEmpty n p).2 :=
    ⟨rfl, rfl, rfl, rfl⟩
  exact hpatch.trans (sameParking_mergeLive _ _)

theorem sameParking_applyPatch (s : Store ρ) (patch : Elements) :
    SameParking s (s.applyPatch patch) := by
  rw [applyPatch]
  split
  next => exact .refl s
  next =>
    -- Listeners are told, which is no request.
    have hnotified : (s.listeners.map (@Effect.notified ρ · patch)).filterMap Effect.request? =
        [] := by
      rw [List.filterMap_map, List.filterMap_eq_nil_iff]
      exact fun _ _ => rfl
    refine SameParking.trans ?_ (sameParking_mergeLive _ _)
    refine ⟨rfl, rfl, rfl, ?_⟩
    show (s.effects ++ _).filterMap Effect.request? = s.effects.filterMap Effect.request?
    rw [List.filterMap_append, hnotified, List.append_nil]

theorem sameParking_finishCall (s : Store ρ) (outcome : Outcome) :
    SameParking s (s.finishCall outcome).2 := by
  cases outcome with
  | error e => exact .refl s
  | ok elements => exact s.sameParking_applyPatch elements.splitValue.2

end Store

/-! ## Visits -/

/-- The response that a promise takes its elements from. -/
def Promise.source? : Promise → Option PendingResponse
  | payload _ response => some response
  | _ => none

/-- The response that is parked. -/
def Parked.response : Parked → PendingResponse
  | seeded response => response
  | prefetched response _ => response

/-- Whether a parked response suits some parameters. -/
def Parked.suits : Parked → Option Params → Bool
  | seeded _, _ => true
  | prefetched _ params, params' => sameParams params params'

/-- An operation that did not find its elements in the live entry. -/
structure Operation (ρ : Type) where
  route : ρ
  /-- What the transformers made of its input. -/
  input : FetchInput
  /-- The elements that it gave. -/
  elements : Promise

/-- Something that comes to the path of a store. -/
inductive Visit (ρ : Type) where
  /-- A response that came with the document. -/
  | seed (path : String) (response : Nat)
  | operation (op : Operation ρ)

namespace Visit

/-- The path that a visit comes to. -/
def path : Visit ρ → String
  | seed path _ => path
  | operation op => op.input.path

/-- The response that a visit brings or takes. -/
def source? : Visit ρ → Option PendingResponse
  | seed _ response => some (.expected response)
  | operation op => op.elements.source?

/-- What a visit leaves parked under its path. -/
def left? : Visit ρ → Option Parked
  | seed _ response => some (.seeded (.expected response))
  | operation op =>
    if op.input.prefetchOnly then op.elements.source?.map (Parked.prefetched · op.input.params)
    else none

/-- The number of a response that came with the document. -/
def seeded? : Visit ρ → Option Nat
  | seed _ response => some response
  | operation _ => none

/-- The number of the response that an operation keeps for itself. -/
def taken? : Visit ρ → Option Nat
  | seed _ _ => none
  | operation op =>
    match op.input.prefetchOnly, op.elements.source? with
    | false, some (.expected n) => some n
    | _, _ => none

theorem source?_of_taken? {v : Visit ρ} {n : Nat} (h : v.taken? = some n) :
    v.source? = some (.expected n) := by
  cases v with
  | seed path response => exact absurd h (by simp [taken?])
  | operation op =>
    rw [taken?] at h
    split at h
    next hsource =>
      cases h
      exact hsource
    next => exact absurd h (by simp)

theorem source?_of_left? {v : Visit ρ} {p : Parked} (h : v.left? = some p) :
    v.source? = some p.response := by
  cases v with
  | seed path response =>
    cases h
    rfl
  | operation op =>
    rw [left?] at h
    split at h
    next =>
      obtain ⟨response, hresponse, rfl⟩ := Option.map_eq_some_iff.mp h
      exact hresponse
    next => exact absurd h (by simp)

/-- A visit that keeps its response leaves nothing. -/
theorem taken?_of_left? {v : Visit ρ} {p : Parked} (h : v.left? = some p) : v.taken? = none := by
  cases v with
  | seed path response => rfl
  | operation op =>
    rw [left?] at h
    split at h
    next honly => rw [taken?, honly]
    next => exact absurd h (by simp)

end Visit

/-- What the `i`-th visit left under a path, with no later visit to it. -/
structure Remains (visits : List (Visit ρ)) (i : Nat) (path : String) (p : Parked) : Prop where
  left : ∃ v, visits[i]? = some v ∧ v.path = path ∧ v.left? = some p
  last : ∀ j v, i < j → visits[j]? = some v → v.path ≠ path

theorem getElem?_concat_eq_some {α : Type} {l : List α} {a b : α} {i : Nat} :
    (l ++ [a])[i]? = some b ↔ l[i]? = some b ∨ (i = l.length ∧ a = b) := by
  rcases Nat.lt_trichotomy i l.length with hlt | rfl | hgt
  · rw [List.getElem?_append_left hlt]
    exact ⟨.inl, fun h => h.resolve_right fun h => Nat.ne_of_lt hlt h.1⟩
  · simp
  · have hnone : (l ++ [a])[i]? = none := List.getElem?_eq_none (by simp; omega)
    have hnone' : l[i]? = none := List.getElem?_eq_none (Nat.le_of_lt hgt)
    rw [hnone, hnone']
    simp
    omega

/-- One more visit comes for what remains under its path, and leaves something else. -/
theorem remains_concat {visits : List (Visit ρ)} {v : Visit ρ} {i : Nat} {path : String}
    {p : Parked} : Remains (visits ++ [v]) i path p ↔
      (v.path = path ∧ i = visits.length ∧ v.left? = some p) ∨
        (v.path ≠ path ∧ Remains visits i path p) := by
  constructor
  · rintro ⟨⟨w, hw, hpath, hleft⟩, hlast⟩
    rcases getElem?_concat_eq_some.mp hw with hold | ⟨hi, rfl⟩
    · have hlt : i < visits.length := (List.getElem?_eq_some_iff.mp hold).1
      exact .inr ⟨hlast _ v hlt (getElem?_concat_eq_some.mpr (.inr ⟨rfl, rfl⟩)),
        ⟨w, hold, hpath, hleft⟩,
        fun j u hj hu => hlast j u hj (getElem?_concat_eq_some.mpr (.inl hu))⟩
    · exact .inl ⟨hpath, hi, hleft⟩
  · rintro (⟨hpath, rfl, hleft⟩ | ⟨hpath, ⟨w, hw, hwpath, hleft⟩, hlast⟩)
    · refine ⟨⟨v, getElem?_concat_eq_some.mpr (.inr ⟨rfl, rfl⟩), hpath, hleft⟩, ?_⟩
      intro j u hj hu
      rcases getElem?_concat_eq_some.mp hu with hold | ⟨rfl, _⟩
      · exact absurd (List.getElem?_eq_some_iff.mp hold).1 (Nat.not_lt_of_lt hj)
      · exact absurd hj (Nat.lt_irrefl _)
    · refine ⟨⟨w, getElem?_concat_eq_some.mpr (.inl hw), hwpath, hleft⟩, ?_⟩
      intro j u hj hu
      rcases getElem?_concat_eq_some.mp hu with hold | ⟨_, rfl⟩
      · exact hlast j u hj hold
      · exact hpath

/-- What an operation adopts: what a visit left parked under its path, if it suits the operation and
the operation is not a prefetch. -/
structure Operation.Adopts (op : Operation ρ) (visits : List (Visit ρ)) (i : Nat) (p : Parked) :
    Prop where
  remains : Remains visits i op.input.path p
  kept : op.input.prefetchOnly = false
  suits : p.suits op.input.params = true

/-- How an operation comes by its elements, with the requests that had gone out before and those
that have gone out afterwards. -/
structure Operation.Served (config : ClientConfig) (visits : List (Visit ρ)) (op : Operation ρ)
    (before after : List (Nat × ρ × Request)) : Prop where
  adopts : ∀ i p, op.Adopts visits i p → op.elements.source? = some p.response ∧ after = before
  asks : (∀ i p, ¬op.Adopts visits i p) → ∀ r,
    Request.ofPath config op.input.path op.input.params = .ok r →
      ∃ n, op.elements.source? = some (.expected n) ∧ after = before ++ [(n, op.route, r)]
  fails : (∀ i p, ¬op.Adopts visits i p) → ∀ f,
    Request.ofPath config op.input.path op.input.params = .error f →
      op.elements.source? = some (.failed (.invalidPath f)) ∧ after = before

/-- What a visit left is adopted by one operation at most. -/
theorem adopts_inj {visits : List (Visit ρ)} {i j j' : Nat} {op op' : Operation ρ} {p p' : Parked}
    (hj : visits[j]? = some (.operation op)) (hj' : visits[j']? = some (.operation op'))
    (h : op.Adopts (visits.take j) i p) (h' : op'.Adopts (visits.take j') i p') : j = j' := by
  -- The earlier of the two would stand between the later one and the visit it adopts from.
  have hnot : ∀ {j j' : Nat} {op op' : Operation ρ} {p p' : Parked},
      visits[j]? = some (.operation op) → op.Adopts (visits.take j) i p →
      op'.Adopts (visits.take j') i p' → ¬j < j' := by
    intro j j' op op' p p' hj h h' hlt
    obtain ⟨v, hv, hpath, _⟩ := h.remains.left
    obtain ⟨v', hv', hpath', _⟩ := h'.remains.left
    rw [List.getElem?_take, Option.ite_none_right_eq_some] at hv hv'
    obtain rfl : v = v' := Option.some.inj (hv.2.symm.trans hv'.2)
    refine h'.remains.last j (.operation op) hv.1 ?_ (hpath.symm.trans hpath')
    rw [List.getElem?_take_of_lt hlt]
    exact hj
  exact Nat.le_antisymm (Nat.le_of_not_lt (hnot hj' h' h)) (Nat.le_of_not_lt (hnot hj h h'))

namespace Session

/-- The operation of an action, if it needs elements that the live entry does not have. A prefetch
is not carried out while one with the same parameters is parked. -/
def operation? (s : Session ρ) : Action ρ → Option (Operation ρ)
  | .fetch route path params =>
    match s.store.liveEntry? path params with
    | some _ => none
    | none =>
      some ⟨route, s.store.reached ⟨path, params, false⟩, (s.store.fetch route path params).1⟩
  | .prefetch route path params =>
    if s.store.isPrefetched path params then none
    else
      some ⟨route, s.store.reached ⟨path, params, true⟩,
        (s.store.obtain route ⟨path, params, true⟩).1⟩
  | .call route id args =>
    match RscPath.ofFunctionId id, s.store.call route id args with
    | .ok path, .ok (elements, _) =>
      some ⟨route, s.store.reached ⟨path, some (.ofArguments args), false⟩, elements⟩
    | _, _ => none
  | .mount route path params =>
    match s.store.liveEntry? path params with
    | some _ => none
    | none =>
      some ⟨route, s.store.reached ⟨path, params, false⟩, (s.store.mount route path params).1⟩
  | .refetch route path params =>
    some ⟨route, s.store.reached ⟨path, params, false⟩, (s.store.refetch route path params).1⟩
  | .reload =>
    match s.store.reloadTarget, s.store.reload with
    | some t, some (elements, _) =>
      some ⟨t.route, s.store.reached ⟨t.path, t.params, false⟩, elements⟩
    | _, _ => none
  | _ => none

/-- The visit of an action. -/
def visit? (s : Session ρ) : Action ρ → Option (Visit ρ)
  | .seed path => some (.seed path (s.store.seed path).1)
  | a => (s.operation? a).map .operation

theorem visit?_eq_operation {s : Session ρ} {a : Action ρ} {op : Operation ρ} :
    s.visit? a = some (.operation op) ↔ s.operation? a = some op := by
  cases a <;> simp [visit?, operation?]

/-- The visits of a run, in order. -/
def visits (s : Session ρ) : List (Action ρ) → List (Visit ρ)
  | [] => []
  | a :: actions => (s.visit? a).toList ++ (s.act a).visits actions

end Session

/-! ## One step -/

/-- The ways in which something that happens to a session bears on parked responses: not at all; a
response comes with the document; or an operation obtains elements from a store that has the same
responses parked. -/
inductive Session.Turn (s : Session ρ) (a : Action ρ) : Prop where
  | nothing (hvisit : s.visit? a = none) (hafter : s.store.SameParking (s.act a).store)
  | seed (path : String) (hvisit : s.visit? a = some (.seed path s.store.nextResponse))
      (hafter : (s.act a).store = (s.store.seed path).2)
  | operation (route : ρ) (input : FetchInput) (before : Store ρ)
      (hbefore : s.store.SameParking before)
      (hvisit : s.visit? a =
        some (.operation ⟨route, before.reached input, (before.obtain route input).1⟩))
      (hafter : (before.obtain route input).2.SameParking (s.act a).store)

theorem Store.aimReload_transformers (s : Store ρ) (route : ρ) (path : String)
    (params : Option Params) : (s.aimReload route path params).transformers = s.transformers := by
  rw [aimReload]
  split <;> rfl

/-- A fetch is an operation unless the live entry has its elements. -/
theorem Store.fetch_turn (s : Store ρ) (route : ρ) (path : String) (params : Option Params) :
    (∃ p, s.liveEntry? path params = some p ∧
      s.SameParking (s.fetch route path params).2) ∨
    (none = s.liveEntry? path params ∧ ∃ before : Store ρ, s.SameParking before ∧
      before.reached ⟨path, params, false⟩ = s.reached ⟨path, params, false⟩ ∧
      (s.fetch route path params).1 = (before.obtain route ⟨path, params, false⟩).1 ∧
      (before.obtain route ⟨path, params, false⟩).2.SameParking (s.fetch route path params).2) := by
  have haim := s.sameParking_aimReload route path params
  cases h : s.liveEntry? path params with
  | some p =>
    rw [fetch_of_hit h]
    exact .inl ⟨p, rfl, haim⟩
  | none =>
    rw [fetch_of_miss h]
    refine .inr ⟨rfl, _, haim, ?_, rfl, ⟨rfl, rfl, rfl, rfl⟩⟩
    rw [reached, reached, aimReload_transformers]

/-- Without a live entry a fetch is an operation. -/
theorem Store.clearEntry_fetch_turn (s : Store ρ) (route : ρ) (path : String)
    (params : Option Params) : ∃ before : Store ρ, s.SameParking before ∧
      before.reached ⟨path, params, false⟩ = s.reached ⟨path, params, false⟩ ∧
      (s.clearEntry.fetch route path params).1 =
        (before.obtain route ⟨path, params, false⟩).1 ∧
      (before.obtain route ⟨path, params, false⟩).2.SameParking
        (s.clearEntry.fetch route path params).2 := by
  have hclear : s.SameParking s.clearEntry := ⟨rfl, rfl, rfl, rfl⟩
  obtain ⟨p, hhit, _⟩ | ⟨_, before, hbefore, hreached, hrest⟩ :=
    s.clearEntry.fetch_turn route path params
  · rw [live_clearEntry] at hhit
    exact absurd hhit (by simp)
  · exact ⟨before, hclear.trans hbefore, hreached, hrest⟩

/-- Everything that happens to a session is of one of the three kinds. -/
theorem Session.turn (s : Session ρ) (a : Action ρ) : s.Turn a := by
  cases a with
  | fetch route path params =>
    obtain ⟨p, hhit, hsame⟩ | ⟨hmiss, before, hbefore, hreached, hpromise, hafter⟩ :=
      s.store.fetch_turn route path params
    · exact .nothing (by simp [visit?, operation?, hhit]) hsame
    · refine .operation route ⟨path, params, false⟩ before hbefore ?_ hafter
      simp only [visit?, operation?, ← hmiss, hreached, hpromise, Option.map_some]
  | mount route path params =>
    obtain ⟨p, hhit, hsame⟩ | ⟨hmiss, before, hbefore, hreached, hpromise, hafter⟩ :=
      s.store.fetch_turn route path params
    · exact .nothing (by simp [visit?, operation?, hhit]) (hsame.trans ⟨rfl, rfl, rfl, rfl⟩)
    · refine .operation route ⟨path, params, false⟩ before hbefore ?_
        (hafter.trans ⟨rfl, rfl, rfl, rfl⟩)
      simp only [visit?, operation?, ← hmiss, hreached, Store.mount, hpromise, Option.map_some]
  | refetch route path params =>
    obtain ⟨before, hbefore, hreached, hpromise, hafter⟩ :=
      s.store.clearEntry_fetch_turn route path params
    refine .operation route ⟨path, params, false⟩ before hbefore ?_ (hafter.trans ?_)
    · simp only [visit?, operation?, Store.refetch, hpromise, hreached, Option.map_some]
    · exact s.store.sameParking_refetch route path params
  | reload =>
    cases htarget : s.store.reloadTarget with
    | none =>
      refine .nothing (by simp [visit?, operation?, htarget]) ?_
      rw [Session.act, Store.reload, htarget]
      exact .refl s.store
    | some t =>
      obtain ⟨before, hbefore, hreached, hpromise, hafter⟩ :=
        s.store.clearEntry_fetch_turn t.route t.path t.params
      refine .operation t.route ⟨t.path, t.params, false⟩ before hbefore ?_ (hafter.trans ?_)
      · simp only [visit?, operation?, Store.reload, htarget, hpromise, hreached, Option.map_some]
      · rw [Session.act, Store.reload, htarget]
        exact ⟨rfl, rfl, rfl, rfl⟩
  | prefetch route path params =>
    cases hparked : s.store.isPrefetched path params with
    | true =>
      refine .nothing (by simp [visit?, operation?, hparked]) ?_
      rw [Session.act, Store.prefetch, hparked]
      exact .refl s.store
    | false =>
      refine .operation route ⟨path, params, true⟩ s.store (.refl _) ?_ ?_
      · simp [visit?, operation?, hparked]
      · rw [Session.act, Store.prefetch, hparked]
        exact .refl _
  | call route id args =>
    cases hid : RscPath.ofFunctionId id with
    | error f =>
      refine .nothing (by simp [visit?, operation?, hid]) ?_
      rw [Session.act, Session.call, Store.call, hid]
      exact .refl _
    | ok path =>
      refine .operation route ⟨path, some (.ofArguments args), false⟩ s.store (.refl _) ?_ ?_
      · simp [visit?, operation?, Store.call, hid]
      · rw [Session.act, Session.call, Store.call, hid]
        exact .refl _
  | seed path => exact .seed path rfl rfl
  | finish call =>
    refine .nothing rfl ?_
    rw [Session.act, Session.finish]
    split
    next => exact .refl _
    next => exact s.store.sameParking_finishCall _
  | deliver response delivery =>
    refine .nothing rfl ?_
    rw [Session.act, Session.deliver]
    split <;> exact .refl _
  | clearEntry => exact .nothing rfl ⟨rfl, rfl, rfl, rfl⟩
  | setLive => exact .nothing rfl ⟨rfl, rfl, rfl, rfl⟩
  | addTransformer => exact .nothing rfl ⟨rfl, rfl, rfl, rfl⟩
  | addListener => exact .nothing rfl ⟨rfl, rfl, rfl, rfl⟩
  | unregister => exact .nothing rfl ⟨rfl, rfl, rfl, rfl⟩

end ServerBoundary.Client
