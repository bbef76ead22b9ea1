import ServerBoundary.Client.Store

/-!
# Obtaining elements

Every operation that needs elements which the live entry does not have obtains them with the input
that the transformers make of its own. There are three ways for this to go, and each has its
equation: a parked response is adopted, a request is sent, or the path has no encoding.
-/

namespace ServerBoundary.Client

namespace Store

variable {ρ : Type}

/-- The input that the transformers make of an input. -/
def reached (s : Store ρ) (input : FetchInput) : FetchInput := transformed s.transformers input

/-- The response that an input adopts once it has passed the transformers, if there is one. -/
def adopted? (s : Store ρ) (input : FetchInput) : Option PendingResponse :=
  adoptable (s.reached input) (s.parked.get? (s.reached input).path)

/-- The request that is sent for an input once it has passed the transformers. -/
def outgoing (s : Store ρ) (input : FetchInput) : Except PathFault Request :=
  Request.ofPath s.config (s.reached input).path (s.reached input).params

/-- What is parked once an input has taken what was parked under its path and, if it is one of a
prefetch, has left its own response there. -/
def parkedAfter (s : Store ρ) (input : FetchInput) (response : PendingResponse) :
    OrderedMap Parked :=
  if (s.reached input).prefetchOnly then
    (s.parked.erase (s.reached input).path).insert (s.reached input).path
      (.prefetched response (s.reached input).params)
  else s.parked.erase (s.reached input).path

/-- A prefetch adopts nothing. -/
theorem adoptable_prefetchOnly {input : FetchInput} (h : input.prefetchOnly = true)
    (parked : Option Parked) : adoptable input parked = none := by
  unfold adoptable
  split <;> simp [h]

/-- The input adopts a parked response. -/
theorem obtain_of_adopted {s : Store ρ} {input : FetchInput} {response : PendingResponse}
    (h : s.adopted? input = some response) (route : ρ) :
    s.obtain route input = (.payload s.nextPromise response,
      { s with
        effects := s.effects ++ transformEffects s.transformers input
        parked := s.parkedAfter input response
        nextPromise := s.nextPromise + 1 }) := by
  have honly : (transformed s.transformers input).prefetchOnly = false := by
    cases ho : (transformed s.transformers input).prefetchOnly with
    | false => rfl
    | true =>
      rw [adopted?, reached, adoptable_prefetchOnly ho] at h
      exact absurd h (by simp)
  rw [adopted?, reached] at h
  rw [obtain, parkedAfter, reached]
  dsimp only
  rw [h, honly]
  rfl

/-- The input adopts nothing, and a request is sent. -/
theorem obtain_of_outgoing {s : Store ρ} {input : FetchInput} {r : Request}
    (h : s.adopted? input = none) (hr : s.outgoing input = .ok r) (route : ρ) :
    s.obtain route input = (.payload s.nextPromise (.expected s.nextResponse),
      { s with
        effects := s.effects ++ transformEffects s.transformers input ++
          [.requested s.nextResponse route r]
        parked := s.parkedAfter input (.expected s.nextResponse)
        nextResponse := s.nextResponse + 1
        nextPromise := s.nextPromise + 1 }) := by
  rw [adopted?, reached] at h
  rw [outgoing, reached] at hr
  rw [obtain, parkedAfter, reached]
  dsimp only
  rw [h]
  dsimp only
  rw [request, hr]
  cases (transformed s.transformers input).prefetchOnly <;> rfl

/-- The input adopts nothing, and its path has no encoding. -/
theorem obtain_of_fault {s : Store ρ} {input : FetchInput} {f : PathFault}
    (h : s.adopted? input = none) (hf : s.outgoing input = .error f) (route : ρ) :
    s.obtain route input = (.payload s.nextPromise (.failed (.invalidPath f)),
      { s with
        effects := s.effects ++ transformEffects s.transformers input
        parked := s.parkedAfter input (.failed (.invalidPath f))
        nextPromise := s.nextPromise + 1 }) := by
  rw [adopted?, reached] at h
  rw [outgoing, reached] at hf
  rw [obtain, parkedAfter, reached]
  dsimp only
  rw [h]
  dsimp only
  rw [request, hf]
  cases (transformed s.transformers input).prefetchOnly <;> rfl

/-- What holds of an outcome of each of the three kinds holds of what is obtained. -/
theorem obtain_cases {s : Store ρ} {route : ρ} {input : FetchInput}
    {P : Promise × Store ρ → Prop}
    (hadopted : ∀ response, s.adopted? input = some response →
      P (.payload s.nextPromise response,
        { s with
          effects := s.effects ++ transformEffects s.transformers input
          parked := s.parkedAfter input response
          nextPromise := s.nextPromise + 1 }))
    (hrequested : ∀ r, s.adopted? input = none → s.outgoing input = .ok r →
      P (.payload s.nextPromise (.expected s.nextResponse),
        { s with
          effects := s.effects ++ transformEffects s.transformers input ++
            [.requested s.nextResponse route r]
          parked := s.parkedAfter input (.expected s.nextResponse)
          nextResponse := s.nextResponse + 1
          nextPromise := s.nextPromise + 1 }))
    (hfault : ∀ f, s.adopted? input = none → s.outgoing input = .error f →
      P (.payload s.nextPromise (.failed (.invalidPath f)),
        { s with
          effects := s.effects ++ transformEffects s.transformers input
          parked := s.parkedAfter input (.failed (.invalidPath f))
          nextPromise := s.nextPromise + 1 })) :
    P (s.obtain route input) := by
  cases ha : s.adopted? input with
  | some response =>
    rw [obtain_of_adopted ha]
    exact hadopted response ha
  | none =>
    cases hr : s.outgoing input with
    | ok r =>
      rw [obtain_of_outgoing ha hr]
      exact hrequested r ha hr
    | error f =>
      rw [obtain_of_fault ha hr]
      exact hfault f ha hr

/-- A fetch gives the elements of the live entry, or obtains new ones. -/
theorem fetch_of_hit {s : Store ρ} {path : String} {params : Option Params} {p : Promise}
    (h : s.liveEntry? path params = some p) (route : ρ) :
    s.fetch route path params = (p, s.aimReload route path params) := by
  have haim : Store.liveEntry? (s.aimReload route path params) path params = some p := by
    rw [← h, aimReload]
    split <;> rfl
  rw [fetch]
  dsimp only
  rw [haim]

theorem fetch_of_miss {s : Store ρ} {path : String} {params : Option Params}
    (h : s.liveEntry? path params = none) (route : ρ) :
    s.fetch route path params =
      (((s.aimReload route path params).obtain route ⟨path, params, false⟩).1,
        { ((s.aimReload route path params).obtain route ⟨path, params, false⟩).2 with
          entry := some ⟨path, params,
            ((s.aimReload route path params).obtain route ⟨path, params, false⟩).1⟩ }) := by
  have haim : Store.liveEntry? (s.aimReload route path params) path params = none := by
    rw [← h, aimReload]
    split <;> rfl
  rw [fetch]
  dsimp only
  rw [haim]

/-- Without a live entry every fetch is a miss. -/
theorem live_clearEntry (s : Store ρ) (path : String) (params : Option Params) :
    s.clearEntry.liveEntry? path params = none := rfl

end Store

end ServerBoundary.Client
