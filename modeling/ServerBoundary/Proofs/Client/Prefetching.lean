import ServerBoundary.Proofs.Client.LiveEntry
import ServerBoundary.Proofs.Client.Parking

/-!
# Prefetches that are repeated

A prefetch is not repeated while one with equal parameters is parked under its path. The path and
the parameters that are looked up are those of the caller; what is parked stands under the path and
with the parameters that the transformers make of them.

> `prefetch_is_done_once`: where the transformers leave a path and its parameters as they are, a
> prefetch is not repeated until something else comes to the path, and a fetch in the place of the
> repetition adopts what is parked.

> `rewritten_prefetch_is_repeated`: where they rewrite the path, a prefetch is sent again, and one
> that is not sent may leave nothing that a fetch would adopt.

`leaves_of_done_once` says that the condition on the transformers is exact.
-/

namespace ServerBoundary.Client

variable {ρ : Type}

/-- A transformer that neither reads nor changes whether its input is one of a prefetch. -/
def Transformer.IgnoresPurpose (t : Transformer) : Prop :=
  ∀ input only, t { input with prefetchOnly := only } = { t input with prefetchOnly := only }

namespace Store

/-! ## What the transformers make of a prefetch -/

theorem transformed_setPurpose {ts : List (Nat × Transformer)}
    (h : ∀ t ∈ ts, t.2.IgnoresPurpose) (input : FetchInput) (only : Bool) :
    transformed ts { input with prefetchOnly := only } =
      { transformed ts input with prefetchOnly := only } := by
  induction ts generalizing input with
  | nil => rfl
  | cons t ts ih =>
    obtain ⟨n, t⟩ := t
    rw [List.forall_mem_cons] at h
    have hfirst : t { input with prefetchOnly := only } =
        { t input with prefetchOnly := only } := h.1 input only
    rw [transformed, transformed, hfirst]
    exact ih h.2 (t input)

/-- The input of a prefetch is still one when it has passed the transformers. -/
theorem reached_prefetchOnly {s : Store ρ} (h : ∀ t ∈ s.transformers, t.2.IgnoresPurpose)
    (path : String) (params : Option Params) :
    (s.reached ⟨path, params, true⟩).prefetchOnly = true := by
  have hset := transformed_setPurpose h ⟨path, params, true⟩ true
  rw [reached]
  exact congrArg FetchInput.prefetchOnly hset

/-- A fetch reaches the path and the parameters that a prefetch reaches. -/
theorem reached_fetch {s : Store ρ} (h : ∀ t ∈ s.transformers, t.2.IgnoresPurpose)
    (path : String) (params : Option Params) :
    s.reached ⟨path, params, false⟩ =
      { s.reached ⟨path, params, true⟩ with prefetchOnly := false } :=
  transformed_setPurpose h ⟨path, params, true⟩ false

/-- The transformers leave a path and its parameters as they are. -/
structure Leaves (s : Store ρ) (path : String) (params : Option Params) : Prop where
  path_eq : (s.reached ⟨path, params, true⟩).path = path
  same : sameParams params (s.reached ⟨path, params, true⟩).params = true

/-! ## What a prefetch leaves -/

theorem isPrefetched_iff {s : Store ρ} {path : String} {params : Option Params} :
    s.isPrefetched path params = true ↔ ∃ response parkedParams,
      s.parked.get? path = some (.prefetched response parkedParams) ∧
        sameParams parkedParams params = true := by
  unfold isPrefetched
  cases s.parked.get? path with
  | none => simp
  | some p => cases p <;> simp

/-- A prefetch that is not repeated changes nothing at all. -/
theorem prefetch_of_isPrefetched {s : Store ρ} {path : String} {params : Option Params}
    (h : s.isPrefetched path params = true) (route : ρ) : s.prefetch route path params = s := by
  rw [prefetch, if_pos h]

theorem prefetch_of_not_isPrefetched {s : Store ρ} {path : String} {params : Option Params}
    (h : s.isPrefetched path params = false) (route : ρ) :
    s.prefetch route path params = (s.obtain route ⟨path, params, true⟩).2 := by
  rw [prefetch, h, if_neg (by simp)]

theorem obtain_parked (s : Store ρ) (route : ρ) (input : FetchInput) :
    (∃ response, (s.obtain route input).2.parked = s.parkedAfter input response) ∧
      (s.obtain route input).2.nextPromise = s.nextPromise + 1 :=
  obtain_cases (P := fun o => (∃ response, o.2.parked = s.parkedAfter input response) ∧
      o.2.nextPromise = s.nextPromise + 1)
    (fun response _ => ⟨⟨response, rfl⟩, rfl⟩) (fun _ _ _ => ⟨⟨_, rfl⟩, rfl⟩)
    (fun _ _ _ => ⟨⟨_, rfl⟩, rfl⟩)

/-- **What a prefetch leaves** is found by the same prefetch exactly if it was parked under the path
and with the parameters of the caller. -/
theorem isPrefetched_prefetch_iff {s : Store ρ} {path : String} {params : Option Params}
    (hignores : ∀ t ∈ s.transformers, t.2.IgnoresPurpose)
    (h : s.isPrefetched path params = false) (route : ρ) :
    (s.prefetch route path params).isPrefetched path params = true ↔
      (s.reached ⟨path, params, true⟩).path = path ∧
        sameParams (s.reached ⟨path, params, true⟩).params params = true := by
  obtain ⟨⟨response, hparked⟩, -⟩ := s.obtain_parked route ⟨path, params, true⟩
  have hget := s.get?_parkedAfter ⟨path, params, true⟩ response path
  rw [prefetch_of_not_isPrefetched h, isPrefetched, hparked, hget,
    if_pos (reached_prefetchOnly hignores path params)]
  by_cases hpath : (s.reached ⟨path, params, true⟩).path = path
  · rw [if_pos hpath]
    exact ⟨fun hsame => ⟨hpath, hsame⟩, fun hboth => hboth.2⟩
  · -- The path still holds what it held, which the first prefetch did not find.
    rw [if_neg hpath]
    rw [isPrefetched] at h
    constructor
    · intro hfound
      rw [h] at hfound
      exact absurd hfound (by simp)
    · intro hboth
      exact absurd hboth.1 hpath

theorem isPrefetched_prefetch {s : Store ρ} {path : String} {params : Option Params}
    (hignores : ∀ t ∈ s.transformers, t.2.IgnoresPurpose) (hparams : distinctParams params = true)
    (hleaves : s.Leaves path params) (route : ρ) :
    (s.prefetch route path params).isPrefetched path params = true := by
  by_cases h : s.isPrefetched path params = true
  · rw [prefetch_of_isPrefetched h]
    exact h
  · have hfalse : s.isPrefetched path params = false := by simpa using h
    have hsame := sameParams_symm hparams hleaves.same
    exact (isPrefetched_prefetch_iff hignores hfalse route).mpr ⟨hleaves.path_eq, hsame⟩

/-- A prefetch sends one request at most. -/
theorem length_requests_prefetch (s : Store ρ) (route : ρ) (path : String)
    (params : Option Params) :
    (s.prefetch route path params).requests.length ≤ s.requests.length + 1 := by
  rw [prefetch]
  split
  next => omega
  next =>
    obtain ⟨response, -, hdraws⟩ := s.draws_obtain route ⟨path, params, true⟩
    exact hdraws.length_requests_le

/-- A transformer that changes the path or the parameters of a prefetch makes the next one go out
again: where a prefetch is done once, the transformers leave its path and its parameters. -/
theorem leaves_of_done_once {s : Store ρ} {path : String} {params : Option Params}
    (hignores : ∀ t ∈ s.transformers, t.2.IgnoresPurpose)
    (hreached : distinctParams (s.reached ⟨path, params, true⟩).params = true)
    (h : s.isPrefetched path params = false) {first second : ρ}
    (honce : (s.prefetch first path params).prefetch second path params =
      s.prefetch first path params) : s.Leaves path params := by
  have hfound : (s.prefetch first path params).isPrefetched path params = true := by
    by_contra hnot
    -- Elements that are obtained take a new number.
    have hnext := ((s.prefetch first path params).obtain_parked second ⟨path, params, true⟩).2
    rw [← prefetch_of_not_isPrefetched (by simpa using hnot), honce] at hnext
    omega
  obtain ⟨hpath, hsame⟩ := (isPrefetched_prefetch_iff hignores h first).mp hfound
  exact ⟨hpath, sameParams_symm hreached hsame⟩

/-! ## Fetching what was prefetched -/

/-- What is parked under a path with equal parameters is what a fetch adopts, where the transformers
leave them as they are. -/
theorem adopted?_of_isPrefetched {s : Store ρ} {path : String} {params : Option Params}
    (hignores : ∀ t ∈ s.transformers, t.2.IgnoresPurpose) (hleaves : s.Leaves path params)
    {response : PendingResponse} {parkedParams : Option Params}
    (hparked : s.parked.get? path = some (.prefetched response parkedParams))
    (hsame : sameParams parkedParams params = true) :
    s.adopted? ⟨path, params, false⟩ = some response := by
  have hpath : (s.reached ⟨path, params, false⟩).path = path := by
    rw [reached_fetch hignores]
    exact hleaves.path_eq
  have hsuits : sameParams parkedParams (s.reached ⟨path, params, false⟩).params = true := by
    rw [reached_fetch hignores]
    exact sameParams_trans hsame hleaves.same
  have hkept : (s.reached ⟨path, params, false⟩).prefetchOnly = false := by
    rw [reached_fetch hignores]
  rw [adopted?, adoptable_eq_some, hpath]
  exact ⟨_, hparked, hkept, hsuits, rfl⟩

end Store

namespace Session

/-! ## Over a run -/

/-- What is parked under a path stays there as long as nothing comes to the path. -/
theorem get?_parked_act {s : Session ρ} {a : Action ρ} {path : String}
    (h : ∀ v, s.visit? a = some v → v.path ≠ path) :
    (s.act a).store.parked.get? path = s.store.parked.get? path := by
  cases s.turn a with
  | nothing _ hafter => rw [hafter.parked]
  | seed path' hvisit hafter =>
    have hne : path' ≠ path := h _ hvisit
    rw [hafter]
    show (s.store.parked.insert path' _).get? path = _
    rw [OrderedMap.get?_insert, if_neg hne]
  | operation route input before hbefore hvisit hafter =>
    have hne : (before.reached input).path ≠ path := h _ hvisit
    obtain ⟨⟨response, hparked⟩, -⟩ := before.obtain_parked route input
    rw [hafter.parked, hparked, Store.get?_parkedAfter, if_neg hne, hbefore.parked]

theorem get?_parked_run {s : Session ρ} {actions : List (Action ρ)} {path : String}
    (h : ∀ v ∈ s.visits actions, v.path ≠ path) :
    (s.run actions).store.parked.get? path = s.store.parked.get? path := by
  induction actions generalizing s with
  | nil => rfl
  | cons a actions ih =>
    rw [visits, List.forall_mem_append] at h
    have hfirst : (s.act a).store.parked.get? path = s.store.parked.get? path :=
      get?_parked_act fun v hv => h.1 v (by simp [hv])
    rw [run_cons, ih h.2, hfirst]

/-- What becomes of a prefetch that is asked for again, and of a fetch in its place. -/
structure DoneOnce (s : Session ρ) (path : String) (params : Option Params) : Prop where
  /-- After a prefetch the same prefetch changes nothing, at once or later, until something else
  comes to the path. -/
  again : ∀ first second between,
    (∀ v ∈ (s.act (.prefetch first path params)).visits between, v.path ≠ path) →
      ((s.act (.prefetch first path params)).run between).act (.prefetch second path params) =
        (s.act (.prefetch first path params)).run between
  /-- Both together send one request at most. -/
  requests : ∀ first second,
    ((s.act (.prefetch first path params)).act (.prefetch second path params)).store.requests.length
      ≤ s.store.requests.length + 1
  /-- A prefetch that is not carried out is one for which a response is parked. A fetch without a
  live entry would adopt this response and send nothing. -/
  adopts : s.store.isPrefetched path params = true → s.store.liveEntry? path params = none →
    ∃ response parkedParams,
      s.store.parked.get? path = some (.prefetched response parkedParams) ∧
      ∀ route, (s.store.fetch route path params).1 = .payload s.store.nextPromise response ∧
        (s.act (.fetch route path params)).store.requests = s.store.requests

/-- **A prefetch is done once,** whatever happened before, if the transformers that are registered
neither care what an input is for nor change its path and its parameters. -/
theorem prefetch_is_done_once (config : ClientConfig) {before : List (Action ρ)} {path : String}
    {params : Option Params} (hparams : distinctParams params = true)
    (hignores : ∀ t ∈ ((start ρ config).run before).store.transformers, t.2.IgnoresPurpose)
    (hleaves : ((start ρ config).run before).store.Leaves path params) :
    ((start ρ config).run before).DoneOnce path params where
  again first second between hbetween := by
    have hfound := Store.isPrefetched_prefetch hignores hparams hleaves first
    have hstill : ((((start ρ config).run before).act (.prefetch first path params)).run
        between).store.isPrefetched path params = true := by
      rw [Store.isPrefetched, get?_parked_run hbetween]
      exact hfound
    rw [act, Store.prefetch_of_isPrefetched hstill]
  requests first second := by
    have hfound := Store.isPrefetched_prefetch hignores hparams hleaves first
    have hsecond := Store.prefetch_of_isPrefetched hfound second
    show (Store.prefetch _ second path params).requests.length ≤ _
    rw [act, hsecond]
    exact Store.length_requests_prefetch _ first path params
  adopts hprefetched hmiss := by
    obtain ⟨response, parkedParams, hparked, hsame⟩ := Store.isPrefetched_iff.mp hprefetched
    refine ⟨response, parkedParams, hparked, fun route => ?_⟩
    have hadopted := Store.adopted?_of_isPrefetched hignores hleaves hparked hsame
    exact (Store.renews_of_miss hmiss route).adopts response hadopted

/-- A transformer that asks for every page but one in another language. -/
def translated : Transformer := fun input =>
  { input with path := if input.path == "a" then "a" else input.path ++ "/en" }

theorem ignoresPurpose_translated (t : Nat × Transformer)
    (h : t ∈ ((start Unit {}).run [.addTransformer translated]).store.transformers) :
    t.2.IgnoresPurpose := by
  rw [List.mem_singleton.mp h]
  exact fun _ _ => rfl

/-- `a` is left as it is, so that it is prefetched once, also when `b` is prefetched in between. -/
theorem untranslated_prefetch_is_done_once :
    distinctParams keyed = true ∧
    (∀ t ∈ ((start Unit {}).run [.addTransformer translated]).store.transformers,
      t.2.IgnoresPurpose) ∧
    ((start Unit {}).run [.addTransformer translated]).store.Leaves "a" keyed ∧
    ((start Unit {}).run [.addTransformer translated]).DoneOnce "a" keyed ∧
    ((start Unit {}).run [.addTransformer translated, .prefetch () "a" keyed, .prefetch () "b" none,
      .prefetch () "a" keyed]).store.requests.map Prod.fst = [0, 1] := by
  have hkeyed : distinctParams keyed = true := by decide
  have hleaves : ((start Unit {}).run [.addTransformer translated]).store.Leaves "a" keyed :=
    ⟨rfl, sameParams_refl hkeyed⟩
  have honce := prefetch_is_done_once {} hkeyed ignoresPurpose_translated hleaves
  have hagain := honce.again () () [.prefetch () "b" none] (by decide)
  refine ⟨hkeyed, ignoresPurpose_translated, hleaves, honce, ?_⟩
  exact (congrArg (fun s : Session Unit => s.store.requests.map Prod.fst) hagain).trans rfl

/-- `b` is asked for in another language. It is prefetched twice, and a prefetch from the time
before the transformer keeps a new one from being sent although no fetch would adopt it. -/
theorem rewritten_prefetch_is_repeated :
    (∀ t ∈ ((start Unit {}).run [.addTransformer translated]).store.transformers,
      t.2.IgnoresPurpose) ∧
    ((start Unit {}).run [.addTransformer translated, .prefetch () "b" none,
      .prefetch () "b" none]).store.requests.map Prod.fst = [0, 1] ∧
    let s := (start Unit {}).run [.prefetch () "b" none, .addTransformer translated]
    s.store.isPrefetched "b" none = true ∧ s.store.liveEntry? "b" none = none ∧
    (s.act (.prefetch () "b" none)).store.requests = s.store.requests ∧
    (s.act (.fetch () "b" none)).store.requests.map Prod.fst = [0, 1] :=
  ⟨ignoresPurpose_translated, rfl, rfl, rfl, rfl, rfl⟩

end Session

end ServerBoundary.Client
