import ServerBoundary.Proofs.Client.Visits

/-!
# Parked responses over a run

> `parked_responses_are_adopted_once`: what is parked under a path is what the last visit to it
> left; an operation adopts it exactly if it suits, and otherwise sends one request; and no response
> is taken by two operations.

The statement speaks of visits alone. That it holds after every run is an invariant of the store and
its visits, `Accounted`, which one visit preserves (`Accounted.visit`) because the response that it
takes is either new or was parked nowhere else.
-/

namespace ServerBoundary.Client

variable {ρ : Type}

/-! ## Runs -/

/-- The numbers of the responses that a store asked for or was given. -/
def issuedNumbers (s : Store ρ) (visits : List (Visit ρ)) : List Nat :=
  s.requests.map Prod.fst ++ visits.filterMap Visit.seeded?

/-- The visits account for what a store has parked: under each path what the last visit to it left.
No response was issued twice or taken twice, and one that is parked was not taken and is parked only
once. -/
structure Accounted (config : ClientConfig) (s : Store ρ) (visits : List (Visit ρ)) : Prop where
  config : s.config = config
  parked : ∀ path p, s.parked.get? path = some p ↔ ∃ i, Remains visits i path p
  issued : (issuedNumbers s visits).Nodup
  issued_lt : ∀ n ∈ issuedNumbers s visits, n < s.nextResponse
  taken : (visits.filterMap Visit.taken?).Nodup
  taken_lt : ∀ n ∈ visits.filterMap Visit.taken?, n < s.nextResponse
  parked_lt : ∀ path p n, s.parked.get? path = some p → p.response = .expected n →
    n < s.nextResponse ∧ n ∉ visits.filterMap Visit.taken?
  parked_inj : ∀ path p path' p' n, s.parked.get? path = some p → p.response = .expected n →
    s.parked.get? path' = some p' → p'.response = .expected n → path = path'

namespace Accounted

variable {config : ClientConfig} {s : Store ρ} {visits : List (Visit ρ)}

theorem start (config : ClientConfig) : Accounted config ({ config := config } : Store ρ) [] where
  config := rfl
  parked path p := by
    constructor
    · intro h
      exact absurd h (by simp)
    · rintro ⟨i, ⟨v, hv, _⟩, _⟩
      exact absurd hv (by simp)
  issued := List.nodup_nil
  issued_lt _ h := absurd h List.not_mem_nil
  taken := List.nodup_nil
  taken_lt _ h := absurd h List.not_mem_nil
  parked_lt _ _ _ h := absurd h (by simp)
  parked_inj _ _ _ _ _ h := absurd h (by simp)

theorem sameParking {s' : Store ρ} (h : Accounted config s visits) (hs : s.SameParking s') :
    Accounted config s' visits where
  config := hs.config.trans h.config
  parked := hs.parked ▸ h.parked
  issued := by
    rw [issuedNumbers, hs.requests]
    exact h.issued
  issued_lt := by
    rw [issuedNumbers, hs.requests, hs.nextResponse]
    exact h.issued_lt
  taken := h.taken
  taken_lt := hs.nextResponse ▸ h.taken_lt
  parked_lt := hs.parked ▸ hs.nextResponse ▸ h.parked_lt
  parked_inj := hs.parked ▸ h.parked_inj

/-- **One visit.** It replaces what is parked under its path by what it leaves. The response that it
takes was taken by no other and is parked under no other path. -/
theorem visit {s' : Store ρ} (h : Accounted config s visits) (v : Visit ρ)
    (hconfig : s'.config = s.config) (hnext : s.nextResponse ≤ s'.nextResponse)
    (hparked : ∀ path, s'.parked.get? path =
      if v.path = path then v.left? else s.parked.get? path)
    (hsource : ∀ n, v.source? = some (.expected n) → n < s'.nextResponse ∧
      n ∉ visits.filterMap Visit.taken? ∧
      ∀ path p, s.parked.get? path = some p → p.response = .expected n → path = v.path)
    (hissued : (issuedNumbers s' (visits ++ [v])).Nodup)
    (hissued_lt : ∀ n ∈ issuedNumbers s' (visits ++ [v]), n < s'.nextResponse) :
    Accounted config s' (visits ++ [v]) := by
  have hmem : ∀ n, n ∈ (visits ++ [v]).filterMap Visit.taken? ↔
      n ∈ visits.filterMap Visit.taken? ∨ v.taken? = some n := by
    intro n
    rw [List.filterMap_append, List.mem_append]
    simp
  -- What is parked afterwards is either what the visit left or was parked under another path.
  have hcases : ∀ {path p}, s'.parked.get? path = some p →
      (v.path = path ∧ v.left? = some p) ∨ (v.path ≠ path ∧ s.parked.get? path = some p) := by
    intro path p hp
    rw [hparked] at hp
    split at hp
    next heq => exact .inl ⟨heq, hp⟩
    next hne => exact .inr ⟨hne, hp⟩
  have hleft : ∀ {p n}, v.left? = some p → p.response = .expected n →
      v.source? = some (.expected n) := fun hl hn => hn ▸ Visit.source?_of_left? hl
  constructor
  · exact hconfig.trans h.config
  · intro path p
    simp only [hparked, remains_concat]
    split
    next heq => simp [heq]
    next hne => simp [hne, h.parked]
  · exact hissued
  · exact hissued_lt
  · rw [List.filterMap_append, List.nodup_append]
    refine ⟨h.taken, ?_, fun a ha b hb hab => ?_⟩
    · cases ht : v.taken? <;> simp [ht]
    · have htaken : v.taken? = some b := by simpa using hb
      exact (hsource b (Visit.source?_of_taken? htaken)).2.1 (hab ▸ ha)
  · intro n hn
    rcases (hmem n).mp hn with hold | hnew
    · exact Nat.lt_of_lt_of_le (h.taken_lt n hold) hnext
    · exact (hsource n (Visit.source?_of_taken? hnew)).1
  · intro path p n hp hn
    rw [hmem]
    rcases hcases hp with ⟨_, hl⟩ | ⟨hne, hold⟩
    · obtain ⟨hlt, hnot, _⟩ := hsource n (hleft hl hn)
      refine ⟨hlt, fun hor => hor.elim hnot fun ht => ?_⟩
      rw [Visit.taken?_of_left? hl] at ht
      exact absurd ht (by simp)
    · obtain ⟨hlt, hnot⟩ := h.parked_lt path p n hold hn
      refine ⟨Nat.lt_of_lt_of_le hlt hnext, fun hor => hor.elim hnot fun ht => hne ?_⟩
      exact ((hsource n (Visit.source?_of_taken? ht)).2.2 path p hold hn).symm
  · intro path p path' p' n hp hn hp' hn'
    rcases hcases hp with ⟨heq, hl⟩ | ⟨hne, hold⟩ <;>
      rcases hcases hp' with ⟨heq', hl'⟩ | ⟨hne', hold'⟩
    · exact heq.symm.trans heq'
    · exact absurd ((hsource n (hleft hl hn)).2.2 path' p' hold' hn').symm hne'
    · exact absurd ((hsource n (hleft hl' hn')).2.2 path p hold hn).symm hne
    · exact h.parked_inj path p path' p' n hold hn hold' hn'

/-- The next number is that of no response yet. -/
theorem fresh (h : Accounted config s visits) : s.nextResponse ∉ visits.filterMap Visit.taken? ∧
    ∀ path p, s.parked.get? path = some p → p.response ≠ .expected s.nextResponse :=
  ⟨fun hn => Nat.lt_irrefl _ (h.taken_lt _ hn),
    fun path p hp hn => Nat.lt_irrefl _ (h.parked_lt path p _ hp hn).1⟩

/-- A response that is issued under the next number is issued once. -/
theorem issued_cons {s' : Store ρ} {visits' : List (Visit ρ)} (h : Accounted config s visits)
    (hissued : (issuedNumbers s' visits').Perm
      (s.nextResponse :: issuedNumbers s visits))
    (hnext : s'.nextResponse = s.nextResponse + 1) :
    (issuedNumbers s' visits').Nodup ∧
      ∀ n ∈ issuedNumbers s' visits', n < s'.nextResponse := by
  have hnew : s.nextResponse ∉ issuedNumbers s visits := fun hn =>
    Nat.lt_irrefl _ (h.issued_lt _ hn)
  refine ⟨hissued.nodup_iff.mpr (List.nodup_cons.mpr ⟨hnew, h.issued⟩), fun n hn => ?_⟩
  rw [hnext]
  rcases List.mem_cons.mp (hissued.subset hn) with rfl | hold
  · exact Nat.lt_succ_self _
  · exact Nat.lt_succ_of_lt (h.issued_lt n hold)

theorem seed (h : Accounted config s visits) (path : String) :
    Accounted config (s.seed path).2 (visits ++ [.seed path s.nextResponse]) := by
  have hperm : (issuedNumbers (s.seed path).2
      (visits ++ [.seed path s.nextResponse])).Perm
      (s.nextResponse :: issuedNumbers s visits) := by
    rw [issuedNumbers, List.filterMap_append, ← List.append_assoc]
    exact List.perm_append_singleton _ _
  obtain ⟨hissued, hissued_lt⟩ := h.issued_cons hperm rfl
  refine h.visit _ rfl (Nat.le_succ _) (fun path' => ?_) (fun n hn => ?_) hissued hissued_lt
  · exact s.parked.get?_insert path path' _
  · cases hn
    exact ⟨Nat.lt_succ_self _, h.fresh.1, fun path' p hp hn => absurd hn (h.fresh.2 path' p hp)⟩

end Accounted

/-- A parked response is adoptable if it suits an input that is not one of a prefetch. -/
theorem Store.adoptable_eq_some {input : FetchInput} {parked : Option Parked}
    {response : PendingResponse} : adoptable input parked = some response ↔
      ∃ p, parked = some p ∧ input.prefetchOnly = false ∧ p.suits input.params = true ∧
        p.response = response := by
  cases parked with
  | none => simp [adoptable]
  | some p =>
    cases p <;> cases h : input.prefetchOnly <;> simp [adoptable, Parked.suits, Parked.response, h]

/-- What is parked after an input has obtained its elements. -/
theorem Store.get?_parkedAfter (s : Store ρ) (input : FetchInput) (response : PendingResponse)
    (path : String) : (s.parkedAfter input response).get? path =
      if (s.reached input).path = path then
        if (s.reached input).prefetchOnly then some (.prefetched response (s.reached input).params)
        else none
      else s.parked.get? path := by
  rw [parkedAfter]
  split
  next honly =>
    rw [OrderedMap.get?_insert, OrderedMap.get?_erase]
    split <;> rfl
  next honly =>
    rw [OrderedMap.get?_erase]

/-- An operation that takes a response replaces what is parked under its path. -/
theorem Accounted.operation {config : ClientConfig} {s s' : Store ρ} {visits : List (Visit ρ)}
    (h : Accounted config s visits) (route : ρ) (input : FetchInput) (response : PendingResponse)
    (hconfig : s'.config = s.config) (hnext : s.nextResponse ≤ s'.nextResponse)
    (hparked : s'.parked = s.parkedAfter input response)
    (hresponse : ∀ n, response = .expected n → n < s'.nextResponse ∧
      n ∉ visits.filterMap Visit.taken? ∧
      ∀ path p, s.parked.get? path = some p → p.response = .expected n →
        path = (s.reached input).path)
    (hissued : (issuedNumbers s' visits).Nodup ∧
      ∀ n ∈ issuedNumbers s' visits, n < s'.nextResponse) :
    Accounted config s'
      (visits ++ [.operation ⟨route, s.reached input, .payload s.nextPromise response⟩]) := by
  have hsame : issuedNumbers s' (visits ++
      [.operation ⟨route, s.reached input, .payload s.nextPromise response⟩]) =
      issuedNumbers s' visits := by
    rw [issuedNumbers, issuedNumbers, List.filterMap_append]
    exact congrArg _ (List.append_nil _)
  refine h.visit _ hconfig hnext (fun path => ?_) (fun n hn => hresponse n (Option.some.inj hn))
    (hsame ▸ hissued.1) (hsame ▸ hissued.2)
  rw [hparked, Store.get?_parkedAfter]
  rfl

/-- What an operation adopts is what the store has parked. -/
theorem Accounted.adopted?_eq_some {config : ClientConfig} {s : Store ρ} {visits : List (Visit ρ)}
    (h : Accounted config s visits) (route : ρ) (input : FetchInput) (elements : Promise)
    (response : PendingResponse) : s.adopted? input = some response ↔
      ∃ i p, Operation.Adopts ⟨route, s.reached input, elements⟩ visits i p ∧
        p.response = response := by
  rw [Store.adopted?, Store.adoptable_eq_some]
  constructor
  · rintro ⟨p, hp, hkept, hsuits, hresponse⟩
    obtain ⟨i, hremains⟩ := (h.parked _ _).mp hp
    exact ⟨i, p, ⟨hremains, hkept, hsuits⟩, hresponse⟩
  · rintro ⟨i, p, hadopts, hresponse⟩
    exact ⟨p, (h.parked _ _).mpr ⟨i, hadopts.remains⟩, hadopts.kept, hadopts.suits, hresponse⟩

/-- **One operation.** It comes by its elements as it should, and the visits account for what it
leaves. -/
theorem Accounted.obtain {config : ClientConfig} {s : Store ρ} {visits : List (Visit ρ)}
    (h : Accounted config s visits) (route : ρ) (input : FetchInput) :
    Operation.Served config visits ⟨route, s.reached input, (s.obtain route input).1⟩ s.requests
      (s.obtain route input).2.requests ∧
    Accounted config (s.obtain route input).2
      (visits ++ [.operation ⟨route, s.reached input, (s.obtain route input).1⟩]) := by
  have hadopted := h.adopted?_eq_some route input
  have hnone : s.adopted? input = none → ∀ (elements : Promise) (i : Nat) (p : Parked),
      ¬Operation.Adopts ⟨route, s.reached input, elements⟩ visits i p := by
    intro hn elements i p hp
    rw [(hadopted elements p.response).mpr ⟨i, p, hp, rfl⟩] at hn
    exact absurd hn (by simp)
  -- The transformers send nothing.
  have hquiet : (s.effects ++ Store.transformEffects s.transformers input).filterMap
      Effect.request? = s.requests := by
    rw [List.filterMap_append, Store.filterMap_transformEffects, List.append_nil, Store.requests]
  refine Store.obtain_cases (P := fun r =>
    Operation.Served config visits ⟨route, s.reached input, r.1⟩ s.requests r.2.requests ∧
      Accounted config r.2 (visits ++ [Visit.operation ⟨route, s.reached input, r.1⟩])) ?_ ?_ ?_
  · intro response ha
    obtain ⟨i, p, hp, rfl⟩ := (hadopted (.payload s.nextPromise response) response).mp ha
    have hparked := (h.parked _ _).mpr ⟨i, hp.remains⟩
    constructor
    · refine ⟨fun j q hq => ?_, fun hno => absurd hp (hno i p), fun hno => absurd hp (hno i p)⟩
      have hq' := (hadopted _ q.response).mpr ⟨j, q, hq, rfl⟩
      exact ⟨ha.symm.trans hq', hquiet⟩
    · refine h.operation route input p.response rfl (Nat.le_refl _) rfl (fun n hn => ?_) ?_
      · obtain ⟨hlt, hnot⟩ := h.parked_lt _ p n hparked hn
        exact ⟨hlt, hnot, fun path q hq hqn => h.parked_inj path q _ p n hq hqn hparked hn⟩
      · rw [issuedNumbers, Store.requests, hquiet]
        exact ⟨h.issued, h.issued_lt⟩
  · intro r ha hr
    have hsent : (s.effects ++ Store.transformEffects s.transformers input ++
        [Effect.requested s.nextResponse route r]).filterMap Effect.request? =
        s.requests ++ [(s.nextResponse, route, r)] := by
      rw [List.filterMap_append, hquiet]
      rfl
    rw [Store.outgoing, h.config] at hr
    constructor
    · refine ⟨fun i p hp => absurd hp (hnone ha _ i p), fun _ r' hr' => ?_, fun _ f hf => ?_⟩
      · rw [hr] at hr'
        cases hr'
        exact ⟨s.nextResponse, rfl, hsent⟩
      · rw [hr] at hf
        exact absurd hf (by simp)
    · refine h.operation route input (.expected s.nextResponse) rfl (Nat.le_succ _) rfl
        (fun n hn => ?_) (h.issued_cons ?_ rfl)
      · cases hn
        exact ⟨Nat.lt_succ_self _, h.fresh.1, fun path p hp hn => absurd hn (h.fresh.2 path p hp)⟩
      · rw [issuedNumbers, Store.requests, hsent, List.map_append, List.append_assoc]
        exact List.perm_middle
  · intro f ha hf
    rw [Store.outgoing, h.config] at hf
    constructor
    · refine ⟨fun i p hp => absurd hp (hnone ha _ i p), fun _ r hr => ?_, fun _ f' hf' => ?_⟩
      · rw [hf] at hr
        exact absurd hr (by simp)
      · rw [hf] at hf'
        cases hf'
        exact ⟨rfl, hquiet⟩
    · refine h.operation route input (.failed (.invalidPath f)) rfl (Nat.le_refl _) rfl
        (fun n hn => absurd hn (by simp)) ?_
      rw [issuedNumbers, Store.requests, hquiet]
      exact ⟨h.issued, h.issued_lt⟩

/-- **One step.** Whatever happens to a session, the visits account for what is parked. -/
theorem Session.accounted_act {config : ClientConfig} {s : Session ρ} {visits : List (Visit ρ)}
    (h : Accounted config s.store visits) (a : Action ρ) :
    Accounted config (s.act a).store (visits ++ (s.visit? a).toList) := by
  cases s.turn a with
  | nothing hvisit hafter =>
    rw [hvisit, Option.toList_none, List.append_nil]
    exact h.sameParking hafter
  | seed path hvisit hafter =>
    rw [hvisit, hafter]
    exact h.seed path
  | operation route input before hbefore hvisit hafter =>
    rw [hvisit]
    exact ((h.sameParking hbefore).obtain route input).2.sameParking hafter

/-- Over a whole run the visits account for what the store has parked. -/
theorem Session.accounted_run {config : ClientConfig} {s : Session ρ} {visits : List (Visit ρ)}
    (h : Accounted config s.store visits) (actions : List (Action ρ)) :
    Accounted config (s.run actions).store (visits ++ s.visits actions) := by
  induction actions generalizing s visits with
  | nil =>
    rw [Session.visits, List.append_nil]
    exact h
  | cons a actions ih =>
    rw [Session.run_cons, Session.visits, ← List.append_assoc]
    exact ih (Session.accounted_act h a)

/-- **Parked responses are adopted once.** After every run, no path has two parked responses, and
what is parked under a path is what the last visit to it left. Whatever happens next, an operation
takes its elements from one response: from what is parked under its path, exactly if that suits it,
and otherwise from one new request, unless its path has no encoding; and what is no operation sends
nothing. What a visit left is adopted by one operation at most; no response is issued twice, and
none is taken by two operations. -/
theorem parked_responses_are_adopted_once (config : ClientConfig) (actions : List (Action ρ))
    (next : Action ρ) :
    let s := (Session.start ρ config).run actions
    let visits := (Session.start ρ config).visits actions
    s.store.parked.keys.Nodup ∧
    (∀ path p, s.store.parked.get? path = some p ↔ ∃ i, Remains visits i path p) ∧
    (∀ op, s.operation? next = some op →
      op.Served config visits s.store.requests (s.act next).store.requests) ∧
    (s.operation? next = none → (s.act next).store.requests = s.store.requests) ∧
    (∀ i j j' op op' p p', visits[j]? = some (Visit.operation op) →
      visits[j']? = some (Visit.operation op') →
      op.Adopts (visits.take j) i p → op'.Adopts (visits.take j') i p' → j = j') ∧
    (s.store.requests.map Prod.fst ++ visits.filterMap Visit.seeded?).Nodup ∧
    (visits.filterMap Visit.taken?).Nodup := by
  intro s visits
  have h : Accounted config s.store visits :=
    Session.accounted_run (s := Session.start ρ config) (.start config) actions
  refine ⟨s.store.parked.nodup, h.parked, fun op hop => ?_, fun hop => ?_,
    fun i j j' op op' p p' hj hj' => adopts_inj hj hj', h.issued, h.taken⟩
  · have hvisit := Session.visit?_eq_operation.mpr hop
    cases s.turn next with
    | nothing hnone => exact absurd (hnone.symm.trans hvisit) (by simp)
    | seed path hseed => exact absurd (hseed.symm.trans hvisit) (by simp)
    | operation route input before hbefore hoperation hafter =>
      obtain rfl := Visit.operation.inj (Option.some.inj (hoperation.symm.trans hvisit))
      rw [hafter.requests, ← hbefore.requests]
      exact ((h.sameParking hbefore).obtain route input).1
  · cases s.turn next with
    | nothing _ hafter => exact hafter.requests
    | seed path _ hafter =>
      rw [hafter]
      rfl
    | operation route input before _ hvisit =>
      rw [Session.visit?_eq_operation] at hvisit
      exact absurd (hop.symm.trans hvisit) (by simp)

end ServerBoundary.Client
