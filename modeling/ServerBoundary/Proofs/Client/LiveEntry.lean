import ServerBoundary.Proofs.Client.Visits
import ServerBoundary.Proofs.Json.Equality

/-!
# The live entry over a run

The live entry is what was fetched last. As long as nothing else is fetched, fetching the same path
with equal parameters gives its elements again.

> `live_entry_is_reused_until_superseded`: once elements were fetched, fetching the same again gives
> the same elements and does nothing else, whatever happened in between that fetches nothing else.
> Once they are superseded, no fetch ever gives them again, and a fetch that finds no live entry
> adopts a parked response, sends one request or fails.

Of what happens to a session only four kinds matter to the entry, and `Session.entryTurn` tells them
apart. That superseded elements stay away is an invariant of one number (`Store.Past`): promises are
numbered in order, and a new one has a number that was never used.
-/

namespace ServerBoundary.Client

variable {ρ : Type}

/-! ## Parameters -/

/-- Whether no object in some parameters has a key twice. -/
def Params.distinctKeys : Params → Bool
  | query _ => true
  | value v => v.distinctKeys

/-- Whether no object in some parameters has a key twice, if there are any. -/
def distinctParams : Option Params → Bool
  | none => true
  | some p => p.distinctKeys

theorem Params.same_refl {p : Params} (h : p.distinctKeys = true) : p.same p = true := by
  cases p with
  | query text => exact beq_self_eq_true text
  | value v => exact Json.same_refl h

theorem Params.same_symm {p q : Params} (hp : p.distinctKeys = true) (h : p.same q = true) :
    q.same p = true := by
  cases p with
  | query text =>
    cases q with
    | query text' => exact BEq.symm h
    | value w => exact absurd h (by simp [Params.same])
  | value v =>
    cases q with
    | query text' => exact absurd h (by simp [Params.same])
    | value w => exact Json.same_symm (v := v) hp h

theorem Params.same_trans {p q r : Params} (h : p.same q = true) (h' : q.same r = true) :
    p.same r = true := by
  cases p with
  | query text =>
    cases q with
    | query text' =>
      rw [show text = text' from beq_iff_eq.mp h]
      exact h'
    | value w => exact absurd h (by simp [Params.same])
  | value v =>
    cases q with
    | query text' => exact absurd h (by simp [Params.same])
    | value w =>
      cases r with
      | query text' => exact absurd h' (by simp [Params.same])
      | value u => exact Json.same_trans (u := v) h h'

theorem sameParams_refl {p : Option Params} (h : distinctParams p = true) :
    sameParams p p = true := by
  cases p with
  | none => rfl
  | some p => exact Params.same_refl h

theorem sameParams_symm {p q : Option Params} (hp : distinctParams p = true)
    (h : sameParams p q = true) : sameParams q p = true := by
  cases p with
  | none =>
    cases q with
    | none => rfl
    | some q => exact absurd h (by simp [sameParams])
  | some p =>
    cases q with
    | none => exact absurd h (by simp [sameParams])
    | some q => exact Params.same_symm (p := p) hp h

theorem sameParams_trans {p q r : Option Params} (h : sameParams p q = true)
    (h' : sameParams q r = true) : sameParams p r = true := by
  cases p with
  | none =>
    cases q with
    | none => exact h'
    | some q => exact absurd h (by simp [sameParams])
  | some p =>
    cases q with
    | none => exact absurd h (by simp [sameParams])
    | some q =>
      cases r with
      | none => exact absurd h' (by simp [sameParams])
      | some r => exact Params.same_trans (p := p) h h'

/-- Whether no object in the parameters that an action may leave in the entry has a key twice. -/
def Action.distinctKeys : Action ρ → Bool
  | .fetch _ _ params => distinctParams params
  | .mount _ _ params => distinctParams params
  | .refetch _ _ params => distinctParams params
  | _ => true

/-- Whether an action fetches nothing else than a path with some parameters and does not drop the
live entry either. -/
def Action.keepsEntry (path : String) (params : Option Params) : Action ρ → Bool
  | .fetch _ path' params' => path == path' && sameParams params params'
  | .mount _ path' params' => path == path' && sameParams params params'
  | .refetch _ _ _ => false
  | .reload => false
  | .clearEntry => false
  | _ => true

/-- The elements that an action fetches for the one who asked for it. -/
def Session.returned? (s : Session ρ) : Action ρ → Option Promise
  | .fetch route path params => some (s.store.fetch route path params).1
  | .mount route path params => some (s.store.mount route path params).1
  | .refetch route path params => some (s.store.refetch route path params).1
  | .reload => s.store.reload.map Prod.fst
  | _ => none

namespace Store

/-! ## Fetching -/

/-- A fetch gives the elements of the live entry, and only what a hot reload fetches is noted: no
transformer runs, nothing is sent, and what is parked stays. -/
def Reuses (s : Store ρ) (route : ρ) (path : String) (params : Option Params) (p : Promise) :
    Prop :=
  ∃ target, s.fetch route path params = (p, { s with reloadTarget := target })

/-- A fetch gives new elements, which become the live entry. They are those of the response that it
adopts; if there is none, those of the request that it sends; and if the path has no encoding, they
fail. -/
structure Renews (s : Store ρ) (route : ρ) (path : String) (params : Option Params) : Prop where
  adopts : ∀ response, s.adopted? ⟨path, params, false⟩ = some response →
    (s.fetch route path params).1 = .payload s.nextPromise response ∧
      (s.fetch route path params).2.requests = s.requests
  asks : s.adopted? ⟨path, params, false⟩ = none →
    ∀ r, s.outgoing ⟨path, params, false⟩ = .ok r →
      (s.fetch route path params).1 = .payload s.nextPromise (.expected s.nextResponse) ∧
        (s.fetch route path params).2.requests = s.requests ++ [(s.nextResponse, route, r)]
  fails : s.adopted? ⟨path, params, false⟩ = none →
    ∀ f, s.outgoing ⟨path, params, false⟩ = .error f →
      (s.fetch route path params).1 = .payload s.nextPromise (.failed (.invalidPath f)) ∧
        (s.fetch route path params).2.requests = s.requests
  entry : (s.fetch route path params).2.entry =
    some ⟨path, params, (s.fetch route path params).1⟩

theorem aimReload_eq (s : Store ρ) (route : ρ) (path : String) (params : Option Params) :
    s.aimReload route path params = { s with
      reloadTarget := if s.config.hot then some ⟨path, params, route⟩ else s.reloadTarget } := by
  rw [aimReload]
  cases s.config.hot <;> rfl

theorem adopted?_aimReload (s : Store ρ) (route : ρ) (path : String) (params : Option Params)
    (input : FetchInput) : (s.aimReload route path params).adopted? input = s.adopted? input := by
  rw [aimReload_eq]
  rfl

theorem outgoing_aimReload (s : Store ρ) (route : ρ) (path : String) (params : Option Params)
    (input : FetchInput) : (s.aimReload route path params).outgoing input = s.outgoing input := by
  rw [aimReload_eq]
  rfl

theorem reuses_of_hit {s : Store ρ} {path : String} {params : Option Params} {p : Promise}
    (h : s.liveEntry? path params = some p) (route : ρ) : s.Reuses route path params p :=
  ⟨_, (fetch_of_hit h route).trans (congrArg (Prod.mk p) (s.aimReload_eq route path params))⟩

theorem liveEntry?_eq_some {s : Store ρ} {path : String} {params : Option Params} {p : Promise} :
    s.liveEntry? path params = some p ↔
      ∃ params', s.entry = some ⟨path, params', p⟩ ∧ sameParams params' params = true := by
  unfold liveEntry?
  cases s.entry with
  | none => simp
  | some e =>
    obtain ⟨path', params', p'⟩ := e
    simp only [Option.ite_none_right_eq_some, Bool.and_eq_true, beq_iff_eq, Option.some.injEq,
      Entry.mk.injEq]
    constructor
    · rintro ⟨⟨rfl, hsame⟩, rfl⟩
      exact ⟨params', ⟨rfl, rfl, rfl⟩, hsame⟩
    · rintro ⟨_, ⟨rfl, rfl, rfl⟩, hsame⟩
      exact ⟨⟨rfl, hsame⟩, rfl⟩

theorem renews_of_miss {s : Store ρ} {path : String} {params : Option Params}
    (h : s.liveEntry? path params = none) (route : ρ) : s.Renews route path params := by
  -- The aim of a reload matters neither to what is adopted nor to what is sent.
  have hnext : (s.aimReload route path params).nextPromise = s.nextPromise := by rw [aimReload_eq]
  have hadopted := s.adopted?_aimReload route path params ⟨path, params, false⟩
  have houtgoing := s.outgoing_aimReload route path params ⟨path, params, false⟩
  have haim := s.sameParking_aimReload route path params
  obtain ⟨response, hpromise, hdraws⟩ :=
    (s.aimReload route path params).draws_obtain route ⟨path, params, false⟩
  rw [hnext] at hpromise
  have hfetch := fetch_of_miss h route
  constructor
  · intro parked hparked
    obtain ⟨rfl, hrequests⟩ := hdraws.adopts parked (hadopted.trans hparked)
    rw [hfetch]
    exact ⟨hpromise, hrequests.trans haim.requests⟩
  · intro hnone r hr
    obtain ⟨rfl, hrequests⟩ := hdraws.asks (hadopted.trans hnone) r (houtgoing.trans hr)
    rw [haim.nextResponse] at hpromise hrequests
    rw [haim.requests] at hrequests
    rw [hfetch]
    exact ⟨hpromise, hrequests⟩
  · intro hnone f hf
    obtain ⟨rfl, hrequests⟩ := hdraws.fails (hadopted.trans hnone) f (houtgoing.trans hf)
    rw [hfetch]
    exact ⟨hpromise, hrequests.trans haim.requests⟩
  · rw [hfetch]

/-! ## What matters to the entry -/

/-- Two stores with the same entry and the same aim of a reload, the second one later than the
first. -/
structure SameEntry (s s' : Store ρ) : Prop where
  config : s'.config = s.config
  entry : s'.entry = s.entry
  reloadTarget : s'.reloadTarget = s.reloadTarget
  nextPromise : s.nextPromise ≤ s'.nextPromise

namespace SameEntry

theorem refl (s : Store ρ) : SameEntry s s := ⟨rfl, rfl, rfl, Nat.le_refl _⟩

theorem trans {s s' s'' : Store ρ} (h : SameEntry s s') (h' : SameEntry s' s'') :
    SameEntry s s'' :=
  ⟨h'.config.trans h.config, h'.entry.trans h.entry, h'.reloadTarget.trans h.reloadTarget,
    Nat.le_trans h.nextPromise h'.nextPromise⟩

end SameEntry

theorem sameEntry_obtain (s : Store ρ) (route : ρ) (input : FetchInput) :
    s.SameEntry (s.obtain route input).2 := by
  refine obtain_cases (P := fun r => s.SameEntry r.2) ?_ ?_ ?_
  · exact fun _ _ => ⟨rfl, rfl, rfl, Nat.le_succ _⟩
  · exact fun _ _ _ => ⟨rfl, rfl, rfl, Nat.le_succ _⟩
  · exact fun _ _ _ => ⟨rfl, rfl, rfl, Nat.le_succ _⟩

theorem sameEntry_mergeLive (s : Store ρ) (patch : Promise) : s.SameEntry (s.mergeLive patch) := by
  rw [mergeLive]
  split
  next => exact ⟨rfl, rfl, rfl, Nat.le_refl _⟩
  next => exact ⟨rfl, rfl, rfl, Nat.le_succ _⟩

theorem sameEntry_applyPatch (s : Store ρ) (patch : Elements) :
    s.SameEntry (s.applyPatch patch) := by
  rw [applyPatch]
  split
  next => exact .refl s
  next =>
    refine SameEntry.trans ?_ (sameEntry_mergeLive _ _)
    exact ⟨rfl, rfl, rfl, Nat.le_succ _⟩

theorem sameEntry_finishCall (s : Store ρ) (outcome : Outcome) :
    s.SameEntry (s.finishCall outcome).2 := by
  cases outcome with
  | error e => exact .refl s
  | ok elements => exact s.sameEntry_applyPatch elements.splitValue.2

theorem sameEntry_refetch (s : Store ρ) (route : ρ) (path : String) (params : Option Params) :
    (s.clearEntry.fetch route path params).2.SameEntry (s.refetch route path params).2 := by
  rw [refetch]
  obtain ⟨p, fetched⟩ := s.clearEntry.fetch route path params
  have hpatch : fetched.SameEntry (fetched.promise fun n => .orEmpty n p).2 :=
    ⟨rfl, rfl, rfl, Nat.le_succ _⟩
  exact hpatch.trans (sameEntry_mergeLive _ _)

end Store

/-- The ways in which something that happens to a session bears on the live entry: not at all; it is
dropped; a fetch makes use of it; or a fetch starts without it. -/
inductive Session.EntryTurn (s : Session ρ) (a : Action ρ) : Prop where
  | untouched (hkeeps : (a = .reload ∧ s.store.reloadTarget = none) ∨
        ∀ path params, a.keepsEntry path params = true)
      (hreturned : s.returned? a = none) (hafter : s.store.SameEntry (s.act a).store)
  | cleared (hclear : a = .clearEntry)
  | fetched (route : ρ) (path : String) (params : Option Params)
      (hfetch : a = .fetch route path params ∨ a = .mount route path params)
      (hreturned : s.returned? a = some (s.store.fetch route path params).1)
      (hafter : (s.store.fetch route path params).2.SameEntry (s.act a).store)
  | refetched (route : ρ) (path : String) (params : Option Params)
      (hrefetch : a = .refetch route path params ∨
        (a = .reload ∧ s.store.reloadTarget = some ⟨path, params, route⟩))
      (hreturned : s.returned? a = some (s.store.clearEntry.fetch route path params).1)
      (hafter : (s.store.clearEntry.fetch route path params).2.SameEntry (s.act a).store)

/-- Everything that happens to a session is of one of the four kinds. -/
theorem Session.entryTurn (s : Session ρ) (a : Action ρ) : s.EntryTurn a := by
  cases a with
  | fetch route path params => exact .fetched route path params (.inl rfl) rfl (.refl _)
  | mount route path params =>
    exact .fetched route path params (.inr rfl) rfl ⟨rfl, rfl, rfl, Nat.le_refl _⟩
  | refetch route path params =>
    exact .refetched route path params (.inl rfl) rfl (s.store.sameEntry_refetch route path params)
  | reload =>
    cases htarget : s.store.reloadTarget with
    | none =>
      refine .untouched (.inl ⟨rfl, htarget⟩) ?_ ?_
      · rw [returned?, Store.reload, htarget]
        rfl
      · rw [act, Store.reload, htarget]
        exact .refl _
    | some t =>
      refine .refetched t.route t.path t.params (.inr ⟨rfl, htarget⟩) ?_ ?_
      · rw [returned?, Store.reload, htarget]
        rfl
      · rw [act, Store.reload, htarget]
        exact ⟨rfl, rfl, rfl, Nat.le_refl _⟩
  | clearEntry => exact .cleared rfl
  | prefetch route path params =>
    refine .untouched (.inr fun _ _ => rfl) rfl ?_
    rw [act, Store.prefetch]
    split
    next => exact .refl _
    next => exact s.store.sameEntry_obtain _ _
  | call route id args =>
    refine .untouched (.inr fun _ _ => rfl) rfl ?_
    rw [act, Session.call, Store.call]
    cases RscPath.ofFunctionId id with
    | error f => exact .refl _
    | ok path => exact s.store.sameEntry_obtain _ _
  | finish call =>
    refine .untouched (.inr fun _ _ => rfl) rfl ?_
    rw [act, Session.finish]
    split
    next => exact .refl _
    next => exact s.store.sameEntry_finishCall _
  | deliver response delivery =>
    refine .untouched (.inr fun _ _ => rfl) rfl ?_
    rw [act, Session.deliver]
    split <;> exact .refl _
  | seed => exact .untouched (.inr fun _ _ => rfl) rfl ⟨rfl, rfl, rfl, Nat.le_refl _⟩
  | setLive => exact .untouched (.inr fun _ _ => rfl) rfl ⟨rfl, rfl, rfl, Nat.le_refl _⟩
  | addTransformer => exact .untouched (.inr fun _ _ => rfl) rfl ⟨rfl, rfl, rfl, Nat.le_refl _⟩
  | addListener => exact .untouched (.inr fun _ _ => rfl) rfl ⟨rfl, rfl, rfl, Nat.le_refl _⟩
  | unregister => exact .untouched (.inr fun _ _ => rfl) rfl ⟨rfl, rfl, rfl, Nat.le_refl _⟩

namespace Store

/-- A store with new elements in its entry, as far as the entry is concerned. -/
def renewed (s : Store ρ) (route : ρ) (path : String) (params : Option Params) (p : Promise) :
    Store ρ :=
  { s.aimReload route path params with
    entry := some ⟨path, params, p⟩
    nextPromise := s.nextPromise + 1 }

/-- A fetch gives the elements of the live entry, or new elements, which become the live entry. -/
theorem fetch_cases (s : Store ρ) (route : ρ) (path : String) (params : Option Params) :
    (∃ params', s.entry = some ⟨path, params', (s.fetch route path params).1⟩ ∧
      sameParams params' params = true ∧
      (s.fetch route path params).2 = s.aimReload route path params) ∨
    (s.liveEntry? path params = none ∧ (s.fetch route path params).1.number = s.nextPromise ∧
      (s.renewed route path params (s.fetch route path params).1).SameEntry
        (s.fetch route path params).2) := by
  cases h : s.liveEntry? path params with
  | some p =>
    obtain ⟨params', hentry, hsame⟩ := liveEntry?_eq_some.mp h
    rw [fetch_of_hit h]
    exact .inl ⟨params', hentry, hsame, rfl⟩
  | none =>
    refine .inr ⟨rfl, ?_⟩
    have hnext : (s.aimReload route path params).nextPromise = s.nextPromise := by rw [aimReload_eq]
    rw [fetch_of_miss h, renewed, ← hnext]
    refine obtain_cases (P := fun r => r.1.number = (s.aimReload route path params).nextPromise ∧
      ({ (s.aimReload route path params) with
        entry := some ⟨path, params, r.1⟩
        nextPromise := (s.aimReload route path params).nextPromise + 1 } : Store ρ).SameEntry
          { r.2 with entry := some ⟨path, params, r.1⟩ }) ?_ ?_ ?_
    · exact fun _ _ => ⟨rfl, rfl, rfl, rfl, Nat.le_refl _⟩
    · exact fun _ _ _ => ⟨rfl, rfl, rfl, rfl, Nat.le_refl _⟩
    · exact fun _ _ _ => ⟨rfl, rfl, rfl, rfl, Nat.le_refl _⟩

/-! ## Elements that are gone -/

/-- The number of a promise that no fetch will give again: it has been used, and the elements of the
live entry have another. -/
structure Past (s : Store ρ) (n : Nat) : Prop where
  used : n < s.nextPromise
  gone : ∀ e, s.entry = some e → e.elements.number ≠ n

namespace Past

variable {s s' : Store ρ} {n : Nat}

theorem sameEntry (h : s.Past n) (hs : s.SameEntry s') : s'.Past n :=
  ⟨Nat.lt_of_lt_of_le h.used hs.nextPromise, hs.entry ▸ h.gone⟩

theorem clearEntry (h : n < s.nextPromise) : s.clearEntry.Past n :=
  ⟨h, fun _ he => absurd he (by simp [Store.clearEntry])⟩

/-- A fetch that finds no live entry gives a number that was never used. -/
theorem of_miss (h : n < s.nextPromise) {route : ρ} {path : String} {params : Option Params}
    {p : Promise} (hp : p.number = s.nextPromise)
    (hs : (s.renewed route path params p).SameEntry s') : s'.Past n := by
  have hne : p.number ≠ n := by
    rw [hp]
    exact Nat.ne_of_gt h
  have hrenewed : (s.renewed route path params p).Past n := by
    refine ⟨Nat.lt_succ_of_lt h, fun e he => ?_⟩
    cases he
    exact hne
  exact hrenewed.sameEntry hs

/-- **No fetch gives it,** and it stays so. -/
theorem fetch (h : s.Past n) (route : ρ) (path : String) (params : Option Params) :
    (s.fetch route path params).1.number ≠ n ∧ (s.fetch route path params).2.Past n := by
  rcases s.fetch_cases route path params with ⟨params', hentry, _, hafter⟩ | ⟨_, hnumber, hafter⟩
  · refine ⟨h.gone _ hentry, ?_⟩
    rw [hafter, aimReload_eq]
    exact ⟨h.used, h.gone⟩
  · refine ⟨?_, of_miss h.used hnumber hafter⟩
    rw [hnumber]
    exact Nat.ne_of_gt h.used

end Past

end Store

namespace Session

/-- **One step.** Nothing that happens to a session brings back what is gone. -/
theorem past_act {s : Session ρ} {n : Nat} (h : s.store.Past n) (a : Action ρ) :
    (∀ p, s.returned? a = some p → p.number ≠ n) ∧ (s.act a).store.Past n := by
  cases s.entryTurn a with
  | untouched _ hreturned hafter =>
    refine ⟨fun p hp => ?_, h.sameEntry hafter⟩
    rw [hreturned] at hp
    exact absurd hp (by simp)
  | cleared hclear =>
    subst hclear
    exact ⟨fun p hp => absurd hp (by simp [returned?]), .clearEntry h.used⟩
  | fetched route path params _ hreturned hafter =>
    obtain ⟨hne, hpast⟩ := h.fetch route path params
    refine ⟨fun p hp => ?_, hpast.sameEntry hafter⟩
    rw [hreturned] at hp
    exact Option.some.inj hp ▸ hne
  | refetched route path params _ hreturned hafter =>
    obtain ⟨hne, hpast⟩ := (Store.Past.clearEntry h.used).fetch route path params
    refine ⟨fun p hp => ?_, hpast.sameEntry hafter⟩
    rw [hreturned] at hp
    exact Option.some.inj hp ▸ hne

/-- What is gone stays away over a run. -/
theorem past_run {s : Session ρ} {n : Nat} (h : s.store.Past n) (actions : List (Action ρ)) :
    (s.run actions).store.Past n :=
  run_induction (P := fun s => s.store.Past n) (fun _ a h => (past_act h a).2) h actions

/-! ## What a run knows of its entry -/

/-- The elements of the live entry have a number that has been used, and in the parameters that are
kept no object has a key twice. -/
structure EntrySound (config : ClientConfig) (s : Store ρ) : Prop where
  config : s.config = config
  number_lt : ∀ e, s.entry = some e → e.elements.number < s.nextPromise
  entry : ∀ e, s.entry = some e → distinctParams e.params = true
  target : ∀ t, s.reloadTarget = some t → distinctParams t.params = true

namespace EntrySound

variable {config : ClientConfig} {s s' : Store ρ}

theorem sameEntry (h : EntrySound config s) (hs : s.SameEntry s') : EntrySound config s' where
  config := hs.config.trans h.config
  number_lt e he := Nat.lt_of_lt_of_le (h.number_lt e (hs.entry ▸ he)) hs.nextPromise
  entry e he := h.entry e (hs.entry ▸ he)
  target t ht := h.target t (hs.reloadTarget ▸ ht)

theorem clearEntry (h : EntrySound config s) : EntrySound config s.clearEntry where
  config := h.config
  number_lt _ he := absurd he (by simp [Store.clearEntry])
  entry _ he := absurd he (by simp [Store.clearEntry])
  target := h.target

theorem aimReload (h : EntrySound config s) {params : Option Params}
    (hparams : distinctParams params = true) (route : ρ) (path : String) :
    EntrySound config (s.aimReload route path params) := by
  rw [Store.aimReload]
  split
  next =>
    refine ⟨h.config, h.number_lt, h.entry, ?_⟩
    intro t ht
    cases ht
    exact hparams
  next => exact h

theorem fetch (h : EntrySound config s) {params : Option Params}
    (hparams : distinctParams params = true) (route : ρ) (path : String) :
    EntrySound config (s.fetch route path params).2 := by
  have haimed := h.aimReload hparams route path
  rcases s.fetch_cases route path params with ⟨_, _, _, hafter⟩ | ⟨_, hnumber, hafter⟩
  · rw [hafter]
    exact haimed
  · have hrenewed :
        EntrySound config (s.renewed route path params (s.fetch route path params).1) := by
      refine ⟨haimed.config, fun e he => ?_, fun e he => ?_, haimed.target⟩
      · cases he
        exact Nat.lt_succ_of_le (Nat.le_of_eq hnumber)
      · cases he
        exact hparams
    exact hrenewed.sameEntry hafter

theorem act {s : Session ρ} (h : EntrySound config s.store) {a : Action ρ}
    (ha : a.distinctKeys = true) : EntrySound config (s.act a).store := by
  cases s.entryTurn a with
  | untouched _ _ hafter => exact h.sameEntry hafter
  | cleared hclear =>
    subst hclear
    exact h.clearEntry
  | fetched route path params hfetch _ hafter =>
    have hparams : distinctParams params = true := by
      rcases hfetch with rfl | rfl <;> exact ha
    exact (h.fetch hparams route path).sameEntry hafter
  | refetched route path params hrefetch _ hafter =>
    have hparams : distinctParams params = true := by
      rcases hrefetch with rfl | ⟨_, htarget⟩
      · exact ha
      · exact h.target _ htarget
    exact (h.clearEntry.fetch hparams route path).sameEntry hafter

theorem run (config : ClientConfig) {actions : List (Action ρ)}
    (hactions : ∀ a ∈ actions, a.distinctKeys = true) :
    EntrySound config ((start ρ config).run actions).store := by
  refine run_induction_of_forall (P := fun s => EntrySound config s.store)
    (fun _ _ ha h => h.act ha) ⟨rfl, ?_, ?_, ?_⟩ hactions
  · exact fun _ he => absurd he (by simp [start])
  · exact fun _ he => absurd he (by simp [start])
  · exact fun _ ht => absurd ht (by simp [start])

end EntrySound

/-! ## Elements that are live -/

/-- The live entry has some elements for a path and parameters, and in a client with hot reloads a
reload has an aim. -/
structure Serves (config : ClientConfig) (s : Store ρ) (path : String) (params : Option Params)
    (p : Promise) : Prop where
  entry : ∃ params', s.entry = some ⟨path, params', p⟩ ∧ distinctParams params' = true ∧
    sameParams params' params = true
  aimed : config.hot = true → s.reloadTarget.isSome = true
  number_lt : p.number < s.nextPromise
  config : s.config = config

namespace Serves

variable {config : ClientConfig} {s s' : Store ρ} {path : String} {params : Option Params}
  {p : Promise}

theorem sameEntry (h : Serves config s path params p) (hs : s.SameEntry s') :
    Serves config s' path params p where
  entry := hs.entry ▸ h.entry
  config := hs.config.trans h.config
  number_lt := Nat.lt_of_lt_of_le h.number_lt hs.nextPromise
  aimed := hs.reloadTarget ▸ h.aimed

theorem isSome_reloadTarget_aimReload (hconfig : s.config = config) (hhot : config.hot = true)
    (route : ρ) (path : String) (params : Option Params) :
    (s.aimReload route path params).reloadTarget.isSome = true := by
  rw [Store.aimReload, hconfig, if_pos hhot]
  rfl

theorem aimReload (h : Serves config s path params p) (route : ρ) (path' : String)
    (params' : Option Params) : Serves config (s.aimReload route path' params') path params p := by
  have haimed : config.hot = true →
      (s.aimReload route path' params').reloadTarget.isSome = true := fun hhot =>
    isSome_reloadTarget_aimReload h.config hhot route path' params'
  rw [Store.aimReload_eq] at haimed ⊢
  exact ⟨h.entry, haimed, h.number_lt, h.config⟩

/-- A fetch makes the elements that it gives those of the live entry. -/
theorem of_fetch (h : EntrySound config s) (hparams : distinctParams params = true) (route : ρ)
    (path : String) : Serves config (s.fetch route path params).2 path params
      (s.fetch route path params).1 := by
  have hfetched := h.fetch hparams route path
  have haimed : config.hot = true →
      (s.aimReload route path params).reloadTarget.isSome = true := fun hhot =>
    isSome_reloadTarget_aimReload h.config hhot route path params
  rcases s.fetch_cases route path params with
    ⟨params', hentry, hsame, hafter⟩ | ⟨_, hnumber, hafter⟩
  · rw [hafter] at hfetched ⊢
    have hentry' : (s.aimReload route path params).entry = s.entry := by rw [Store.aimReload_eq]
    exact ⟨⟨params', hentry'.trans hentry, h.entry _ hentry, hsame⟩, haimed,
      hfetched.number_lt _ (hentry'.trans hentry), hfetched.config⟩
  · exact ⟨⟨params, hafter.entry, hparams, sameParams_refl hparams⟩, hafter.reloadTarget ▸ haimed,
      hfetched.number_lt _ hafter.entry, hfetched.config⟩

/-- The live entry is the one for equal parameters. -/
theorem liveEntry? (h : Serves config s path params p) {params' : Option Params}
    (hsame : sameParams params params' = true) : s.liveEntry? path params' = some p := by
  obtain ⟨params₀, hentry, _, hsame₀⟩ := h.entry
  exact Store.liveEntry?_eq_some.mpr ⟨params₀, hentry, sameParams_trans hsame₀ hsame⟩

/-- The live entry is not the one for another path or other parameters. -/
theorem liveEntry?_of_ne (h : Serves config s path params p) {path' : String}
    {params' : Option Params} (hne : (path == path' && sameParams params params') = false) :
    s.liveEntry? path' params' = none := by
  obtain ⟨params₀, hentry, hdistinct, hsame₀⟩ := h.entry
  rw [Store.liveEntry?, hentry]
  refine if_neg ?_
  intro hhit
  rw [Bool.and_eq_true] at hhit
  have hsame := sameParams_trans (sameParams_symm hdistinct hsame₀) hhit.2
  rw [hhit.1, hsame] at hne
  exact absurd hne (by simp)

/-- **One step.** What fetches nothing else leaves the live entry in its place. -/
theorem act {s : Session ρ} (h : Serves config s.store path params p) {a : Action ρ}
    (ha : a.keepsEntry path params = true) : Serves config (s.act a).store path params p := by
  cases s.entryTurn a with
  | untouched _ _ hafter => exact h.sameEntry hafter
  | cleared hclear =>
    subst hclear
    exact absurd ha (by simp [Action.keepsEntry])
  | fetched route path' params' hfetch _ hafter =>
    have hkeeps : (path == path' && sameParams params params') = true := by
      rcases hfetch with rfl | rfl <;> exact ha
    rw [Bool.and_eq_true, beq_iff_eq] at hkeeps
    obtain ⟨rfl, hsame⟩ := hkeeps
    rw [Store.fetch_of_hit (h.liveEntry? hsame)] at hafter
    exact (h.aimReload route path params').sameEntry hafter
  | refetched route path' params' hrefetch _ _ =>
    rcases hrefetch with rfl | ⟨rfl, _⟩ <;> exact absurd ha (by simp [Action.keepsEntry])

theorem run {s : Session ρ} (h : Serves config s.store path params p) {actions : List (Action ρ)}
    (hactions : ∀ a ∈ actions, a.keepsEntry path params = true) :
    Serves config (s.run actions).store path params p :=
  run_induction_of_forall (P := fun s => Serves config s.store path params p)
    (fun _ _ ha h => h.act ha) h hactions

/-- What fetches something else, or drops the entry, supersedes its elements. -/
theorem superseded {s : Session ρ} (h : Serves config s.store path params p) {a : Action ρ}
    (ha : a.keepsEntry path params = false) (hreload : a = .reload → config.hot = true) :
    (∀ p', s.returned? a = some p' → p'.number ≠ p.number) ∧
      (s.act a).store.Past p.number := by
  cases s.entryTurn a with
  | untouched hkeeps _ _ =>
    rcases hkeeps with ⟨hreloads, hnone⟩ | hkeeps
    · exact absurd (h.aimed (hreload hreloads)) (by simp [hnone])
    · exact absurd (hkeeps path params) (by simp [ha])
  | cleared hclear =>
    subst hclear
    exact ⟨fun p hp => absurd hp (by simp [returned?]), .clearEntry h.number_lt⟩
  | fetched route path' params' hfetch hreturned hafter =>
    have hne : (path == path' && sameParams params params') = false := by
      rcases hfetch with rfl | rfl <;> exact ha
    rcases s.store.fetch_cases route path' params' with ⟨_, hentry, hsame, _⟩ | ⟨_, hnumber, hnew⟩
    · have hmiss := h.liveEntry?_of_ne hne
      rw [Store.liveEntry?_eq_some.mpr ⟨_, hentry, hsame⟩] at hmiss
      exact absurd hmiss (by simp)
    · refine ⟨fun p' hp' => ?_, (Store.Past.of_miss h.number_lt hnumber hnew).sameEntry hafter⟩
      rw [hreturned] at hp'
      rw [← Option.some.inj hp', hnumber]
      exact Nat.ne_of_gt h.number_lt
  | refetched route path' params' _ hreturned hafter =>
    obtain ⟨hne, hpast⟩ := (Store.Past.clearEntry h.number_lt).fetch route path' params'
    refine ⟨fun p' hp' => ?_, hpast.sameEntry hafter⟩
    rw [hreturned] at hp'
    exact Option.some.inj hp' ▸ hne

end Serves

/-! ## From one fetch to the next -/

/-- What becomes of elements that the live entry has for a path and parameters. -/
structure Lasts (config : ClientConfig) (s : Session ρ) (path : String) (params : Option Params)
    (p : Promise) : Prop where
  /-- Fetching the same gives them again and does nothing else. -/
  itself : ∀ route, s.store.Reuses route path params p
  /-- So does fetching the path with equal parameters. -/
  equal : ∀ route params', sameParams params params' = true → s.store.Reuses route path params' p
  /-- Fetching something else, fetching anew and dropping the entry supersede them, and no fetch
  gives superseded elements, whatever happens afterwards. -/
  superseded : ∀ a, a.keepsEntry path params = false → (a = .reload → config.hot = true) →
    (∀ p', s.returned? a = some p' → p'.isSame p = false) ∧
      ∀ after b p', ((s.act a).run after).returned? b = some p' → p'.isSame p = false
  /-- At any later time a fetch gives the elements that are live then, or new ones. -/
  later : ∀ after route path' params',
    (∃ p', (s.run after).store.liveEntry? path' params' = some p' ∧
      (s.run after).store.Reuses route path' params' p') ∨
    ((s.run after).store.liveEntry? path' params' = none ∧
      (s.run after).store.Renews route path' params')

theorem Serves.lasts {config : ClientConfig} {s : Session ρ} {path : String}
    {params : Option Params} {p : Promise} (h : Serves config s.store path params p)
    (hparams : distinctParams params = true) : s.Lasts config path params p where
  itself := Store.reuses_of_hit (h.liveEntry? (sameParams_refl hparams))
  equal route _ hsame := Store.reuses_of_hit (h.liveEntry? hsame) route
  superseded a ha hreload := by
    obtain ⟨hne, hpast⟩ := h.superseded ha hreload
    refine ⟨fun p' hp' => beq_eq_false_iff_ne.mpr (hne p' hp'), fun after b p' hp' => ?_⟩
    exact beq_eq_false_iff_ne.mpr ((past_act (past_run hpast after) b).1 p' hp')
  later after route path' params' := by
    cases hlive : (s.run after).store.liveEntry? path' params' with
    | some p' => exact .inl ⟨p', rfl, Store.reuses_of_hit hlive route⟩
    | none => exact .inr ⟨rfl, Store.renews_of_miss hlive route⟩

/-- **The live entry is reused until it is superseded.** Elements are fetched for a path and
parameters, after any run, and then anything happens that neither fetches something else nor drops
the entry. Fetching the same gives the same elements, and superseded elements never come back. -/
theorem live_entry_is_reused_until_superseded (config : ClientConfig)
    {before kept : List (Action ρ)} {path : String} {params : Option Params}
    (hbefore : ∀ a ∈ before, a.distinctKeys = true) (hparams : distinctParams params = true)
    (hkept : ∀ a ∈ kept, a.keepsEntry path params = true) (route : ρ) :
    ((((start ρ config).run before).act (.fetch route path params)).run kept).Lasts config path
      params (((start ρ config).run before).store.fetch route path params).1 := by
  have hserves : Serves config
      (((start ρ config).run before).act (.fetch route path params)).store path params
      (((start ρ config).run before).store.fetch route path params).1 :=
    Serves.of_fetch (EntrySound.run config hbefore) hparams route path
  exact (hserves.run hkept).lasts hparams

/-- An object with two keys as parameters. -/
def keyed : Option Params := some (.value (.object [("x", .bool true), ("y", .null)]))

/-- Elements of a seeded response are live for an object as parameters, also after a prefetch, a
call and a fetch with the keys of the object in another order. -/
theorem keyed_elements_last :
    (∀ a ∈ ([.addTransformer id, .seed "a"] : List (Action Unit)), a.distinctKeys = true) ∧
    distinctParams keyed = true ∧
    (∀ a ∈ ([.prefetch () "b" none, .call () "f#g" [],
        .fetch () "a" (some (.value (.object [("y", .null), ("x", .bool true)])))] :
          List (Action Unit)), a.keepsEntry "a" keyed = true) ∧
    ((((start Unit {}).run [.addTransformer id, .seed "a"]).act (.fetch () "a" keyed)).run
      [.prefetch () "b" none, .call () "f#g" [],
        .fetch () "a" (some (.value (.object [("y", .null), ("x", .bool true)])))]).Lasts
          {} "a" keyed (.payload 0 (.expected 0)) := by
  have hbefore : ∀ a ∈ ([.addTransformer id, .seed "a"] : List (Action Unit)),
      a.distinctKeys = true := by
    simp [Action.distinctKeys]
  have hkeyed : distinctParams keyed = true := by decide
  have hequal : sameParams keyed (some (.value (.object [("y", .null), ("x", .bool true)]))) =
      true := by decide
  have hkept : ∀ a ∈ ([.prefetch () "b" none, .call () "f#g" [],
      .fetch () "a" (some (.value (.object [("y", .null), ("x", .bool true)])))] :
        List (Action Unit)), a.keepsEntry "a" keyed = true := by
    simp [Action.keepsEntry, hequal]
  exact ⟨hbefore, hkeyed, hkept,
    live_entry_is_reused_until_superseded {} hbefore hkeyed hkept ()⟩

end Session

end ServerBoundary.Client
