import ServerBoundary.Proofs.Client.LiveEntry
import ServerBoundary.Proofs.Client.Parking

/-!
# Hot reloads

A reload fetches again what was fetched last: the path and the parameters as the caller gave them,
through the route of the caller. Mounting a root, a refetch and a reload are fetches too; a prefetch
and the call of a server function are not.

> `reload_follows_the_last_fetch`: after every run a reload is possible exactly if reloads are on and
> something was fetched. It drops the live entry, adopts the response parked for what the
> transformers make of the last fetch or else sends one request, and the live elements become what it
> obtained.

Where the aim of a reload is kept is one field of the store, and `Session.reloadTarget_act` says what
one step makes of it; the run is then an induction from its end.
-/

namespace ServerBoundary.Client

variable {ρ : Type}

/-- A transformer that leaves alone whether its input is one of a prefetch. -/
def Transformer.KeepsPurpose (t : Transformer) : Prop :=
  ∀ input, (t input).prefetchOnly = input.prefetchOnly

/-- The input with which a reload fetches its target: the one that the caller gave. -/
def ReloadTarget.input (t : ReloadTarget ρ) : FetchInput := ⟨t.path, t.params, false⟩

/-- What an action fetches, and through which route. What a reload fetches is what was fetched last,
so that it does not count as something new. -/
def Action.fetched? : Action ρ → Option (ReloadTarget ρ)
  | .fetch route path params => some ⟨path, params, route⟩
  | .mount route path params => some ⟨path, params, route⟩
  | .refetch route path params => some ⟨path, params, route⟩
  | _ => none

/-- What a run fetched last. -/
def lastFetched? (actions : List (Action ρ)) : Option (ReloadTarget ρ) :=
  (actions.filterMap Action.fetched?).getLast?

/-- What happens last is what was fetched last, if it fetches anything. -/
theorem lastFetched?_concat (actions : List (Action ρ)) (a : Action ρ) :
    lastFetched? (actions ++ [a]) = a.fetched?.or (lastFetched? actions) := by
  rw [lastFetched?, List.filterMap_append]
  cases h : a.fetched? with
  | none => simp [h, lastFetched?]
  | some t => simp [h]

theorem lastFetched?_eq_none_iff {actions : List (Action ρ)} :
    lastFetched? actions = none ↔ ∀ a ∈ actions, a.fetched? = none := by
  rw [lastFetched?, List.getLast?_eq_none_iff, List.filterMap_eq_nil_iff]

namespace Store

/-! ## One reload -/

/-- What a reload of a target does to a store: its elements `p`, and the store after it. -/
structure Reloads (s : Store ρ) (t : ReloadTarget ρ) (p : Promise) (after : Store ρ) : Prop where
  /-- A response that is parked under the path which the transformers make of the target, and that
  suits its parameters, is adopted. The transformers run, and nothing is sent. -/
  adopts : ∀ parked, s.parked.get? (s.reached t.input).path = some parked →
    parked.suits (s.reached t.input).params = true →
      p = .payload s.nextPromise parked.response ∧
        after.effects = s.effects ++ transformEffects s.transformers t.input
  /-- Without such a response one request is sent, through the route of the target. -/
  asks : (∀ parked, s.parked.get? (s.reached t.input).path = some parked →
      parked.suits (s.reached t.input).params = false) →
    ∀ r, Request.ofPath s.config (s.reached t.input).path (s.reached t.input).params = .ok r →
      p = .payload s.nextPromise (.expected s.nextResponse) ∧
        after.effects = s.effects ++ transformEffects s.transformers t.input ++
          [.requested s.nextResponse t.route r]
  /-- Nothing is sent for a path without an encoding. -/
  fails : (∀ parked, s.parked.get? (s.reached t.input).path = some parked →
      parked.suits (s.reached t.input).params = false) →
    ∀ f, Request.ofPath s.config (s.reached t.input).path (s.reached t.input).params = .error f →
      p = .payload s.nextPromise (.failed (.invalidPath f)) ∧
        after.effects = s.effects ++ transformEffects s.transformers t.input
  /-- Nothing stays parked under the path. -/
  parked : after.parked = s.parked.erase (s.reached t.input).path
  /-- The live entry is the target as the caller gave it, with the new elements. -/
  entry : after.entry = some ⟨t.path, t.params, p⟩
  /-- The live elements are the new ones, and nothing is merged over them. -/
  live : after.live = some p
  target : after.reloadTarget = some t

/-- Transformers that leave it alone whether an input is one of a prefetch do so one after the
other. -/
theorem reached_prefetchOnly_eq {s : Store ρ} (h : ∀ t ∈ s.transformers, t.2.KeepsPurpose)
    (input : FetchInput) : (s.reached input).prefetchOnly = input.prefetchOnly := by
  have hall : ∀ (ts : List (Nat × Transformer)) (input : FetchInput),
      (∀ t ∈ ts, t.2.KeepsPurpose) → (transformed ts input).prefetchOnly = input.prefetchOnly := by
    intro ts
    induction ts with
    | nil => exact fun _ _ => rfl
    | cons t ts ih =>
      intro input h
      rw [List.forall_mem_cons] at h
      exact (ih (t.2 input) h.2).trans (h.1 input)
  exact hall s.transformers input h

/-- An input that is not one of a prefetch adopts what suits it, and nothing else. -/
theorem adopted?_eq_some_iff {s : Store ρ} {input : FetchInput}
    (h : (s.reached input).prefetchOnly = false) {response : PendingResponse} :
    s.adopted? input = some response ↔
      ∃ parked, s.parked.get? (s.reached input).path = some parked ∧
        parked.suits (s.reached input).params = true ∧ parked.response = response := by
  rw [adopted?, adoptable_eq_some]
  simp only [h, true_and]

/-- **One reload.** Where the transformers leave it alone whether an input is one of a prefetch, a
fetch without the live entry obtains the target anew. -/
theorem reloads_clearEntry_fetch {s : Store ρ} {t : ReloadTarget ρ} (hhot : s.config.hot = true)
    (h : ∀ t ∈ s.transformers, t.2.KeepsPurpose) :
    s.Reloads t (s.clearEntry.fetch t.route t.path t.params).1
      ((s.clearEntry.fetch t.route t.path t.params).2.setLive
        (s.clearEntry.fetch t.route t.path t.params).1) := by
  have hkept : (s.reached t.input).prefetchOnly = false := reached_prefetchOnly_eq h t.input
  -- The store that obtains the elements: without an entry, and with the target it has already.
  have haimed : s.clearEntry.aimReload t.route t.path t.params =
      { s with entry := none, reloadTarget := some t } := if_pos hhot
  have hparked : ∀ response, s.parkedAfter t.input response =
      s.parked.erase (s.reached t.input).path := fun response => by
    rw [parkedAfter, hkept]
    rfl
  rw [fetch_of_miss (live_clearEntry s t.path t.params), haimed]
  refine obtain_cases (s := { s with entry := none, reloadTarget := some t })
    (P := fun o => s.Reloads t o.1
      (({ o.2 with entry := some ⟨t.path, t.params, o.1⟩ } : Store ρ).setLive o.1)) ?_ ?_ ?_
  · intro response hadopted
    obtain ⟨parked, hget, hsuits, rfl⟩ := (adopted?_eq_some_iff hkept).mp hadopted
    refine ⟨fun parked' hget' _ => ?_, fun hunsuited => ?_, fun hunsuited => ?_, hparked _, rfl, rfl,
      rfl⟩
    · cases hget.symm.trans hget'
      exact ⟨rfl, rfl⟩
    · exact absurd (hunsuited parked hget) (by simp [hsuits])
    · exact absurd (hunsuited parked hget) (by simp [hsuits])
  · intro r hnone hr
    refine ⟨fun parked hget hsuits => ?_, fun _ r' hr' => ?_, fun _ f hf => ?_, hparked _, rfl, rfl,
      rfl⟩
    · have hsome := (adopted?_eq_some_iff (s := s) hkept).mpr ⟨parked, hget, hsuits, rfl⟩
      exact absurd (hsome.symm.trans hnone) (by simp)
    · cases hr.symm.trans hr'
      exact ⟨rfl, rfl⟩
    · exact absurd (hr.symm.trans hf) (by simp)
  · intro f hnone hf
    refine ⟨fun parked hget hsuits => ?_, fun _ r hr => ?_, fun _ f' hf' => ?_, hparked _, rfl, rfl,
      rfl⟩
    · have hsome := (adopted?_eq_some_iff (s := s) hkept).mpr ⟨parked, hget, hsuits, rfl⟩
      exact absurd (hsome.symm.trans hnone) (by simp)
    · exact absurd (hf.symm.trans hr) (by simp)
    · cases hf.symm.trans hf'
      exact ⟨rfl, rfl⟩

theorem fetch_reloadTarget (s : Store ρ) (route : ρ) (path : String) (params : Option Params) :
    (s.fetch route path params).2.config = s.config ∧
      (s.fetch route path params).2.reloadTarget =
        if s.config.hot then some ⟨path, params, route⟩ else s.reloadTarget := by
  rcases s.fetch_cases route path params with ⟨_, _, _, hafter⟩ | ⟨_, _, hafter⟩
  · rw [hafter, aimReload_eq]
    exact ⟨rfl, rfl⟩
  · have hconfig := hafter.config
    have htarget := hafter.reloadTarget
    rw [renewed, aimReload_eq] at hconfig htarget
    exact ⟨hconfig, htarget⟩

end Store

namespace Session

/-! ## The aim of a reload over a run -/

/-- What fetches gives elements to the one who asked for them. -/
theorem fetched?_eq_none_of_returned? {s : Session ρ} {a : Action ρ} (h : s.returned? a = none) :
    a.fetched? = none := by
  cases a <;> first | rfl | exact absurd h (by simp [returned?])

/-- **One step.** What is fetched becomes the target of a reload, if reloads are on; nothing else
changes the target. -/
theorem reloadTarget_act (s : Session ρ) (a : Action ρ) :
    (s.act a).store.config = s.store.config ∧
      (s.act a).store.reloadTarget =
        if s.store.config.hot then a.fetched?.or s.store.reloadTarget
        else s.store.reloadTarget := by
  cases s.entryTurn a with
  | untouched _ hreturned hafter =>
    rw [fetched?_eq_none_of_returned? hreturned, hafter.config, hafter.reloadTarget]
    exact ⟨rfl, by simp⟩
  | cleared hclear =>
    subst hclear
    exact ⟨rfl, by simp [act, Store.clearEntry, Action.fetched?]⟩
  | fetched route path params hfetch _ hafter =>
    obtain ⟨hconfig, htarget⟩ := s.store.fetch_reloadTarget route path params
    have hfetched : a.fetched? = some ⟨path, params, route⟩ := by
      rcases hfetch with rfl | rfl <;> rfl
    rw [hafter.config, hafter.reloadTarget, hconfig, htarget, hfetched]
    exact ⟨rfl, rfl⟩
  | refetched route path params hrefetch _ hafter =>
    obtain ⟨hconfig, htarget⟩ := s.store.clearEntry.fetch_reloadTarget route path params
    refine ⟨hafter.config.trans hconfig, (hafter.reloadTarget.trans htarget).trans ?_⟩
    rcases hrefetch with rfl | ⟨rfl, hold⟩
    · rfl
    · -- A reload fetches its target, which is the target already.
      show (if s.store.config.hot then _ else s.store.reloadTarget) = _
      rw [hold]
      rfl

/-- **The aim of a reload** after a run is what the run fetched last, if reloads are on. -/
theorem reloadTarget_run (config : ClientConfig) (actions : List (Action ρ)) :
    ((start ρ config).run actions).store.config = config ∧
      ((start ρ config).run actions).store.reloadTarget =
        if config.hot then lastFetched? actions else none := by
  refine run_account (P := fun s actions => s.store.config = config ∧
    s.store.reloadTarget = if config.hot then lastFetched? actions else none) ?_
    ⟨rfl, by simp [start, lastFetched?]⟩ actions
  intro s actions a ih
  obtain ⟨hconfig, htarget⟩ := reloadTarget_act s a
  rw [hconfig, htarget, ih.1, ih.2, lastFetched?_concat]
  refine ⟨rfl, ?_⟩
  cases config.hot <;> rfl

/-- **A reload follows the last fetch.** After every run the target of a reload is what the run
fetched last, if reloads are on. Without a target a reload gives nothing and changes nothing. With
one, and with transformers that leave it alone whether an input is one of a prefetch, it fetches the
target anew. -/
theorem reload_follows_the_last_fetch (config : ClientConfig) (actions : List (Action ρ))
    (htransformers : ∀ t ∈ ((start ρ config).run actions).store.transformers,
      t.2.KeepsPurpose) :
    let s := (start ρ config).run actions
    s.store.reloadTarget = (if config.hot then lastFetched? actions else none) ∧
    (s.store.reload = none ↔ config.hot = false ∨ ∀ a ∈ actions, a.fetched? = none) ∧
    (s.store.reload = none → s.act .reload = s) ∧
    ∀ t, config.hot = true → lastFetched? actions = some t →
      ∃ p after, s.store.reload = some (p, after) ∧ s.act .reload = { s with store := after } ∧
        s.store.Reloads t p after := by
  intro s
  obtain ⟨hconfig, htarget⟩ := reloadTarget_run config actions
  refine ⟨htarget, ?_, ?_, ?_⟩
  · have hnone : s.store.reload = none ↔ s.store.reloadTarget = none := by
      rw [Store.reload]
      cases s.store.reloadTarget <;> simp
    rw [hnone, htarget, ← lastFetched?_eq_none_iff]
    cases config.hot <;> simp
  · intro hnone
    rw [act, hnone]
  · intro t hhot hlast
    rw [hhot, hlast] at htarget
    have hreload : s.store.reload = some
        ((s.store.clearEntry.fetch t.route t.path t.params).1,
          (s.store.clearEntry.fetch t.route t.path t.params).2.setLive
            (s.store.clearEntry.fetch t.route t.path t.params).1) := by
      rw [Store.reload, show s.store.reloadTarget = some t from htarget]
    refine ⟨_, _, hreload, ?_, Store.reloads_clearEntry_fetch ?_ htransformers⟩
    · rw [act, hreload]
    · rw [show s.store.config = config from hconfig]
      exact hhot

/-- A run on a client with reloads, through three views. The last fetch is the refetch of `b` through
the view `enhanced`; a response for `b/en` comes with the document after it, and a call and a
prefetch follow. -/
def hotRun : List (Action String) :=
  [.addTransformer fun input => { input with path := input.path ++ "/en" }, .mount "main" "a" keyed,
    .refetch "enhanced" "b" none, .seed "b/en", .call "main" "f#g" [], .prefetch "other" "c" keyed]

/-- The reload adopts the response for `b/en`, so it sends nothing: the requests of `main`, `enhanced`
and `other` from before are all there is. -/
theorem refetched_page_is_reloaded :
    let s := (start String { hot := true }).run hotRun
    (∀ t ∈ s.store.transformers, t.2.KeepsPurpose) ∧
    lastFetched? hotRun = some ⟨"b", none, "enhanced"⟩ ∧
    (∃ p after, s.store.reload = some (p, after) ∧ s.act .reload = { s with store := after } ∧
      s.store.Reloads ⟨"b", none, "enhanced"⟩ p after ∧
      p = .payload s.store.nextPromise (.expected 2)) ∧
    (s.act .reload).store.requests.map (fun r => (r.1, r.2.1)) =
      [(0, "main"), (1, "enhanced"), (3, "main"), (4, "other")] := by
  intro s
  have htransformers : ∀ t ∈ s.store.transformers, t.2.KeepsPurpose := fun t ht => by
    rw [List.mem_singleton.mp ht]
    exact fun _ => rfl
  obtain ⟨-, -, -, hreload⟩ := reload_follows_the_last_fetch { hot := true } hotRun htransformers
  obtain ⟨p, after, hsome, hact, hreloads⟩ := hreload ⟨"b", none, "enhanced"⟩ rfl rfl
  refine ⟨htransformers, rfl, ⟨p, after, hsome, hact, hreloads, ?_⟩, rfl⟩
  exact (hreloads.adopts (.seeded (.expected 2)) rfl rfl).1

end Session

end ServerBoundary.Client
