import ServerBoundary.Proofs.Client.HotReload
import ServerBoundary.Proofs.Client.Listeners
import ServerBoundary.Proofs.Client.ServerCalls

/-!
# Registered functions over a run

Transformers and listeners get their numbers from one counter, and a number unregisters the function
that has it. A store is shared by its views, so that a function is registered for all of them, and
every operation through any of them runs it.

> `registered_functions_run`: after every run the functions are those that were registered and not
> unregistered since, in the order of their registrations; a number takes out its own function and no
> other; and what happens next runs all transformers, each on what the one before it made, or none,
> and tells all listeners or none.

What an operation does to the world is said once (`Store.Does`), and both lists of functions that
ran are read off it.
-/

namespace ServerBoundary.Client

variable {ρ : Type}

/-! ## What runs -/

/-- The transformer that an effect ran, with the input that it was given. -/
def Effect.transformation? : Effect ρ → Option (Nat × FetchInput)
  | transformed registration input => some (registration, input)
  | _ => none

/-- What transformers make of an input, each of what the one before it made. -/
def piped (ts : List (Nat × Transformer)) (input : FetchInput) : FetchInput :=
  ts.foldl (fun made t => t.2 made) input

/-- The numbers of transformers, each with the input that it is given: the first one with the input,
and each other one with what the one before it made. -/
def pipeline (ts : List (Nat × Transformer)) (input : FetchInput) : List (Nat × FetchInput) :=
  (ts.map Prod.fst).zip (ts.scanl (fun made t => t.2 made) input)

/-- The second transformer is given the path to which the first one appended. -/
example :
    let append (part : String) : Transformer :=
      fun input => { input with path := input.path ++ part }
    let ts := [(0, append "/a"), (2, append "/b")]
    (pipeline ts ⟨"page", none, false⟩).map (fun e => (e.1, e.2.path)) =
      [(0, "page"), (2, "page/a")] ∧ (piped ts ⟨"page", none, false⟩).path = "page/a/b" := by
  decide

namespace Store

/-- The transformers that ran, each with its input, oldest first. -/
def transformations (s : Store ρ) : List (Nat × FetchInput) :=
  s.effects.filterMap Effect.transformation?

theorem transformed_eq_piped (ts : List (Nat × Transformer)) (input : FetchInput) :
    transformed ts input = piped ts input := by
  induction ts generalizing input with
  | nil => rfl
  | cons t ts ih => exact ih (t.2 input)

/-- Running the transformers runs them one after the other. -/
theorem filterMap_transformation?_transformEffects (ts : List (Nat × Transformer))
    (input : FetchInput) :
    (transformEffects ts input).filterMap (@Effect.transformation? ρ) = pipeline ts input := by
  induction ts generalizing input with
  | nil => rfl
  | cons t ts ih =>
    rw [pipeline, List.scanl_cons, List.map_cons, List.zip_cons_cons]
    exact congrArg ((t.1, input) :: ·) (ih (t.2 input))

/-! ## What an operation does to the world -/

/-- What a store does to the world when an input is given to its transformers, and a patch to its
listeners: all transformers run, requests go out for what they made of the input, and all listeners
are told. Without an input no transformer runs and nothing is sent, and without a patch no listener
is told. -/
structure Does (s : Store ρ) (given : Option FetchInput) (told : Option Elements) (s' : Store ρ) :
    Prop where
  transformers : s'.transformers = s.transformers
  effects : ∃ sent : List (Nat × ρ × Request),
    s'.effects = s.effects ++ (given.elim [] (transformEffects s.transformers) ++
      sent.map (fun r => .requested r.1 r.2.1 r.2.2) ++
      told.elim [] fun patch => s.listeners.map (.notified · patch)) ∧
    ∀ r ∈ sent, ∃ input, given = some input ∧ s.outgoing input = .ok r.2.2

/-- Two stores with the same transformers and the same effects. -/
structure SameEffects (s s' : Store ρ) : Prop where
  config : s'.config = s.config
  transformers : s'.transformers = s.transformers
  effects : s'.effects = s.effects

theorem SameEffects.refl (s : Store ρ) : s.SameEffects s := ⟨rfl, rfl, rfl⟩

theorem SameEffects.does {s s' : Store ρ} (h : s.SameEffects s') : s.Does none none s' where
  transformers := h.transformers
  effects := ⟨[], by simp [h.effects], fun r hr => absurd hr List.not_mem_nil⟩

theorem Does.after {s s' s'' : Store ρ} {given : Option FetchInput} {told : Option Elements}
    (h : s.Does given told s') (hsame : s'.SameEffects s'') : s.Does given told s'' where
  transformers := hsame.transformers.trans h.transformers
  effects := by
    rw [hsame.effects]
    exact h.effects

/-- What is done without a patch may start in a store with other listeners. -/
theorem Does.before {s s' s'' : Store ρ} {given : Option FetchInput} (hsame : s.SameEffects s')
    (h : s'.Does given none s'') : s.Does given none s'' where
  transformers := h.transformers.trans hsame.transformers
  effects := by
    obtain ⟨sent, heffects, hsent⟩ := h.effects
    rw [hsame.effects, hsame.transformers] at heffects
    refine ⟨sent, heffects, fun r hr => ?_⟩
    obtain ⟨input, hinput, hout⟩ := hsent r hr
    rw [outgoing, reached, hsame.config, hsame.transformers] at hout
    exact ⟨input, hinput, hout⟩

/-- Whoever obtains elements gives an input to the transformers. -/
theorem does_obtain (s : Store ρ) (route : ρ) (input : FetchInput) :
    s.Does (some input) none (s.obtain route input).2 := by
  refine obtain_cases (P := fun o => s.Does (some input) none o.2) ?_ ?_ ?_
  · exact fun _ _ => ⟨rfl, [], by simp, fun r hr => absurd hr List.not_mem_nil⟩
  · intro r _ hr
    refine ⟨rfl, [(s.nextResponse, route, r)], by simp, fun r' hr' => ?_⟩
    rw [List.mem_singleton.mp hr']
    exact ⟨input, rfl, hr⟩
  · exact fun _ _ _ => ⟨rfl, [], by simp, fun r hr => absurd hr List.not_mem_nil⟩

theorem sameEffects_aimReload (s : Store ρ) (route : ρ) (path : String) (params : Option Params) :
    s.SameEffects (s.aimReload route path params) := by
  rw [aimReload]
  split <;> exact ⟨rfl, rfl, rfl⟩

theorem sameEffects_mergeLive (s : Store ρ) (patch : Promise) :
    s.SameEffects (s.mergeLive patch) := by
  rw [mergeLive]
  split <;> exact ⟨rfl, rfl, rfl⟩

/-- A fetch gives its input to the transformers unless it finds the live entry. -/
theorem does_fetch (s : Store ρ) (route : ρ) (path : String) (params : Option Params) :
    s.Does (if (s.liveEntry? path params).isSome then none else some ⟨path, params, false⟩) none
      (s.fetch route path params).2 := by
  have haim := s.sameEffects_aimReload route path params
  cases h : s.liveEntry? path params with
  | some p =>
    rw [fetch_of_hit h]
    exact haim.does
  | none =>
    rw [fetch_of_miss h]
    exact (Does.before haim (does_obtain _ route _)).after ⟨rfl, rfl, rfl⟩

/-- Without the live entry a fetch gives its input to the transformers. -/
theorem does_clearEntry_fetch (s : Store ρ) (route : ρ) (path : String) (params : Option Params) :
    s.Does (some ⟨path, params, false⟩) none (s.clearEntry.fetch route path params).2 := by
  have hclear : s.SameEffects s.clearEntry := ⟨rfl, rfl, rfl⟩
  exact Does.before hclear (s.clearEntry.does_fetch route path params)

theorem does_refetch (s : Store ρ) (route : ρ) (path : String) (params : Option Params) :
    s.Does (some ⟨path, params, false⟩) none (s.refetch route path params).2 := by
  have hfetch := s.does_clearEntry_fetch route path params
  rw [refetch]
  refine Does.after ?_ (sameEffects_mergeLive _ _)
  exact ⟨hfetch.transformers, hfetch.effects⟩

/-- A patch is given to the listeners unless it is empty. -/
theorem does_applyPatch (s : Store ρ) (patch : Elements) :
    s.Does none (if patch.isEmpty then none else some patch) (s.applyPatch patch) := by
  rw [applyPatch]
  split
  next => exact (SameEffects.refl s).does
  next =>
    refine Does.after ?_ (sameEffects_mergeLive _ _)
    exact ⟨rfl, [], by simp, fun r hr => absurd hr List.not_mem_nil⟩

end Store

namespace Session

/-! ## One step -/

/-- The input that something that happens gives to the transformers. A fetch that finds the live
entry gives none, and neither does a prefetch while one like it is parked or a call of an id that
names no function. -/
def given? (s : Session ρ) : Action ρ → Option FetchInput
  | .fetch _ path params =>
    if (s.store.liveEntry? path params).isSome then none else some ⟨path, params, false⟩
  | .mount _ path params =>
    if (s.store.liveEntry? path params).isSome then none else some ⟨path, params, false⟩
  | .prefetch _ path params =>
    if s.store.isPrefetched path params then none else some ⟨path, params, true⟩
  | .call _ id args =>
    match RscPath.ofFunctionId id with
    | .ok path => some ⟨path, some (.ofArguments args), false⟩
    | .error _ => none
  | .refetch _ path params => some ⟨path, params, false⟩
  | .reload => s.store.reloadTarget.map ReloadTarget.input
  | _ => none

/-- The patch that something that happens gives to the listeners: what a call returns besides its
value, if there is anything. -/
def told? (s : Session ρ) : Action ρ → Option Elements
  | .finish call =>
    match s.ending? call with
    | some (.ok elements) =>
      if elements.splitValue.2.isEmpty then none else some elements.splitValue.2
    | _ => none
  | _ => none

/-- **One step.** Whatever happens gives its input to the transformers and its patch to the
listeners, apart from what changes them. -/
theorem does_act (s : Session ρ) {a : Action ρ} (h : a.touchesRegistry = false) :
    s.store.Does (s.given? a) (s.told? a) (s.act a).store := by
  cases a with
  | fetch route path params => exact s.store.does_fetch route path params
  | mount route path params => exact (s.store.does_fetch route path params).after ⟨rfl, rfl, rfl⟩
  | prefetch route path params =>
    rw [act, Store.prefetch, given?]
    split
    next => exact (Store.SameEffects.refl _).does
    next => exact s.store.does_obtain route _
  | call route id args =>
    rw [act, Session.call, Store.call, given?]
    cases RscPath.ofFunctionId id with
    | error f => exact (Store.SameEffects.refl _).does
    | ok path => exact s.store.does_obtain route _
  | finish call =>
    rw [act, Session.finish, told?]
    cases s.ending? call with
    | none => exact (Store.SameEffects.refl _).does
    | some outcome =>
      cases outcome with
      | error e => exact (Store.SameEffects.refl _).does
      | ok elements => exact s.store.does_applyPatch elements.splitValue.2
  | refetch route path params => exact s.store.does_refetch route path params
  | reload =>
    rw [act, Store.reload, given?]
    cases s.store.reloadTarget with
    | none => exact (Store.SameEffects.refl _).does
    | some t =>
      exact (s.store.does_clearEntry_fetch t.route t.path t.params).after ⟨rfl, rfl, rfl⟩
  | deliver response delivery =>
    rw [act, Session.deliver]
    split <;> exact (Store.SameEffects.refl _).does
  | seed => exact Store.SameEffects.does ⟨rfl, rfl, rfl⟩
  | clearEntry => exact Store.SameEffects.does ⟨rfl, rfl, rfl⟩
  | setLive => exact Store.SameEffects.does ⟨rfl, rfl, rfl⟩
  | addTransformer => exact absurd h (by simp [Action.touchesRegistry, Action.registers])
  | addListener => exact absurd h (by simp [Action.touchesRegistry, Action.registers])
  | unregister => exact absurd h (by simp [Action.touchesRegistry])

/-- What runs when something happens: every transformer, each on what the one before it made, if
there is an input for them, and every listener, if there is a patch for them. What is sent is the
request for what the transformers made. -/
structure Runs (s : Session ρ) (a : Action ρ) : Prop where
  transformers : (s.act a).store.transformations = s.store.transformations ++
    match s.given? a with
    | some input => pipeline s.store.transformers input
    | none => []
  listeners : (s.act a).store.notifications = s.store.notifications ++
    match s.told? a with
    | some patch => s.store.listeners.map (·, patch)
    | none => []
  requests : ∃ sent, (s.act a).store.requests = s.store.requests ++ sent ∧
    ∀ r ∈ sent, ∃ input, s.given? a = some input ∧
      Request.ofPath s.store.config (piped s.store.transformers input).path
        (piped s.store.transformers input).params = .ok r.2.2

/-- What runs is read off what is done to the world. -/
theorem runs_of_effects {s : Session ρ} {a : Action ρ} (sent : List (Nat × ρ × Request))
    (heffects : (s.act a).store.effects = s.store.effects ++
      ((s.given? a).elim [] (Store.transformEffects s.store.transformers) ++
        sent.map (fun r => .requested r.1 r.2.1 r.2.2) ++
        (s.told? a).elim [] fun patch => s.store.listeners.map (.notified · patch)))
    (hsent : ∀ r ∈ sent, ∃ input, s.given? a = some input ∧ s.store.outgoing input = .ok r.2.2) :
    s.Runs a where
  transformers := by
    rw [Store.transformations, heffects, List.filterMap_append, Store.transformations]
    cases s.given? a <;> cases s.told? a <;>
      simp [Effect.transformation?, Function.comp_def,
        Store.filterMap_transformation?_transformEffects]
  listeners := by
    rw [Store.notifications, heffects, List.filterMap_append, Store.notifications]
    have hran : ∀ input, (Store.transformEffects s.store.transformers input).filterMap
        (@Effect.notification? ρ) = [] :=
      Store.filterMap_transformEffects_of_none (fun _ _ => rfl) s.store.transformers
    cases s.given? a <;> cases s.told? a <;>
      simp [Effect.notification?, Function.comp_def, hran]
  requests := by
    refine ⟨sent, ?_, fun r hr => ?_⟩
    · rw [Store.requests, heffects, List.filterMap_append, Store.requests]
      cases s.given? a <;> cases s.told? a <;> simp [Effect.request?, Function.comp_def]
    · obtain ⟨input, hinput, hout⟩ := hsent r hr
      rw [Store.outgoing, Store.reached, Store.transformed_eq_piped] at hout
      exact ⟨input, hinput, hout⟩

theorem runs_act (s : Session ρ) (a : Action ρ) : s.Runs a := by
  cases htouches : a.touchesRegistry with
  | false =>
    obtain ⟨-, sent, heffects, hsent⟩ := s.does_act htouches
    exact runs_of_effects sent heffects hsent
  | true =>
    -- What changes the functions runs none of them.
    have hquiet : s.given? a = none ∧ s.told? a = none ∧
        (s.act a).store.effects = s.store.effects := by
      cases a <;> first
        | exact ⟨rfl, rfl, rfl⟩
        | exact absurd htouches (by simp [Action.touchesRegistry, Action.registers])
    obtain ⟨hgiven, htold, heffects⟩ := hquiet
    refine runs_of_effects [] ?_ fun r hr => absurd hr List.not_mem_nil
    rw [hgiven, htold, heffects]
    simp

end Session

/-! ## Runs -/

/-- The actions so far account for the functions of a store. -/
structure FunctionRegistry (s : Store ρ) (actions : List (Action ρ)) : Prop
    extends Registry s actions where
  transformer_mem : ∀ n t, (n, t) ∈ s.transformers ↔ Registered actions (.addTransformer t) n
  transformer_sorted : (s.transformers.map Prod.fst).Pairwise (· < ·)
  transformer_lt : ∀ n ∈ s.transformers.map Prod.fst, n < s.nextRegistration

namespace FunctionRegistry

theorem start (config : ClientConfig) :
    FunctionRegistry ({ config := config } : Store ρ) [] where
  toRegistry := .start config
  transformer_mem n t := by
    constructor
    · intro h
      exact absurd h List.not_mem_nil
    · rintro ⟨i, hi, -⟩
      exact absurd hi (by simp)
  transformer_sorted := List.Pairwise.nil
  transformer_lt _ h := absurd h List.not_mem_nil

/-- **One step.** A transformer comes last, under a number above all others; unregistering takes one
out; nothing else changes the transformers. -/
theorem act {s : Session ρ} {actions : List (Action ρ)} (h : FunctionRegistry s.store actions)
    (a : Action ρ) : FunctionRegistry (s.act a).store (actions ++ [a]) := by
  have hregistry := h.toRegistry.act a
  -- What happens last decides only about itself.
  have hmem : ∀ n t, a ≠ .addTransformer t → a ≠ .unregister n →
      (Registered (actions ++ [a]) (.addTransformer t) n ↔
        Registered actions (.addTransformer t) n) := by
    intro n t hadd hremove
    rw [registered_concat]
    simp [hadd, hremove]
  cases htouches : a.touchesRegistry with
  | false =>
    have hsame := (s.does_act htouches).transformers
    have hnext := (s.sameRegistry_act htouches).nextRegistration
    refine ⟨hregistry, fun n t => ?_, ?_, ?_⟩
    · rw [hsame, hmem n t, h.transformer_mem]
      · rintro rfl
        exact absurd htouches (by simp [Action.touchesRegistry, Action.registers])
      · rintro rfl
        exact absurd htouches (by simp [Action.touchesRegistry])
    · rw [hsame]
      exact h.transformer_sorted
    · rw [hsame, hnext]
      exact h.transformer_lt
  | true =>
    cases a with
    | addTransformer added =>
      have htransformers : (s.act (.addTransformer added)).store.transformers =
          s.store.transformers ++ [(s.store.nextRegistration, added)] := rfl
      refine ⟨hregistry, fun n t => ?_, ?_, fun n hn => ?_⟩
      · rw [htransformers, List.mem_append, List.mem_singleton, registered_concat,
          h.transformer_mem, ← h.next, Prod.mk.injEq]
        simp only [Action.addTransformer.injEq, ne_eq, reduceCtorEq, not_false_eq_true, true_and]
        rw [or_comm, and_comm, eq_comm (a := n), eq_comm (a := t)]
      · rw [htransformers, List.map_append]
        exact pairwise_lt_concat h.transformer_sorted h.transformer_lt
      · rw [htransformers, List.map_append] at hn
        exact lt_succ_of_mem_concat h.transformer_lt hn
    | addListener =>
      refine ⟨hregistry, fun n t => ?_, h.transformer_sorted, fun n hn => ?_⟩
      · rw [hmem n t (by simp) (by simp)]
        exact h.transformer_mem n t
      · exact Nat.lt_succ_of_lt (h.transformer_lt n hn)
    | unregister m =>
      have htransformers : (s.act (.unregister m)).store.transformers =
          s.store.transformers.filter fun t => t.1 != m := rfl
      have hsub : ((s.act (.unregister m)).store.transformers.map Prod.fst).Sublist
          (s.store.transformers.map Prod.fst) := List.filter_sublist.map _
      refine ⟨hregistry, fun n t => ?_, ?_, fun n hn => ?_⟩
      · rw [htransformers, List.mem_filter, h.transformer_mem, registered_concat]
        by_cases hn : n = m
        · simp [hn]
        · simp [hn, Ne.symm hn]
      · exact h.transformer_sorted.sublist hsub
      · exact h.transformer_lt n (hsub.subset hn)
    | _ => exact absurd htouches (by simp [Action.touchesRegistry, Action.registers])

theorem run (config : ClientConfig) (actions : List (Action ρ)) :
    FunctionRegistry ((Session.start ρ config).run actions).store actions :=
  Session.run_account (P := fun s actions => FunctionRegistry s.store actions)
    (fun _ _ a h => h.act a) (.start config) actions

/-- No number is that of a transformer and of a listener. -/
theorem not_mem_listeners {s : Store ρ} {actions : List (Action ρ)} (h : FunctionRegistry s actions)
    {n : Nat} {t : Transformer} (ht : (n, t) ∈ s.transformers) : n ∉ s.listeners := by
  intro hlistener
  have htransformer := (h.transformer_mem n t).mp ht
  have heq := htransformer.inj ((h.mem n).mp hlistener) rfl rfl
  exact absurd heq (by simp)

end FunctionRegistry

/-! ## Unregistering -/

/-- Taking out a number from elements with ascending ones takes out one element at most. -/
theorem exists_filter_eq {α : Type} (number : α → Nat) {l : List α} {x : α}
    (hsorted : (l.map number).Pairwise (· < ·)) (hx : x ∈ l) :
    ∃ before after, l = before ++ x :: after ∧
      (l.filter fun y => number y != number x) = before ++ after := by
  obtain ⟨before, after, rfl⟩ := List.append_of_mem hx
  rw [List.map_append, List.map_cons, List.pairwise_append, List.pairwise_cons] at hsorted
  obtain ⟨-, ⟨hafter, -⟩, hbefore⟩ := hsorted
  refine ⟨before, after, rfl, ?_⟩
  rw [List.filter_append, List.filter_cons_of_neg (by simp), List.filter_eq_self.mpr ?_,
    List.filter_eq_self.mpr ?_]
  · intro y hy
    have hlt := hafter (number y) (List.mem_map_of_mem hy)
    simpa using Nat.ne_of_gt hlt
  · intro y hy
    have hlt := hbefore (number y) (List.mem_map_of_mem hy) (number x) List.mem_cons_self
    simpa using Nat.ne_of_lt hlt

/-- What unregistering a number does: it takes out the function that has the number, which is one
listener or one transformer, and nothing if there is none. -/
structure Store.Removes (s : Store ρ) (n : Nat) (s' : Store ρ) : Prop where
  listener : n ∈ s.listeners → s'.transformers = s.transformers ∧
    ∃ before after, s.listeners = before ++ n :: after ∧ s'.listeners = before ++ after
  transformer : ∀ t, (n, t) ∈ s.transformers → s'.listeners = s.listeners ∧
    ∃ before after, s.transformers = before ++ (n, t) :: after ∧ s'.transformers = before ++ after
  nothing : n ∉ s.listeners → (∀ t, (n, t) ∉ s.transformers) → s' = s

theorem FunctionRegistry.removes {s : Store ρ} {actions : List (Action ρ)}
    (h : FunctionRegistry s actions) (n : Nat) :
    s.Removes n ((s.removeTransformer n).removeListener n) := by
  have hlisteners : n ∉ s.listeners → s.listeners.filter (· != n) = s.listeners := fun hn =>
    List.filter_eq_self.mpr fun m hm => by simpa using fun heq : m = n => hn (heq ▸ hm)
  have htransformers : (∀ t, (n, t) ∉ s.transformers) →
      (s.transformers.filter fun t => t.1 != n) = s.transformers := fun hn =>
    List.filter_eq_self.mpr fun t ht => by simpa using fun heq : t.1 = n => hn t.2 (heq ▸ ht)
  refine ⟨fun hn => ⟨?_, ?_⟩, fun t ht => ⟨?_, ?_⟩, fun hlistener htransformer => ?_⟩
  · exact htransformers fun t ht => h.not_mem_listeners ht hn
  · refine exists_filter_eq id ?_ hn
    rw [List.map_id]
    exact h.sorted
  · exact hlisteners (h.not_mem_listeners ht)
  · exact exists_filter_eq Prod.fst h.transformer_sorted ht
  · rw [Store.removeTransformer, Store.removeListener, htransformers htransformer,
      hlisteners hlistener]

/-- **Registered functions run, in order.** After any run the transformers and the listeners are
those that were registered and not unregistered since, in the order of their registrations. The next
registration gets the number that follows, above all others. A number takes out its own function and
no other, in the place where it stands. And whatever happens next, through any view, runs all
transformers or none and tells all listeners or none; each transformer is given what the one before
it made, and what is sent is the request for what the last one made. -/
theorem Session.registered_functions_run (config : ClientConfig) (actions : List (Action ρ)) :
    let s := (start ρ config).run actions
    FunctionRegistry s.store actions ∧
    ((∀ t, (s.store.addTransformer t).1 = registrations actions) ∧
      s.store.addListener.1 = registrations actions) ∧
    (∀ i j a, i < j → actions[i]? = some a → a.registers = true →
      registrations (actions.take i) < registrations (actions.take j)) ∧
    (∀ n, s.store.Removes n (s.act (.unregister n)).store) ∧
    ∀ a, s.Runs a := by
  intro s
  have hregistry : FunctionRegistry s.store actions := .run config actions
  refine ⟨hregistry, ⟨fun t => hregistry.next, hregistry.next⟩, ?_, hregistry.removes, s.runs_act⟩
  exact fun i j a hij ha hregisters => registrations_take_lt hij ha hregisters

end ServerBoundary.Client
