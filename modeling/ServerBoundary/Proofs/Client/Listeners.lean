import ServerBoundary.Proofs.Client.Visits

/-!
# Listeners over a run

Functions are registered under numbers that are given out in order, and a number unregisters its
function. `Listens` says of a run, without any store, which listeners it leaves registered: those of
which a registration was not followed by an `unregister` of their number.

> `Session.listeners_run`: after every run the listeners are those that were registered and not
> unregistered since, each of them once and in the order of their registrations.
-/

namespace ServerBoundary.Client

variable {ρ : Type}

/-! ## Registrations of a run -/

/-- Whether something that happens registers a function. -/
def Action.registers : Action ρ → Bool
  | .addTransformer _ => true
  | .addListener => true
  | _ => false

/-- Whether something that happens may change what is registered. -/
def Action.touchesRegistry : Action ρ → Bool
  | .unregister _ => true
  | a => a.registers

/-- How many functions a run registers. -/
def registrations (actions : List (Action ρ)) : Nat := actions.countP Action.registers

/-- A run registers a listener as its `n`-th function and does not unregister it since. -/
def Listens (actions : List (Action ρ)) (n : Nat) : Prop :=
  ∃ i, actions[i]? = some .addListener ∧ registrations (actions.take i) = n ∧
    ∀ j, i < j → actions[j]? ≠ some (.unregister n)

/-- A run does something as its `n`-th registration and does not unregister this number since. -/
def Registered (actions : List (Action ρ)) (a : Action ρ) (n : Nat) : Prop :=
  ∃ i, actions[i]? = some a ∧ registrations (actions.take i) = n ∧
    ∀ j, i < j → actions[j]? ≠ some (.unregister n)

theorem registrations_concat (actions : List (Action ρ)) (a : Action ρ) :
    registrations (actions ++ [a]) = registrations actions + if a.registers then 1 else 0 := by
  rw [registrations, registrations, List.countP_append, List.countP_singleton]

/-- What happens last registers, unregisters, or leaves what is registered. -/
theorem registered_concat {actions : List (Action ρ)} {a b : Action ρ} {n : Nat} :
    Registered (actions ++ [b]) a n ↔
      (b = a ∧ registrations actions = n) ∨ (b ≠ .unregister n ∧ Registered actions a n) := by
  have htake : ∀ i, i ≤ actions.length → (actions ++ [b]).take i = actions.take i := fun i hi =>
    List.take_append_of_le_length hi
  constructor
  · rintro ⟨i, hi, hnumber, hlater⟩
    rcases getElem?_concat_eq_some.mp hi with hold | ⟨rfl, hnew⟩
    · have hlt : i < actions.length := (List.getElem?_eq_some_iff.mp hold).1
      rw [htake i (Nat.le_of_lt hlt)] at hnumber
      refine .inr ⟨fun hlast => ?_, i, hold, hnumber, fun j hj hu => ?_⟩
      · exact hlater _ hlt (getElem?_concat_eq_some.mpr (.inr ⟨rfl, hlast⟩))
      · exact hlater j hj (getElem?_concat_eq_some.mpr (.inl hu))
    · refine .inl ⟨hnew, ?_⟩
      rw [htake _ (Nat.le_refl _), List.take_length] at hnumber
      exact hnumber
  · rintro (⟨rfl, hnumber⟩ | ⟨hne, i, hi, hnumber, hlater⟩)
    · refine ⟨actions.length, getElem?_concat_eq_some.mpr (.inr ⟨rfl, rfl⟩), ?_, fun j hj hu => ?_⟩
      · rw [htake _ (Nat.le_refl _), List.take_length]
        exact hnumber
      · rcases getElem?_concat_eq_some.mp hu with hold | ⟨rfl, _⟩
        · have hlt : j < actions.length := (List.getElem?_eq_some_iff.mp hold).1
          omega
        · omega
    · have hlt : i < actions.length := (List.getElem?_eq_some_iff.mp hi).1
      refine ⟨i, getElem?_concat_eq_some.mpr (.inl hi), ?_, fun j hj hu => ?_⟩
      · rw [htake i (Nat.le_of_lt hlt)]
        exact hnumber
      · rcases getElem?_concat_eq_some.mp hu with hold | ⟨_, hlast⟩
        · exact hlater j hj hold
        · exact hne hlast

/-- What happens last registers a listener, unregisters one, or leaves them. -/
theorem listens_concat {actions : List (Action ρ)} {a : Action ρ} {n : Nat} :
    Listens (actions ++ [a]) n ↔
      (a = .addListener ∧ registrations actions = n) ∨
        (a ≠ .unregister n ∧ Listens actions n) :=
  registered_concat (a := .addListener)

/-- A number that is given out is above all those that were given out before. -/
theorem registrations_take_lt {actions : List (Action ρ)} {a : Action ρ} {i j : Nat} (hij : i < j)
    (ha : actions[i]? = some a) (h : a.registers = true) :
    registrations (actions.take i) < registrations (actions.take j) := by
  have hnext : registrations (actions.take (i + 1)) = registrations (actions.take i) + 1 := by
    rw [List.take_add_one, ha, Option.toList_some, registrations_concat, h, if_pos rfl]
  have hle : registrations (actions.take (i + 1)) ≤ registrations (actions.take j) :=
    (List.take_sublist_take_left hij).countP_le
  omega

/-- A number has one registration. -/
theorem Registered.inj {actions : List (Action ρ)} {a b : Action ρ} {n : Nat}
    (h : Registered actions a n) (h' : Registered actions b n) (ha : a.registers = true)
    (hb : b.registers = true) : a = b := by
  obtain ⟨i, hi, hnumber, -⟩ := h
  obtain ⟨j, hj, hnumber', -⟩ := h'
  rcases Nat.lt_trichotomy i j with hlt | rfl | hgt
  · have := registrations_take_lt hlt hi ha
    omega
  · exact Option.some.inj (hi.symm.trans hj)
  · have := registrations_take_lt hgt hj hb
    omega

/-! ## What leaves the registry as it is -/

namespace Store

/-- Two stores with the same listeners that give out the same number next. -/
structure SameRegistry (s s' : Store ρ) : Prop where
  listeners : s'.listeners = s.listeners
  nextRegistration : s'.nextRegistration = s.nextRegistration

namespace SameRegistry

theorem refl (s : Store ρ) : SameRegistry s s := ⟨rfl, rfl⟩

theorem trans {s s' s'' : Store ρ} (h : SameRegistry s s') (h' : SameRegistry s' s'') :
    SameRegistry s s'' :=
  ⟨h'.listeners.trans h.listeners, h'.nextRegistration.trans h.nextRegistration⟩

end SameRegistry

theorem sameRegistry_obtain (s : Store ρ) (route : ρ) (input : FetchInput) :
    s.SameRegistry (s.obtain route input).2 :=
  obtain_cases (P := fun r => s.SameRegistry r.2) (fun _ _ => ⟨rfl, rfl⟩) (fun _ _ _ => ⟨rfl, rfl⟩)
    (fun _ _ _ => ⟨rfl, rfl⟩)

theorem sameRegistry_fetch (s : Store ρ) (route : ρ) (path : String) (params : Option Params) :
    s.SameRegistry (s.fetch route path params).2 := by
  have haim : s.SameRegistry (s.aimReload route path params) := by
    rw [aimReload]
    split <;> exact ⟨rfl, rfl⟩
  cases h : s.liveEntry? path params with
  | some p =>
    rw [fetch_of_hit h]
    exact haim
  | none =>
    rw [fetch_of_miss h]
    have hobtain := sameRegistry_obtain (s.aimReload route path params) route ⟨path, params, false⟩
    exact ⟨(haim.trans hobtain).listeners, (haim.trans hobtain).nextRegistration⟩

theorem sameRegistry_mergeLive (s : Store ρ) (patch : Promise) :
    s.SameRegistry (s.mergeLive patch) := by
  rw [mergeLive]
  split <;> exact ⟨rfl, rfl⟩

theorem sameRegistry_finishCall (s : Store ρ) (outcome : Outcome) :
    s.SameRegistry (s.finishCall outcome).2 := by
  cases outcome with
  | error e => exact .refl s
  | ok elements =>
    show s.SameRegistry (s.applyPatch elements.splitValue.2)
    rw [applyPatch]
    split
    next => exact .refl s
    next =>
      refine SameRegistry.trans ?_ (sameRegistry_mergeLive _ _)
      exact ⟨rfl, rfl⟩

theorem sameRegistry_refetch (s : Store ρ) (route : ρ) (path : String) (params : Option Params) :
    s.SameRegistry (s.refetch route path params).2 := by
  have hclear : s.SameRegistry s.clearEntry := ⟨rfl, rfl⟩
  have hfetch := hclear.trans (s.clearEntry.sameRegistry_fetch route path params)
  rw [refetch]
  refine SameRegistry.trans ?_ (sameRegistry_mergeLive _ _)
  exact ⟨hfetch.listeners, hfetch.nextRegistration⟩

end Store

namespace Session

/-- Only registering and unregistering change what is registered. -/
theorem sameRegistry_act (s : Session ρ) {a : Action ρ} (h : a.touchesRegistry = false) :
    s.store.SameRegistry (s.act a).store := by
  cases a with
  | fetch route path params => exact s.store.sameRegistry_fetch route path params
  | mount route path params =>
    have hfetch := s.store.sameRegistry_fetch route path params
    exact ⟨hfetch.listeners, hfetch.nextRegistration⟩
  | prefetch route path params =>
    rw [act, Store.prefetch]
    split
    next => exact .refl _
    next => exact s.store.sameRegistry_obtain route _
  | call route id args =>
    rw [act, Session.call, Store.call]
    cases RscPath.ofFunctionId id with
    | error f => exact .refl _
    | ok path => exact s.store.sameRegistry_obtain route _
  | finish call =>
    rw [act, Session.finish]
    split
    next => exact .refl _
    next => exact s.store.sameRegistry_finishCall _
  | refetch route path params => exact s.store.sameRegistry_refetch route path params
  | reload =>
    rw [act, Store.reload]
    cases s.store.reloadTarget with
    | none => exact .refl _
    | some t =>
      have hclear : s.store.SameRegistry s.store.clearEntry := ⟨rfl, rfl⟩
      have hfetch := hclear.trans (s.store.clearEntry.sameRegistry_fetch t.route t.path t.params)
      exact ⟨hfetch.listeners, hfetch.nextRegistration⟩
  | deliver response delivery =>
    rw [act, Session.deliver]
    split <;> exact .refl _
  | seed => exact ⟨rfl, rfl⟩
  | clearEntry => exact ⟨rfl, rfl⟩
  | setLive => exact ⟨rfl, rfl⟩
  | addTransformer => exact absurd h (by simp [Action.touchesRegistry, Action.registers])
  | addListener => exact absurd h (by simp [Action.touchesRegistry, Action.registers])
  | unregister => exact absurd h (by simp [Action.touchesRegistry])

end Session

/-! ## Runs -/

/-- A number above all others may follow them. -/
theorem pairwise_lt_concat {l : List Nat} {n : Nat} (h : l.Pairwise (· < ·))
    (hlt : ∀ m ∈ l, m < n) : (l ++ [n]).Pairwise (· < ·) := by
  rw [List.pairwise_append]
  refine ⟨h, List.pairwise_singleton _ _, fun m hm k hk => ?_⟩
  rw [List.mem_singleton.mp hk]
  exact hlt m hm

theorem lt_succ_of_mem_concat {l : List Nat} {n m : Nat} (hlt : ∀ m ∈ l, m < n)
    (hm : m ∈ l ++ [n]) : m < n + 1 := by
  rcases List.mem_append.mp hm with hold | hnew
  · exact Nat.lt_succ_of_lt (hlt m hold)
  · rw [List.mem_singleton.mp hnew]
    exact Nat.lt_succ_self n

/-- The actions so far account for the listeners of a store. -/
structure Registry (s : Store ρ) (actions : List (Action ρ)) : Prop where
  next : s.nextRegistration = registrations actions
  mem : ∀ n, n ∈ s.listeners ↔ Listens actions n
  sorted : s.listeners.Pairwise (· < ·)
  lt : ∀ n ∈ s.listeners, n < s.nextRegistration

namespace Registry

theorem start (config : ClientConfig) : Registry ({ config := config } : Store ρ) [] where
  next := rfl
  mem n := by
    constructor
    · intro h
      exact absurd h List.not_mem_nil
    · rintro ⟨i, hi, -⟩
      exact absurd hi (by simp)
  sorted := List.Pairwise.nil
  lt _ h := absurd h List.not_mem_nil

/-- **One step.** A listener comes last, under a number above all others; unregistering takes one
out; nothing else changes the listeners. -/
theorem act {s : Session ρ} {actions : List (Action ρ)} (h : Registry s.store actions)
    (a : Action ρ) : Registry (s.act a).store (actions ++ [a]) := by
  -- What happens last decides only about itself.
  have hmem : ∀ n, a ≠ .addListener → a ≠ .unregister n →
      (Listens (actions ++ [a]) n ↔ Listens actions n) := by
    intro n hadd hremove
    rw [listens_concat]
    simp [hadd, hremove]
  cases htouches : a.touchesRegistry with
  | false =>
    have hsame := s.sameRegistry_act htouches
    have hadd : a ≠ .addListener := by
      rintro rfl
      exact absurd htouches (by simp [Action.touchesRegistry, Action.registers])
    have hremove : ∀ n, a ≠ .unregister n := by
      rintro n rfl
      exact absurd htouches (by simp [Action.touchesRegistry])
    have hregisters : a.registers = false := by
      cases a <;> first | rfl | exact htouches
    constructor
    · rw [hsame.nextRegistration, h.next, registrations_concat, hregisters]
      rfl
    · intro n
      rw [hsame.listeners, hmem n hadd (hremove n)]
      exact h.mem n
    · rw [hsame.listeners]
      exact h.sorted
    · rw [hsame.listeners, hsame.nextRegistration]
      exact h.lt
  | true =>
    cases a with
    | addTransformer t =>
      constructor
      · rw [registrations_concat, ← h.next]
        rfl
      · intro n
        rw [hmem n (by simp) (by simp)]
        exact h.mem n
      · exact h.sorted
      · exact fun n hn => Nat.lt_succ_of_lt (h.lt n hn)
    | addListener =>
      have hlisteners : (s.act .addListener).store.listeners =
          s.store.listeners ++ [s.store.nextRegistration] := rfl
      constructor
      · rw [registrations_concat, ← h.next]
        rfl
      · intro n
        rw [hlisteners, List.mem_append, List.mem_singleton, listens_concat, h.mem, h.next]
        simp only [true_and, ne_eq, reduceCtorEq, not_false_eq_true]
        rw [or_comm, eq_comm]
      · rw [hlisteners]
        exact pairwise_lt_concat h.sorted h.lt
      · intro n hn
        rw [hlisteners] at hn
        exact lt_succ_of_mem_concat h.lt hn
    | unregister m =>
      have hlisteners : (s.act (.unregister m)).store.listeners =
          s.store.listeners.filter (· != m) := rfl
      have hnext : (s.act (.unregister m)).store.nextRegistration = s.store.nextRegistration := rfl
      constructor
      · rw [registrations_concat, hnext, h.next]
        rfl
      · intro n
        rw [hlisteners, List.mem_filter, h.mem, listens_concat]
        by_cases hn : n = m
        · simp [hn]
        · simp [hn, Ne.symm hn]
      · rw [hlisteners]
        exact h.sorted.sublist List.filter_sublist
      · intro n hn
        rw [hlisteners] at hn
        exact h.lt n (List.mem_filter.mp hn).1
    | _ => exact absurd htouches (by simp [Action.touchesRegistry, Action.registers])

theorem run (config : ClientConfig) (actions : List (Action ρ)) :
    Registry ((Session.start ρ config).run actions).store actions :=
  Session.run_account (P := fun s actions => Registry s.store actions) (fun _ _ a h => h.act a)
    (.start config) actions

end Registry

/-- **The listeners of a run** are those that it registered and did not unregister since, each of
them once and in the order of their registrations. -/
theorem Session.listeners_run (config : ClientConfig) (actions : List (Action ρ)) :
    ((start ρ config).run actions).store.listeners.Pairwise (· < ·) ∧
      ∀ n, n ∈ ((start ρ config).run actions).store.listeners ↔ Listens actions n := by
  have hregistry := Registry.run config actions
  exact ⟨hregistry.sorted, hregistry.mem⟩

end ServerBoundary.Client
