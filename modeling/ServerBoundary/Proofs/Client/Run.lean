import Mathlib.Data.List.Induction
import ServerBoundary.Client.Session

/-!
# Runs of a session

A run is what happens to a session from its start, one thing after another: operations on its store
through any view, responses that arrive, and calls that end once their elements are known. Responses
arrive and calls end in any order, so that a statement about every run is one about every order.

> `exists_run_settle`: ending all calls whose elements are known is a run, in which calls end and
> nothing else happens.

> `nodup_waiting_run`: no two calls that wait have the same number.
-/

namespace ServerBoundary.Client

variable {ρ : Type}

/-- Something that happens to a session. An operation on the store names the route of its view. -/
inductive Action (ρ : Type) where
  | fetch (route : ρ) (path : String) (params : Option Params)
  | prefetch (route : ρ) (path : String) (params : Option Params)
  | seed (path : String)
  | call (route : ρ) (id : String) (args : List Params)
  /-- A call ends, if its elements are known. -/
  | finish (call : Nat)
  | mount (route : ρ) (path : String) (params : Option Params)
  | refetch (route : ρ) (path : String) (params : Option Params)
  | reload
  | clearEntry
  /-- The live elements become what a function makes of them. -/
  | setLive (update : Option Promise → Promise)
  /-- A response arrives under its number. -/
  | deliver (response : Nat) (delivery : Delivery)
  | addTransformer (transformer : Transformer)
  | addListener
  | unregister (registration : Nat)

namespace Session

/-- The session of a new store. -/
def start (ρ : Type) (config : ClientConfig) : Session ρ := { store := { config := config } }

/-- What the elements of a call that waits came to, if they are known. -/
def ending? (s : Session ρ) (call : Nat) : Option Outcome :=
  match lookup call s.waiting with
  | some p => s.outcome? p
  | none => none

/-- Ends a call, if its elements are known. -/
def finish (s : Session ρ) (call : Nat) : Session ρ :=
  match s.ending? call with
  | none => s
  | some outcome =>
    { s with
      store := (s.store.finishCall outcome).2
      waiting := s.waiting.filter fun w => w.1 != call
      ended := s.ended ++ [(call, (s.store.finishCall outcome).1)] }

/-- The session after something happened. -/
def act (s : Session ρ) : Action ρ → Session ρ
  | .fetch route path params => { s with store := (s.store.fetch route path params).2 }
  | .prefetch route path params => { s with store := s.store.prefetch route path params }
  | .seed path => { s with store := (s.store.seed path).2 }
  | .call route id args => (s.call route id args).2
  | .finish call => s.finish call
  | .mount route path params => { s with store := (s.store.mount route path params).2 }
  | .refetch route path params => { s with store := (s.store.refetch route path params).2 }
  | .reload =>
    match s.store.reload with
    | some (_, store) => { s with store := store }
    | none => s
  | .clearEntry => { s with store := s.store.clearEntry }
  | .setLive update => { s with store := s.store.setLive (update s.store.live) }
  | .deliver response delivery => s.deliver response delivery
  | .addTransformer t => { s with store := (s.store.addTransformer t).2 }
  | .addListener => { s with store := s.store.addListener.2 }
  | .unregister n => { s with store := (s.store.removeTransformer n).removeListener n }

/-- The session after a run. -/
def run (s : Session ρ) (actions : List (Action ρ)) : Session ρ := actions.foldl act s

@[simp] theorem run_nil (s : Session ρ) : s.run [] = s := rfl

@[simp] theorem run_cons (s : Session ρ) (a : Action ρ) (actions : List (Action ρ)) :
    s.run (a :: actions) = (s.act a).run actions := rfl

theorem run_concat (s : Session ρ) (actions : List (Action ρ)) (a : Action ρ) :
    s.run (actions ++ [a]) = (s.run actions).act a := by
  rw [run, List.foldl_append]
  rfl

/-- What the start has and every action of some kind keeps, every run of such actions has. -/
theorem run_induction_of_forall {P : Session ρ → Prop} {Q : Action ρ → Prop}
    (hact : ∀ s a, Q a → P s → P (s.act a)) {s : Session ρ} (hs : P s) {actions : List (Action ρ)}
    (hactions : ∀ a ∈ actions, Q a) : P (s.run actions) := by
  induction actions generalizing s with
  | nil => exact hs
  | cons a actions ih =>
    rw [List.forall_mem_cons] at hactions
    exact ih (hact s a hactions.1 hs) hactions.2

/-- What the start has and every action keeps, every run has. -/
theorem run_induction {P : Session ρ → Prop} (hact : ∀ s a, P s → P (s.act a)) {s : Session ρ}
    (hs : P s) (actions : List (Action ρ)) : P (s.run actions) :=
  run_induction_of_forall (fun s a _ => hact s a) hs fun _ _ => trivial

/-- What actions say of the start, when there are none, and of a session after one more of them, they
say of every run. -/
theorem run_account {P : Session ρ → List (Action ρ) → Prop}
    (hact : ∀ s actions a, P s actions → P (s.act a) (actions ++ [a])) {s : Session ρ} (hs : P s [])
    (actions : List (Action ρ)) : P (s.run actions) actions := by
  induction actions using List.reverseRecOn with
  | nil => exact hs
  | append_singleton actions a ih =>
    rw [run_concat]
    exact hact _ actions a ih

/-! ## Calls that wait -/

theorem lookup_eq_none_iff {α : Type} {n : Nat} {l : List (Nat × α)} :
    lookup n l = none ↔ ∀ e ∈ l, e.1 ≠ n := by
  induction l with
  | nil => simp [lookup]
  | cons e rest ih =>
    obtain ⟨m, a⟩ := e
    rw [lookup, List.forall_mem_cons]
    split
    next h => simp [beq_iff_eq.mp h]
    next h => simp [ih, (bne_iff_ne (a := m)).mp (by simpa using h)]

theorem lookup_append_of_none {α : Type} {n : Nat} {l l' : List (Nat × α)}
    (h : lookup n l = none) : lookup n (l ++ l') = lookup n l' := by
  induction l with
  | nil => rfl
  | cons e rest ih =>
    obtain ⟨m, a⟩ := e
    rw [lookup] at h
    split at h
    next => exact absurd h (by simp)
    next hm => rw [List.cons_append, lookup, if_neg hm, ih h]

theorem lookup_filter {α : Type} (n m : Nat) (l : List (Nat × α)) :
    lookup n (l.filter fun e => e.1 != m) = if n = m then none else lookup n l := by
  induction l with
  | nil => by_cases h : n = m <;> simp [lookup, h]
  | cons e rest ih =>
    obtain ⟨k, a⟩ := e
    by_cases hk : k = m
    · rw [List.filter_cons_of_neg (by simp [hk]), ih, lookup]
      by_cases hn : n = m
      · rw [if_pos hn, if_pos hn]
      · rw [if_neg hn, if_neg hn, if_neg (by simp [hk, Ne.symm hn])]
    · rw [List.filter_cons_of_pos (by simp [hk]), lookup, lookup, ih]
      by_cases hn : n = m
      · rw [if_pos hn, if_pos hn, if_neg (by simp [hn, hk])]
      · rw [if_neg hn, if_neg hn]

/-- Calls that wait have different numbers, below that of the next one. -/
structure WaitingNumbered (s : Session ρ) : Prop where
  nodup : (s.waiting.map Prod.fst).Nodup
  lt : ∀ n ∈ s.waiting.map Prod.fst, n < s.nextCall

theorem WaitingNumbered.act {s : Session ρ} (h : s.WaitingNumbered) (a : Action ρ) :
    (s.act a).WaitingNumbered := by
  cases a with
  | call route id args =>
    rw [Session.act, Session.call]
    cases s.store.call route id args with
    | error f => exact ⟨h.nodup, fun n hn => Nat.lt_succ_of_lt (h.lt n hn)⟩
    | ok r =>
      have hlt : ∀ n ∈ s.waiting.map Prod.fst, n ≠ s.nextCall := fun n hn =>
        Nat.ne_of_lt (h.lt n hn)
      constructor
      · simp only [List.map_append, List.map_cons, List.map_nil]
        rw [List.nodup_append]
        exact ⟨h.nodup, by simp, by simpa using hlt⟩
      · intro n hn
        simp only [List.map_append, List.map_cons, List.map_nil, List.mem_append,
          List.mem_singleton] at hn
        rcases hn with hold | hnew
        · exact Nat.lt_succ_of_lt (h.lt n hold)
        · rw [hnew]
          exact Nat.lt_succ_self _
  | finish call =>
    rw [Session.act, Session.finish]
    cases s.ending? call with
    | none => exact h
    | some outcome =>
      have hsub : ((s.waiting.filter fun w => w.1 != call).map Prod.fst).Sublist
          (s.waiting.map Prod.fst) := List.filter_sublist.map _
      exact ⟨h.nodup.sublist hsub, fun n hn => h.lt n (hsub.subset hn)⟩
  | reload =>
    rw [Session.act]
    split
    next => exact ⟨h.nodup, h.lt⟩
    next => exact h
  | deliver response delivery =>
    rw [Session.act, Session.deliver]
    split
    next => exact h
    next => exact ⟨h.nodup, h.lt⟩
  | _ => exact ⟨h.nodup, h.lt⟩

/-- No two calls that wait have the same number. -/
theorem nodup_waiting_run (config : ClientConfig) (actions : List (Action ρ)) :
    (((start ρ config).run actions).waiting.map Prod.fst).Nodup :=
  have hstart : (start ρ config).WaitingNumbered :=
    ⟨List.nodup_nil, fun _ h => absurd h List.not_mem_nil⟩
  (run_induction (fun _ a h => h.act a) hstart actions).nodup

/-- Ending some of the calls that wait is a run: those that come first stay as they are, and the
others end, one after the other, if their elements are known. -/
theorem exists_run_endKnown (calls : List (Nat × Promise)) (s : Session ρ)
    (h : ((s.waiting ++ calls).map Prod.fst).Nodup) :
    ∃ numbers : List Nat, endKnown calls s =
      ({ s with waiting := s.waiting ++ calls } : Session ρ).run (numbers.map .finish) := by
  induction calls generalizing s with
  | nil =>
    refine ⟨[], ?_⟩
    rw [endKnown, List.append_nil]
    rfl
  | cons w rest ih =>
    obtain ⟨n, p⟩ := w
    rw [endKnown]
    cases ho : s.outcome? p with
    | none =>
      -- The call goes on waiting, behind those that were passed over before it.
      obtain ⟨numbers, hrun⟩ := ih { s with waiting := s.waiting ++ [(n, p)] } (by simpa using h)
      refine ⟨numbers, ?_⟩
      dsimp only
      rw [hrun]
      simp
    | some outcome =>
      dsimp only
      rw [List.map_append, List.nodup_append, List.map_cons, List.nodup_cons] at h
      obtain ⟨hkept, ⟨hn, hrest⟩, hdisjoint⟩ := h
      -- No other call has the number of this one.
      have hbefore : ∀ w ∈ s.waiting, w.1 ≠ n := fun w hw =>
        hdisjoint w.1 (List.mem_map_of_mem hw) n List.mem_cons_self
      have hafter : ∀ w ∈ rest, w.1 ≠ n := fun w hw heq => hn (List.mem_map.mpr ⟨w, hw, heq⟩)
      have hfilter : (s.waiting ++ (n, p) :: rest).filter (fun w => w.1 != n) =
          s.waiting ++ rest := by
        rw [List.filter_append, List.filter_cons_of_neg (by simp),
          List.filter_eq_self.mpr (by simpa using hbefore),
          List.filter_eq_self.mpr (by simpa using hafter)]
      have hending : ({ s with waiting := s.waiting ++ (n, p) :: rest } : Session ρ).ending? n =
          some outcome := by
        rw [ending?]
        dsimp only
        rw [lookup_append_of_none (lookup_eq_none_iff.mpr hbefore), lookup,
          if_pos (beq_self_eq_true n)]
        exact ho
      obtain ⟨numbers, hrun⟩ := ih
        { s with
          store := (s.store.finishCall outcome).2
          ended := s.ended ++ [(n, (s.store.finishCall outcome).1)] }
        (by
          rw [List.map_append, List.nodup_append]
          exact ⟨hkept, hrest, fun a ha b hb => hdisjoint a ha b (List.mem_cons_of_mem _ hb)⟩)
      refine ⟨n :: numbers, ?_⟩
      rw [hrun, List.map_cons, run_cons, act, finish, hending]
      dsimp only
      rw [hfilter]

/-- **Ending all calls whose elements are known is a run,** in which calls end one after the
other. -/
theorem exists_run_settle (config : ClientConfig) (actions : List (Action ρ)) :
    ∃ numbers : List Nat, ((start ρ config).run actions).settle =
      ((start ρ config).run actions).run (numbers.map .finish) := by
  have h := exists_run_endKnown ((start ρ config).run actions).waiting
    { (start ρ config).run actions with waiting := [] }
    (by simpa using nodup_waiting_run config actions)
  simpa [settle] using h

end Session

end ServerBoundary.Client
