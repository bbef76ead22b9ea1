import ServerBoundary.Proofs.Client.Run

/-!
# The course of a call

A call of a server function has a number. It waits for a promise until it is ended, and then it is
over for good. `Session.callTurn` says once what anything that happens may do to the calls of a
session, and everything else is read off it.

> `Waits.run`: a call that waits for a promise waits for the same one until it has a result.

> `Over.returned`: a call that is over keeps its result, and ending it again does nothing.
-/

namespace ServerBoundary.Client

namespace Session

variable {ρ : Type}

/-! ## Looking up calls -/

theorem lookup_append_of_some {α : Type} {n : Nat} {l l' : List (Nat × α)} {a : α}
    (h : lookup n l = some a) : lookup n (l ++ l') = some a := by
  induction l with
  | nil => exact absurd h (by simp [lookup])
  | cons e rest ih =>
    obtain ⟨m, b⟩ := e
    rw [List.cons_append, lookup]
    rw [lookup] at h
    split at h
    next hm => rw [if_pos hm, h]
    next hm => rw [if_neg hm, ih h]

/-- A number that was not there is there after another was added. -/
theorem lookup_concat {α : Type} {n m : Nat} {l : List (Nat × α)} {a : α}
    (h : lookup n l = none) : lookup n (l ++ [(m, a)]) = if m = n then some a else none := by
  rw [lookup_append_of_none h, lookup]
  by_cases hm : m = n
  · rw [if_pos hm, if_pos (by simpa using hm)]
  · rw [if_neg hm, if_neg (by simpa using hm), lookup]

theorem lookup_eq_none_of_lt {α : Type} {n : Nat} {l : List (Nat × α)} (h : ∀ e ∈ l, e.1 < n) :
    lookup n l = none :=
  lookup_eq_none_iff.mpr fun e he => Nat.ne_of_lt (h e he)

/-! ## One step -/

/-- What happens to a session does nothing about its calls, starts one, refuses one or ends one. -/
inductive CallTurn (s : Session ρ) (a : Action ρ) : Prop where
  | nothing (hwaiting : (s.act a).waiting = s.waiting) (hended : (s.act a).ended = s.ended)
      (hnext : (s.act a).nextCall = s.nextCall)
  | started (p : Promise) (hwaiting : (s.act a).waiting = s.waiting ++ [(s.nextCall, p)])
      (hended : (s.act a).ended = s.ended) (hnext : (s.act a).nextCall = s.nextCall + 1)
  | refused (r : CallResult) (hwaiting : (s.act a).waiting = s.waiting)
      (hended : (s.act a).ended = s.ended ++ [(s.nextCall, r)])
      (hnext : (s.act a).nextCall = s.nextCall + 1)
  | finished (n : Nat) (outcome : Outcome) (hfinish : a = .finish n)
      (hending : s.ending? n = some outcome)
      (hwaiting : (s.act a).waiting = s.waiting.filter fun w => w.1 != n)
      (hended : (s.act a).ended = s.ended ++ [(n, (s.store.finishCall outcome).1)])
      (hnext : (s.act a).nextCall = s.nextCall)

/-- Everything that happens to a session is of one of the four kinds. -/
theorem callTurn (s : Session ρ) (a : Action ρ) : s.CallTurn a := by
  cases a with
  | call route id args =>
    cases hcall : s.store.call route id args with
    | error f =>
      refine .refused (.error (.invalidFunctionId f)) ?_ ?_ ?_ <;> rw [act, Session.call, hcall]
    | ok r =>
      refine .started r.1 ?_ ?_ ?_ <;> rw [act, Session.call, hcall]
  | finish n =>
    cases hending : s.ending? n with
    | none =>
      have hsame : s.act (.finish n) = s := by rw [act, Session.finish, hending]
      exact .nothing (by rw [hsame]) (by rw [hsame]) (by rw [hsame])
    | some outcome =>
      refine .finished n outcome rfl hending ?_ ?_ ?_ <;> rw [act, Session.finish, hending]
  | reload =>
    refine .nothing ?_ ?_ ?_ <;> rw [act] <;> split <;> rfl
  | deliver response delivery =>
    refine .nothing ?_ ?_ ?_ <;> rw [act, Session.deliver] <;> split <;> rfl
  | _ => exact .nothing rfl rfl rfl

/-- The calls of a session have numbers below that of the next one. -/
structure CallsNumbered (s : Session ρ) : Prop where
  waiting : ∀ w ∈ s.waiting, w.1 < s.nextCall
  ended : ∀ e ∈ s.ended, e.1 < s.nextCall

theorem lookup_waiting_of_ending? {s : Session ρ} {n : Nat} {outcome : Outcome}
    (h : s.ending? n = some outcome) :
    ∃ p, lookup n s.waiting = some p ∧ s.outcome? p = some outcome := by
  rw [ending?] at h
  split at h
  next p hp => exact ⟨p, hp, h⟩
  next => exact absurd h (by simp)

theorem CallsNumbered.act {s : Session ρ} (h : s.CallsNumbered) (a : Action ρ) :
    (s.act a).CallsNumbered := by
  cases s.callTurn a with
  | nothing hwaiting hended hnext =>
    constructor
    · rw [hwaiting, hnext]
      exact h.waiting
    · rw [hended, hnext]
      exact h.ended
  | started p hwaiting hended hnext =>
    constructor
    · rw [hwaiting, hnext, List.forall_mem_append]
      refine ⟨fun w hw => Nat.lt_succ_of_lt (h.waiting w hw), fun w hw => ?_⟩
      rw [List.mem_singleton.mp hw]
      exact Nat.lt_succ_self _
    · rw [hended, hnext]
      exact fun e he => Nat.lt_succ_of_lt (h.ended e he)
  | refused r hwaiting hended hnext =>
    constructor
    · rw [hwaiting, hnext]
      exact fun w hw => Nat.lt_succ_of_lt (h.waiting w hw)
    · rw [hended, hnext, List.forall_mem_append]
      refine ⟨fun e he => Nat.lt_succ_of_lt (h.ended e he), fun e he => ?_⟩
      rw [List.mem_singleton.mp he]
      exact Nat.lt_succ_self _
  | finished n outcome _ hending hwaiting hended hnext =>
    -- Whatever ends has waited, so that its number is not new.
    have hlt : n < s.nextCall := by
      obtain ⟨p, hp, -⟩ := lookup_waiting_of_ending? hending
      refine Classical.byContradiction fun hge => ?_
      have hnone : lookup n s.waiting = none :=
        lookup_eq_none_of_lt fun w hw => by have := h.waiting w hw; omega
      rw [hnone] at hp
      exact absurd hp (by simp)
    constructor
    · rw [hwaiting, hnext]
      exact fun w hw => h.waiting w (List.mem_filter.mp hw).1
    · rw [hended, hnext, List.forall_mem_append]
      refine ⟨h.ended, fun e he => ?_⟩
      rw [List.mem_singleton.mp he]
      exact hlt

theorem callsNumbered_run (config : ClientConfig) (actions : List (Action ρ)) :
    ((start ρ config).run actions).CallsNumbered := by
  have hstart : (start ρ config).CallsNumbered :=
    ⟨fun _ h => absurd h List.not_mem_nil, fun _ h => absurd h List.not_mem_nil⟩
  exact run_induction (fun _ a h => h.act a) hstart actions

/-- A call waits for a promise. -/
structure Waits (s : Session ρ) (n : Nat) (p : Promise) : Prop where
  waiting : lookup n s.waiting = some p
  result : lookup n s.ended = none
  lt : n < s.nextCall

/-- A call has ended with a result. -/
structure Over (s : Session ρ) (n : Nat) (r : CallResult) : Prop where
  result : lookup n s.ended = some r
  waiting : lookup n s.waiting = none
  lt : n < s.nextCall

/-- A call that cannot be made is over at once. -/
theorem CallsNumbered.over_call {s : Session ρ} (h : s.CallsNumbered) {route : ρ} {id : String}
    {args : List Params} {f : FunctionIdFault} (hcall : s.store.call route id args = .error f) :
    (s.call route id args).2.store = s.store ∧
      (s.call route id args).2.Over (s.call route id args).1 (.error (.invalidFunctionId f)) := by
  rw [Session.call, hcall]
  refine ⟨rfl, ?_, lookup_eq_none_of_lt h.waiting, Nat.lt_succ_self _⟩
  rw [lookup_concat (lookup_eq_none_of_lt h.ended), if_pos rfl]

/-- A call that is made waits for what it obtained. -/
theorem CallsNumbered.waits_call {s : Session ρ} (h : s.CallsNumbered) {route : ρ} {id : String}
    {args : List Params} {p : Promise} {store : Store ρ}
    (hcall : s.store.call route id args = .ok (p, store)) :
    (s.call route id args).2.store = store ∧
      (s.call route id args).2.Waits (s.call route id args).1 p := by
  rw [Session.call, hcall]
  refine ⟨rfl, ?_, lookup_eq_none_of_lt h.ended, Nat.lt_succ_self _⟩
  rw [lookup_concat (lookup_eq_none_of_lt h.waiting), if_pos rfl]

/-- A call that waits goes on waiting for the same promise until it is ended. -/
theorem Waits.act {s : Session ρ} {n : Nat} {p : Promise} (h : s.Waits n p) (a : Action ρ) :
    (s.act a).Waits n p ∨ ∃ outcome, a = .finish n ∧ s.outcome? p = some outcome ∧
      (s.act a).Over n (s.store.finishCall outcome).1 := by
  have hne : s.nextCall ≠ n := Nat.ne_of_gt h.lt
  cases s.callTurn a with
  | nothing hwaiting hended hnext =>
    exact .inl ⟨hwaiting ▸ h.waiting, hended ▸ h.result, hnext ▸ h.lt⟩
  | started q hwaiting hended hnext =>
    refine .inl ⟨?_, hended ▸ h.result, hnext ▸ Nat.lt_succ_of_lt h.lt⟩
    rw [hwaiting]
    exact lookup_append_of_some h.waiting
  | refused r hwaiting hended hnext =>
    refine .inl ⟨hwaiting ▸ h.waiting, ?_, hnext ▸ Nat.lt_succ_of_lt h.lt⟩
    rw [hended, lookup_concat h.result, if_neg hne]
  | finished m outcome hfinish hending hwaiting hended hnext =>
    by_cases hm : m = n
    · subst hm
      obtain ⟨q, hq, houtcome⟩ := lookup_waiting_of_ending? hending
      obtain rfl : p = q := Option.some.inj (h.waiting.symm.trans hq)
      refine .inr ⟨outcome, hfinish, houtcome, ?_, ?_, hnext ▸ h.lt⟩
      · rw [hended, lookup_concat h.result, if_pos rfl]
      · rw [hwaiting, lookup_filter, if_pos rfl]
    · refine .inl ⟨?_, ?_, hnext ▸ h.lt⟩
      · rw [hwaiting, lookup_filter, if_neg (Ne.symm hm)]
        exact h.waiting
      · rw [hended, lookup_concat h.result, if_neg hm]

/-- A call that is over stays so. -/
theorem Over.act {s : Session ρ} {n : Nat} {r : CallResult} (h : s.Over n r) (a : Action ρ) :
    (s.act a).Over n r := by
  have hne : s.nextCall ≠ n := Nat.ne_of_gt h.lt
  cases s.callTurn a with
  | nothing hwaiting hended hnext =>
    exact ⟨hended ▸ h.result, hwaiting ▸ h.waiting, hnext ▸ h.lt⟩
  | started q hwaiting hended hnext =>
    refine ⟨hended ▸ h.result, ?_, hnext ▸ Nat.lt_succ_of_lt h.lt⟩
    rw [hwaiting, lookup_concat h.waiting, if_neg hne]
  | refused r' hwaiting hended hnext =>
    refine ⟨?_, hwaiting ▸ h.waiting, hnext ▸ Nat.lt_succ_of_lt h.lt⟩
    rw [hended]
    exact lookup_append_of_some h.result
  | finished m outcome _ hending hwaiting hended hnext =>
    obtain ⟨q, hq, -⟩ := lookup_waiting_of_ending? hending
    have hm : n ≠ m := by
      rintro rfl
      exact absurd (h.waiting.symm.trans hq) (by simp)
    refine ⟨?_, ?_, hnext ▸ h.lt⟩
    · rw [hended]
      exact lookup_append_of_some h.result
    · rw [hwaiting, lookup_filter, if_neg hm]
      exact h.waiting

/-! ## Runs -/

theorem Over.run {s : Session ρ} {n : Nat} {r : CallResult} (h : s.Over n r)
    (actions : List (Action ρ)) : (s.run actions).Over n r :=
  run_induction (P := fun s => s.Over n r) (fun _ a h => h.act a) h actions

/-- A call that waits for a promise waits for the same one until it has a result. -/
theorem Waits.run {s : Session ρ} {n : Nat} {p : Promise} (h : s.Waits n p)
    (actions : List (Action ρ)) :
    (s.run actions).Waits n p ∨ ∃ r, (s.run actions).Over n r := by
  refine run_induction (P := fun s => s.Waits n p ∨ ∃ r, s.Over n r) ?_ (.inl h) actions
  rintro t a (hwaits | ⟨r, hover⟩)
  · rcases hwaits.act a with hstill | ⟨outcome, -, -, hover⟩
    · exact .inl hstill
    · exact .inr ⟨_, hover⟩
  · exact .inr ⟨r, hover.act a⟩

/-- A call has a result for good: whatever happens afterwards, this is its result, and ending it
again does nothing. -/
def Returned (s : Session ρ) (n : Nat) (r : CallResult) : Prop :=
  ∀ after, (s.run after).result? n = some r ∧ (s.run after).act (.finish n) = s.run after

theorem Over.returned {s : Session ρ} {n : Nat} {r : CallResult} (h : s.Over n r) :
    s.Returned n r := by
  intro after
  have hafter := h.run after
  refine ⟨hafter.result, ?_⟩
  rw [Session.act, finish, ending?, hafter.waiting]

end Session

end ServerBoundary.Client
