import ServerBoundary.Boundary.ClientModule

/-!
# Reachable names

`reachableNames` keeps two lists: the names found so far and, among them, those whose declarations
have not been followed yet. The invariant of the loop is `WorkList`: what is found is reachable, and
what is found and no longer pending has all its uses found. Once nothing is pending the names found
are the reachable ones.

> `follows_reachableNames`: the loop ends, and its bound is never what ends it.

> `mem_reachableNames_iff`: it finds exactly the reachable names.

> `reachableNames_idem`: started with its own result it finds nothing new.
-/

namespace ServerBoundary.Boundary

open Syntax

/-- The names reachable from some names through declarations. A name that is excluded is never
reached, and so nothing is reached through it. -/
inductive Reachable (declarations : List (String × Node)) (excluded seeds : List String) :
    String → Prop
  | seed {name : String} : name ∈ seeds → name ∉ excluded →
      Reachable declarations excluded seeds name
  | use {name used : String} {d : Node} : Reachable declarations excluded seeds name →
      (name, d) ∈ declarations → used ∈ d.occurrences → used ∉ excluded →
      Reachable declarations excluded seeds used

variable {declarations : List (String × Node)} {excluded seeds found pending : List String}

theorem Reachable.not_excluded {name : String} (h : Reachable declarations excluded seeds name) :
    name ∉ excluded := by
  cases h with
  | seed _ h => exact h
  | use _ _ _ h => exact h

/-- What contains the seeds and the uses of what it contains, apart from what is excluded, contains
everything reachable. -/
theorem Reachable.least {S : String → Prop} (hseeds : ∀ name ∈ seeds, name ∉ excluded → S name)
    (huses : ∀ name d used, S name → (name, d) ∈ declarations → used ∈ d.occurrences →
      used ∉ excluded → S used)
    {name : String} (h : Reachable declarations excluded seeds name) : S name := by
  induction h with
  | seed hs he => exact hseeds _ hs he
  | use _ hd hu he ih => exact huses _ _ _ ih hd hu he

theorem mem_usesOf {name used : String} :
    used ∈ usesOf declarations name ↔ ∃ d, (name, d) ∈ declarations ∧ used ∈ d.occurrences := by
  rw [usesOf, List.mem_flatMap]
  constructor
  · rintro ⟨⟨n, d⟩, hd, hu⟩
    dsimp only at hu
    split at hu
    next hn =>
      rw [beq_iff_eq] at hn
      subst hn
      exact ⟨d, hd, mem_distinct.mp hu⟩
    next => exact absurd hu List.not_mem_nil
  · rintro ⟨d, hd, hu⟩
    refine ⟨(name, d), hd, ?_⟩
    dsimp only
    rw [if_pos (beq_self_eq_true name)]
    exact mem_distinct.mpr hu

/-! ## Adding names -/

/-- The same new names are added to both lists: each once, those that are not excluded and were not
found. -/
theorem exists_addNames (excluded names found pending : List String) :
    ∃ new, addNames excluded names found pending = (found ++ new, pending ++ new) ∧ new.Nodup ∧
      ∀ x, x ∈ new ↔ x ∈ names ∧ x ∉ excluded ∧ x ∉ found := by
  induction names generalizing found pending with
  | nil => exact ⟨[], by simp [addNames], List.nodup_nil, by simp⟩
  | cons name names ih =>
    rw [addNames]
    split
    next hskip =>
      obtain ⟨new, heq, hnodup, hmem⟩ := ih found pending
      refine ⟨new, heq, hnodup, fun x => ?_⟩
      rw [hmem, List.mem_cons]
      simp only [Bool.or_eq_true, List.contains_iff_mem] at hskip
      grind
    next hadd =>
      obtain ⟨new, heq, hnodup, hmem⟩ := ih (found ++ [name]) (pending ++ [name])
      refine ⟨name :: new, by rw [heq]; simp, ?_, fun x => ?_⟩
      · rw [List.nodup_cons]
        exact ⟨fun h => ((hmem name).mp h).2.2 (by simp), hnodup⟩
      · rw [List.mem_cons, hmem, List.mem_cons, List.mem_append, List.mem_singleton]
        simp only [Bool.or_eq_true, List.contains_iff_mem, not_or] at hadd
        grind

/-- Names that are excluded or found already change nothing. -/
theorem addNames_eq_self {names : List String} (h : ∀ x ∈ names, x ∈ excluded ∨ x ∈ found) :
    addNames excluded names found pending = (found, pending) := by
  obtain ⟨new, heq, -, hmem⟩ := exists_addNames excluded names found pending
  have hnew : new = [] := by
    refine List.eq_nil_iff_forall_not_mem.mpr fun x hx => ?_
    obtain ⟨hn, he, hf⟩ := (hmem x).mp hx
    exact (h x hn).elim he hf
  rw [heq, hnew, List.append_nil, List.append_nil]

/-! ## The loop -/

/-- The loop without a bound: started with the names found and pending, it ends with a result. -/
inductive Follows (declarations : List (String × Node)) (excluded : List String) :
    List String → List String → List String → Prop
  | done (found : List String) : Follows declarations excluded found [] found
  | next {name : String} {found pending found' pending' result : List String} :
      addNames excluded (usesOf declarations name) found pending = (found', pending') →
      Follows declarations excluded found' pending' result →
      Follows declarations excluded found (name :: pending) result

/-- What holds whenever the loop looks at its list of pending names. -/
structure WorkList (declarations : List (String × Node))
    (excluded seeds found pending : List String) : Prop where
  nodup : found.Nodup
  reachable : ∀ name ∈ found, Reachable declarations excluded seeds name
  pending_found : ∀ name ∈ pending, name ∈ found
  seeds_found : ∀ name ∈ seeds, name ∉ excluded → name ∈ found
  followed : ∀ name ∈ found, name ∉ pending →
    ∀ used ∈ usesOf declarations name, used ∉ excluded → used ∈ found

/-- The seeds are found first, and nothing of them has been followed. -/
theorem workList_seeds (declarations : List (String × Node)) (excluded seeds : List String) :
    (addNames excluded seeds [] []).1 = (addNames excluded seeds [] []).2 ∧
      WorkList declarations excluded seeds (addNames excluded seeds [] []).1
        (addNames excluded seeds [] []).2 := by
  obtain ⟨new, heq, hnodup, hmem⟩ := exists_addNames excluded seeds [] []
  rw [heq]
  refine ⟨rfl, hnodup, ?_, fun _ hx => hx, ?_, fun _ hf hp => absurd hf hp⟩
  · intro name hname
    obtain ⟨hs, he, -⟩ := (hmem name).mp hname
    exact .seed hs he
  · intro name hs he
    exact (hmem name).mpr ⟨hs, he, List.not_mem_nil⟩

/-- Following a name keeps the invariant. -/
theorem WorkList.step {name : String} {found' pending' : List String}
    (h : WorkList declarations excluded seeds found (name :: pending))
    (hadd : addNames excluded (usesOf declarations name) found pending = (found', pending')) :
    WorkList declarations excluded seeds found' pending' := by
  obtain ⟨new, heq, hnodup, hmem⟩ :=
    exists_addNames excluded (usesOf declarations name) found pending
  rw [hadd, Prod.mk.injEq] at heq
  obtain ⟨rfl, rfl⟩ := heq
  have hname : name ∈ found := h.pending_found name List.mem_cons_self
  refine ⟨?_, ?_, ?_, ?_, ?_⟩
  · refine List.nodup_append.mpr ⟨h.nodup, hnodup, ?_⟩
    intro x hx y hy hxy
    subst hxy
    exact ((hmem x).mp hy).2.2 hx
  · intro x hx
    rcases List.mem_append.mp hx with hold | hnew
    · exact h.reachable x hold
    · obtain ⟨hu, he, -⟩ := (hmem x).mp hnew
      obtain ⟨d, hd, hu⟩ := mem_usesOf.mp hu
      exact .use (h.reachable name hname) hd hu he
  · intro x hx
    rcases List.mem_append.mp hx with hold | hnew
    · exact List.mem_append_left _ (h.pending_found x (List.mem_cons_of_mem _ hold))
    · exact List.mem_append_right _ hnew
  · intro x hs he
    exact List.mem_append_left _ (h.seeds_found x hs he)
  · intro x hx hp used hu he
    rw [List.mem_append, not_or] at hp
    have hold : x ∈ found := (List.mem_append.mp hx).resolve_right hp.2
    -- The uses of the name that was followed are new, or were found before.
    by_cases hxn : x = name
    · subst hxn
      by_cases hused : used ∈ found
      · exact List.mem_append_left _ hused
      · exact List.mem_append_right _ ((hmem used).mpr ⟨hu, he, hused⟩)
    · refine List.mem_append_left _ (h.followed x hold ?_ used hu he)
      rw [List.mem_cons, not_or]
      exact ⟨hxn, hp.1⟩

/-- When the loop ends nothing is pending. -/
theorem Follows.workList {result : List String}
    (h : Follows declarations excluded found pending result)
    (hw : WorkList declarations excluded seeds found pending) :
    WorkList declarations excluded seeds result [] := by
  induction h with
  | done found => exact hw
  | next hadd _ ih => exact ih (hw.step hadd)

/-- Nothing pending means that everything reachable is found. -/
theorem WorkList.mem_iff {name : String} (h : WorkList declarations excluded seeds found []) :
    name ∈ found ↔ Reachable declarations excluded seeds name := by
  refine ⟨h.reachable name, Reachable.least (S := (· ∈ found)) h.seeds_found ?_⟩
  intro n d used hn hd hu he
  exact h.followed n hn List.not_mem_nil used (mem_usesOf.mpr ⟨d, hd, hu⟩) he

/-! ## The bound -/

/-- The names that can be found at all: the seeds and whatever the declarations use. -/
def candidates (declarations : List (String × Node)) (seeds : List String) : List String :=
  seeds ++ declarations.flatMap fun (_, d) => d.occurrences

/-- No more names are found than there are candidates. -/
theorem WorkList.length_le (h : WorkList declarations excluded seeds found pending) :
    found.length ≤ (candidates declarations seeds).length := by
  refine h.nodup.length_le_of_subset fun name hname => ?_
  cases h.reachable name hname with
  | seed hs _ => exact List.mem_append_left _ hs
  | use _ hd hu _ => exact List.mem_append_right _ (List.mem_flatMap.mpr ⟨_, hd, hu⟩)

/-- Every step takes one name from the pending ones and adds as many to them as it finds, so with a
bound that covers the names still to be found the loop ends by itself. -/
theorem follows_followNames {bound : Nat}
    (h : WorkList declarations excluded seeds found pending)
    (hb : (candidates declarations seeds).length + pending.length ≤ bound + found.length) :
    Follows declarations excluded found pending
      (followNames declarations excluded bound found pending) := by
  induction bound generalizing found pending with
  | zero =>
    -- Everything that can be found is found, and all of it was followed.
    have hle := h.length_le
    have hnil : pending = [] := List.eq_nil_of_length_eq_zero (by omega)
    subst hnil
    exact .done found
  | succ bound ih =>
    cases pending with
    | nil => exact .done found
    | cons name pending =>
      obtain ⟨new, heq, -, -⟩ :=
        exists_addNames excluded (usesOf declarations name) found pending
      rw [followNames, heq]
      refine .next heq (ih (h.step heq) ?_)
      rw [List.length_append, List.length_append]
      rw [List.length_cons] at hb
      omega

/-- **The loop ends.** Run without a bound it gives the same names, with none left to follow. -/
theorem follows_reachableNames (items : List Node) (seeds excluded : List String) :
    Follows (items.flatMap topLevelDeclarations) excluded (addNames excluded seeds [] []).1
      (addNames excluded seeds [] []).2 (reachableNames items seeds excluded) := by
  obtain ⟨heq, hw⟩ := workList_seeds (items.flatMap topLevelDeclarations) excluded seeds
  refine follows_followNames hw (Nat.le_of_eq ?_)
  rw [heq, candidates, List.length_append]

theorem workList_reachableNames (items : List Node) (seeds excluded : List String) :
    WorkList (items.flatMap topLevelDeclarations) excluded seeds
      (reachableNames items seeds excluded) [] :=
  (follows_reachableNames items seeds excluded).workList (workList_seeds _ _ _).2

/-! ## What is found -/

/-- **Exactly the reachable names are found.** -/
theorem mem_reachableNames_iff {items : List Node} {seeds excluded : List String} {name : String} :
    name ∈ reachableNames items seeds excluded ↔
      Reachable (items.flatMap topLevelDeclarations) excluded seeds name :=
  (workList_reachableNames items seeds excluded).mem_iff

/-- Every name is found once. -/
theorem nodup_reachableNames (items : List Node) (seeds excluded : List String) :
    (reachableNames items seeds excluded).Nodup :=
  (workList_reachableNames items seeds excluded).nodup

/-- What is reachable depends on which names are seeds and which are excluded, and not on their
order. -/
theorem Reachable.congr {seeds' excluded' : List String} {name : String}
    (hs : ∀ x, x ∈ seeds → x ∈ seeds') (he : ∀ x, x ∈ excluded' → x ∈ excluded)
    (h : Reachable declarations excluded seeds name) :
    Reachable declarations excluded' seeds' name := by
  induction h with
  | seed hn hx => exact .seed (hs _ hn) fun hx' => hx (he _ hx')
  | use _ hd hu hx ih => exact .use ih hd hu fun hx' => hx (he _ hx')

/-- With names pending that lead to nothing new, the loop leaves the names found as they are. -/
theorem followNames_eq_self {bound : Nat}
    (h : ∀ name ∈ pending, ∀ used ∈ usesOf declarations name, used ∈ excluded ∨ used ∈ found) :
    followNames declarations excluded bound found pending = found := by
  induction bound generalizing pending with
  | zero => rfl
  | succ bound ih =>
    cases pending with
    | nil => rfl
    | cons name pending =>
      rw [followNames, addNames_eq_self (h name List.mem_cons_self)]
      exact ih fun n hn => h n (List.mem_cons_of_mem _ hn)

/-- Names that stand once each and may be added are all added, in their order. -/
theorem addNames_eq_append {names : List String} (hnodup : names.Nodup)
    (h : ∀ x ∈ names, x ∉ excluded ∧ x ∉ found) :
    addNames excluded names found pending = (found ++ names, pending ++ names) := by
  induction names generalizing found pending with
  | nil => rw [addNames, List.append_nil, List.append_nil]
  | cons name names ih =>
    rw [List.nodup_cons] at hnodup
    obtain ⟨he, hf⟩ := h name List.mem_cons_self
    rw [addNames, if_neg (by simp [he, hf]), ih hnodup.2 ?_]
    · simp only [List.append_assoc, List.singleton_append]
    · intro x hx
      obtain ⟨hxe, hxf⟩ := h x (List.mem_cons_of_mem _ hx)
      refine ⟨hxe, ?_⟩
      rw [List.mem_append, List.mem_singleton, not_or]
      exact ⟨hxf, fun hxn => hnodup.1 (hxn ▸ hx)⟩

/-- **Started with its own result the loop finds the same names, in the same order.** -/
theorem reachableNames_idem (items : List Node) (seeds excluded : List String) :
    reachableNames items (reachableNames items seeds excluded) excluded =
      reachableNames items seeds excluded := by
  have hw := workList_reachableNames items seeds excluded
  have hadd : addNames excluded (reachableNames items seeds excluded) [] [] =
      ([] ++ reachableNames items seeds excluded, [] ++ reachableNames items seeds excluded) :=
    addNames_eq_append hw.nodup fun x hx =>
      ⟨(hw.reachable x hx).not_excluded, List.not_mem_nil⟩
  rw [List.nil_append] at hadd
  rw [reachableNames, hadd]
  -- All names are pending again, but what they lead to is excluded or found.
  refine followNames_eq_self fun name hname used hu => ?_
  by_cases he : used ∈ excluded
  · exact .inl he
  · exact .inr (hw.followed name hname List.not_mem_nil used hu he)

end ServerBoundary.Boundary
