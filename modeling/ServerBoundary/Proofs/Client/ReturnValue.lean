import Mathlib
import ServerBoundary.Proofs.Client.LiveTree

/-!
# The return value among the live elements

A payload carries the result of a server function under an id of its own. Laying elements over
others takes this id away, and what a call lays has lost it before. What a root mounts or reloads is
shown as it came.

> `return_value_is_not_live`: the live elements have no return value once something was laid over
> the payload that they started from, or if this payload has none.

> `mounted_return_value_is_live`: the return value in the payload of a root that was mounted can be
> rendered.

Both follow from what the layers of a run come to: `get?_valueKey_iff` says which lists of layers
come to elements with a return value.
-/

namespace ServerBoundary.Client

variable {ρ : Type}

/-! ## Layers with a return value -/

/-- What a call lays has no return value. -/
theorem Elements.get?_splitValue_valueKey (elements : Elements) :
    elements.splitValue.2.get? valueKey = none := by
  show (elements.erase valueKey).get? valueKey = none
  rw [OrderedMap.get?_erase, if_pos rfl]

namespace LiveLayer

/-- The promise of the lowest layer, if no other lies over it and it is none of a call. -/
def bare? : List LiveLayer → Option Promise
  | [installed p] => some p
  | [refetched p] => some p
  | _ => none

theorem mem_of_mem_visible {l : LiveLayer} {ls : List LiveLayer} (h : l ∈ visible ls) : l ∈ ls := by
  induction ls with
  | nil => exact absurd h List.not_mem_nil
  | cons x ls ih =>
    rw [visible] at h
    split at h
    next => exact List.mem_cons_of_mem _ (ih h)
    next => exact h

/-- What layers come to, if they come to elements: those of the lowest layer with the others merged
over them, one patch for each. -/
theorem exists_of_resolved? {arrived : Nat → Option Delivery} {ls : List LiveLayer}
    {elements : Elements} (h : resolved? arrived ls = some (some (.ok elements))) :
    ∃ base rest own patches, ls = base :: rest ∧ base.outcome? arrived = some (.ok own) ∧
      rest.mapM (elements? arrived) = some patches ∧
      elements = patches.foldl Elements.merge own := by
  cases ls with
  | nil => exact absurd h (by simp [resolved?])
  | cons base rest =>
    rw [resolved?, Option.some.injEq] at h
    cases hbase : base.outcome? arrived with
    | none =>
      rw [hbase] at h
      exact absurd h (by simp)
    | some outcome =>
      rw [hbase] at h
      cases outcome with
      | error e => exact absurd h (by simp)
      | ok own =>
        obtain ⟨patches, hpatches, hok⟩ := Option.map_eq_some_iff.mp h
        cases hok
        exact ⟨base, rest, own, patches, rfl, hbase, hpatches, rfl⟩

/-- A lowest layer with a return value is a promise that came to one. -/
theorem exists_of_outcome?_valueKey {arrived : Nat → Option Delivery} {base : LiveLayer}
    {own : Elements} (hpatch : ∀ call patch, base = patched call patch →
      patch.get? Elements.valueKey = none)
    (hbase : base.outcome? arrived = some (.ok own)) (hvalue : own.get? Elements.valueKey ≠ none) :
    ∃ p, bare? [base] = some p ∧ p.outcome? arrived = some (.ok own) := by
  cases base with
  | installed p => exact ⟨p, rfl, hbase⟩
  | refetched p =>
    obtain ⟨outcome, hp, hforgiving⟩ := Option.map_eq_some_iff.mp hbase
    cases outcome with
    | ok elements =>
      cases hforgiving
      exact ⟨p, rfl, hp⟩
    | error e =>
      -- A refetch that failed counts as no elements, among which there is no value.
      cases hforgiving
      exact absurd (OrderedMap.get?_empty _) hvalue
  | patched call patch =>
    have hown : patch = own := Except.ok.inj (Option.some.inj hbase)
    rw [← hown] at hvalue
    exact absurd (hpatch call patch rfl) hvalue

/-- **Layers come to elements with a return value** exactly if there is one layer only, and it is a
promise that came to such elements. -/
theorem get?_valueKey_iff {arrived : Nat → Option Delivery} {ls : List LiveLayer}
    {elements : Elements} (hpatch : ∀ call patch, patched call patch ∈ ls →
      patch.get? Elements.valueKey = none)
    (h : resolved? arrived ls = some (some (.ok elements))) :
    elements.get? Elements.valueKey ≠ none ↔
      ∃ p, bare? ls = some p ∧ ∃ own, p.outcome? arrived = some (.ok own) ∧
        own.get? Elements.valueKey ≠ none := by
  obtain ⟨base, rest, own, patches, rfl, hbase, hpatches, rfl⟩ := exists_of_resolved? h
  cases rest with
  | nil =>
    cases hpatches
    constructor
    · intro hvalue
      have hlowest : ∀ call patch, base = patched call patch →
          patch.get? Elements.valueKey = none := by
        intro call patch heq
        exact hpatch call patch (heq ▸ List.mem_cons_self)
      obtain ⟨p, hbare, hp⟩ := exists_of_outcome?_valueKey hlowest hbase hvalue
      exact ⟨p, hbare, own, hp, hvalue⟩
    · rintro ⟨p, hbare, own', hp, hvalue⟩
      have hsame : own' = own := by
        cases base with
        | installed q =>
          cases hbare
          exact Except.ok.inj (Option.some.inj (hp.symm.trans hbase))
        | refetched q =>
          cases hbare
          rw [outcome?, hp] at hbase
          exact Except.ok.inj (Option.some.inj hbase)
        | patched call patch => exact absurd hbare (by simp [bare?])
      rw [← hsame]
      exact hvalue
  | cons l rest =>
    have hne : patches ≠ [] := by
      rintro rfl
      rw [List.mapM_cons] at hpatches
      obtain ⟨patch, -, hrest⟩ := Option.bind_eq_some_iff.mp hpatches
      obtain ⟨others, -, hnil⟩ := Option.bind_eq_some_iff.mp hrest
      exact absurd hnil (by simp)
    constructor
    · intro hvalue
      exact absurd (Elements.isOverlay_foldl hne own).noValue hvalue
    · rintro ⟨p, hbare, -⟩
      cases base <;> exact absurd hbare (by simp [bare?])

end LiveLayer

namespace Session

/-- **One step.** What a call lays has no return value. -/
theorem get?_valueKey_of_layer? {s : Session ρ} {a : Action ρ} {call : Nat} {patch : Elements}
    (h : s.layer? a = some (.patched call patch)) : patch.get? Elements.valueKey = none := by
  cases a with
  | finish n =>
    rw [layer?] at h
    split at h
    next elements _ =>
      split at h
      next => exact absurd h (by simp)
      next =>
        cases h
        exact elements.get?_splitValue_valueKey
    next => exact absurd h (by simp)
  | reload =>
    obtain ⟨r, -, hr⟩ := Option.map_eq_some_iff.mp h
    exact absurd hr (by simp)
  | _ => exact absurd h (by simp [layer?])

theorem get?_valueKey_of_mem_history {s : Session ρ} {actions : List (Action ρ)} {call : Nat}
    {patch : Elements} (h : .patched call patch ∈ s.history actions) :
    patch.get? Elements.valueKey = none := by
  induction actions generalizing s with
  | nil => exact absurd h List.not_mem_nil
  | cons a actions ih =>
    rw [history] at h
    rcases List.mem_append.mp h with hfirst | hrest
    · exact get?_valueKey_of_layer? (Option.mem_toList.mp hfirst)
    · exact ih hrest

/-- The live elements of a run have a return value exactly if nothing lies over the promise that
they started from, and this promise came to one. -/
theorem get?_valueKey_live_iff (config : ClientConfig) (actions : List (Action ρ))
    {arrived : Nat → Option Delivery} {elements : Elements}
    (hlive : ((start ρ config).run actions).store.live.map (Promise.outcome? arrived) =
      some (some (.ok elements))) :
    elements.get? Elements.valueKey ≠ none ↔
      ∃ p, LiveLayer.bare? (LiveLayer.visible ((start ρ config).history actions)) = some p ∧
        ∃ own, p.outcome? arrived = some (.ok own) ∧ own.get? Elements.valueKey ≠ none := by
  obtain ⟨hshows, -⟩ := (start ρ config).lays_run actions [] fun _ => rfl
  have hresolved : LiveLayer.resolved? arrived
      (LiveLayer.visible ((start ρ config).history actions)) = some (some (.ok elements)) :=
    (hshows arrived).symm.trans hlive
  refine LiveLayer.get?_valueKey_iff (fun call patch hmem => ?_) hresolved
  exact get?_valueKey_of_mem_history (LiveLayer.mem_of_mem_visible hmem)

/-- **The return value is not live,** after any run and whatever has arrived, and no slot renders
it: if nothing lies over the promise that the live elements started from, its payload has to come
without one. -/
theorem return_value_is_not_live (config : ClientConfig) {actions : List (Action ρ)}
    {arrived : Nat → Option Delivery} {elements : Elements}
    (hlive : ((start ρ config).run actions).store.live.map (Promise.outcome? arrived) =
      some (some (.ok elements)))
    (hbare : ∀ p, LiveLayer.bare? (LiveLayer.visible ((start ρ config).history actions)) = some p →
      ∀ own, p.outcome? arrived = some (.ok own) → own.get? Elements.valueKey = none) :
    elements.get? Elements.valueKey = none ∧
      ∀ children, Slot.render ⟨Elements.valueKey, children⟩ (.ok elements) =
        .error (.invalidElement Elements.valueKey) := by
  have hnone : elements.get? Elements.valueKey = none := by
    refine Classical.byContradiction fun hvalue => ?_
    obtain ⟨p, hp, own, hown, hpresent⟩ := (get?_valueKey_live_iff config actions hlive).mp hvalue
    exact hpresent (hbare p hp own hown)
  refine ⟨hnone, fun children => ?_⟩
  rw [Slot.render]
  dsimp only
  rw [hnone]

/-- A payload with a return value. -/
def resultPayload : Response :=
  { body := (Json.object [(Elements.valueKey, .bool true), ("a", .bool false)]).toBytes }

/-- Its elements. -/
def resultElements : Elements :=
  .ofList [(Elements.valueKey, some (.bool true)), ("a", some (.bool false))]

theorem elements_resultPayload : resultPayload.elements = .ok resultElements := by
  have hread : Json.read resultPayload.body =
      .ok (.object [(Elements.valueKey, .bool true), ("a", .bool false)]) := by cbv
  rw [Response.elements, decodeElements, hread]
  rfl

/-- What arrived when every response was that payload. -/
def resultsArrived (_ : Nat) : Option Delivery := some (.ok resultPayload)

/-- A payload with a return value is mounted, and another one is laid over it. -/
def refetchedActions : List (Action Unit) := [.mount () "" none, .refetch () "b" none]

theorem refetched_return_value_is_not_live :
    (((start Unit {}).run refetchedActions).store.live.map (Promise.outcome? resultsArrived) =
        some (some (.ok (resultElements.merge resultElements))) ∧
      LiveLayer.bare? (LiveLayer.visible ((start Unit {}).history refetchedActions)) = none) ∧
    (resultElements.merge resultElements).get? Elements.valueKey = none := by
  have hlive : ((start Unit {}).run refetchedActions).store.live.map
      (Promise.outcome? resultsArrived) =
        some (some (.ok (resultElements.merge resultElements))) := by
    show some (Promise.join (some resultPayload.elements)
      (some (Promise.forgiving resultPayload.elements))) = _
    rw [elements_resultPayload]
    rfl
  have hbare : LiveLayer.bare? (LiveLayer.visible
      ((start Unit {}).history refetchedActions)) = none := rfl
  refine ⟨⟨hlive, hbare⟩, (return_value_is_not_live {} hlive fun p hp => ?_).1⟩
  exact absurd (hbare.symm.trans hp) (by simp)

/-- A root that is mounted on the payload shows the return value in a slot. -/
theorem mounted_return_value_is_live :
    let s := (start Unit {}).run [.mount () "" none, .deliver 0 (.ok resultPayload)]
    s.store.live.map s.outcome? = some (some (.ok resultElements)) ∧
      resultElements.get? Elements.valueKey = some (some (.bool true)) ∧
      Slot.render ⟨Elements.valueKey, none⟩ (.ok resultElements) = .ok ⟨.bool true, none⟩ := by
  refine ⟨?_, rfl, rfl⟩
  exact congrArg (fun outcome => some (some outcome)) elements_resultPayload

end Session

end ServerBoundary.Client
