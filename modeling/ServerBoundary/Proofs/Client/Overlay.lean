import ServerBoundary.Client.Elements
import ServerBoundary.Proofs.Data.OrderedMap

/-!
# Elements laid over one another

Merging lays a patch over some elements. What many patches come to is told without merging them
(`IsOverlay`): each id has the value of the last set that has it, an undefined one included, the ids
stand in the order in which they first appear, and the result of a server function is not among
them.

> `merging_is_an_ordered_overlay`: merging patches from left to right gives this overlay, and from
> it follow the laws of merging: it is associative, a patch twice in a row is that patch once, a
> patch without elements only takes the result away, and two neighbours without a common id may be
> swapped.

Only one such overlay exists (`IsOverlay.unique`), and in a list of sets any overlay may stand for
the sets that it is one of (`IsOverlay.flatten`). The laws are read off these two facts.
-/

namespace ServerBoundary.Client.Elements

/-! ## One patch -/

theorem get?_merge (elements patch : Elements) (id : String) : (elements.merge patch).get? id =
    if valueKey = id then none else (patch.get? id).or (elements.get? id) := by
  rw [merge, OrderedMap.get?_erase, OrderedMap.get?_insertAll elements patch.nodup]
  rfl

theorem keys_merge (elements patch : Elements) : (elements.merge patch).keys =
    ((elements.keys ++ patch.keys).filter (· != valueKey)).eraseDups := by
  rw [merge, OrderedMap.keys_erase, OrderedMap.keys_insertAll, eraseDups_filter]
  rfl

/-! ## Many patches -/

/-- The value of an id in the last of some sets that has it. -/
def lastValue? (sets : List Elements) (id : String) : Option (Option Json) :=
  sets.reverse.findSome? fun elements => elements.get? id

/-- The ids of some sets, in the order in which they first appear, without that of the result of a
server function. -/
def idsOf (sets : List Elements) : List String :=
  ((sets.flatMap OrderedMap.keys).filter (· != valueKey)).eraseDups

/-- What some sets come to if each is laid over those before it. -/
structure IsOverlay (sets : List Elements) (merged : Elements) : Prop where
  noValue : merged.get? valueKey = none
  get?_eq : ∀ id, id ≠ valueKey → merged.get? id = lastValue? sets id
  keys_eq : merged.keys = idsOf sets

theorem lastValue?_append (sets sets' : List Elements) (id : String) :
    lastValue? (sets ++ sets') id = (lastValue? sets' id).or (lastValue? sets id) := by
  rw [lastValue?, List.reverse_append, List.findSome?_append]
  rfl

theorem lastValue?_cons (elements : Elements) (sets : List Elements) (id : String) :
    lastValue? (elements :: sets) id = (lastValue? sets id).or (elements.get? id) := by
  rw [← List.singleton_append, lastValue?_append]
  simp [lastValue?]

theorem isOverlay_merge (elements patch : Elements) :
    IsOverlay [elements, patch] (elements.merge patch) where
  noValue := by rw [get?_merge, if_pos rfl]
  get?_eq id hid := by
    rw [get?_merge, if_neg (Ne.symm hid), lastValue?_cons, lastValue?_cons]
    simp [lastValue?]
  keys_eq := by
    rw [keys_merge, idsOf]
    simp

/-- **There is only one overlay** of some sets. -/
theorem IsOverlay.unique {sets : List Elements} {merged merged' : Elements}
    (h : IsOverlay sets merged) (h' : IsOverlay sets merged') : merged = merged' := by
  refine OrderedMap.eq_of_keys_of_get? (h.keys_eq.trans h'.keys_eq.symm) fun id => ?_
  by_cases hid : id = valueKey
  · rw [hid, h.noValue, h'.noValue]
  · rw [h.get?_eq id hid, h'.get?_eq id hid]

/-- **An overlay may stand for its sets.** -/
theorem IsOverlay.flatten {before sets after : List Elements} {inner merged : Elements}
    (hinner : IsOverlay sets inner) (h : IsOverlay (before ++ inner :: after) merged) :
    IsOverlay (before ++ sets ++ after) merged where
  noValue := h.noValue
  get?_eq id hid := by
    rw [h.get?_eq id hid, lastValue?_append, lastValue?_cons, hinner.get?_eq id hid,
      lastValue?_append, lastValue?_append, Option.or_assoc]
  keys_eq := by
    have hids : (inner.keys.filter (· != valueKey)).eraseDups = idsOf sets := by
      rw [eraseDups_filter, OrderedMap.eraseDups_keys, hinner.keys_eq, idsOf, ← eraseDups_filter,
        List.filter_filter]
      simp only [Bool.and_self]
    rw [h.keys_eq, idsOf, idsOf, List.append_assoc, List.flatMap_append, List.flatMap_append,
      List.flatMap_cons, List.flatMap_append, List.filter_append, List.filter_append,
      List.filter_append, List.filter_append]
    exact eraseDups_append_congr rfl (eraseDups_append_congr hids rfl)

/-- Patches that are merged from left to right are laid one over the other. -/
theorem isOverlay_foldl {patches : List Elements} (h : patches ≠ []) (elements : Elements) :
    IsOverlay (elements :: patches) (patches.foldl merge elements) := by
  induction patches generalizing elements with
  | nil => exact absurd rfl h
  | cons patch rest ih =>
    cases rest with
    | nil => exact isOverlay_merge elements patch
    | cons next later =>
      -- What the first two come to is the first of the remaining sets.
      have hrest : IsOverlay ([] ++ elements.merge patch :: next :: later) _ :=
        ih (List.cons_ne_nil next later) (elements.merge patch)
      exact (isOverlay_merge elements patch).flatten hrest

/-! ## Laws -/

theorem merge_assoc (a b c : Elements) : (a.merge b).merge c = a.merge (b.merge c) := by
  have hleft : IsOverlay ([] ++ [a, b] ++ [c]) ((a.merge b).merge c) :=
    (isOverlay_merge a b).flatten (isOverlay_merge (a.merge b) c)
  have hright : IsOverlay ([a] ++ [b, c] ++ []) (a.merge (b.merge c)) :=
    (isOverlay_merge b c).flatten (isOverlay_merge a (b.merge c))
  exact hleft.unique hright

/-- A patch without elements only takes the result away. -/
@[simp] theorem merge_empty (elements : Elements) :
    elements.merge .empty = elements.erase valueKey := rfl

theorem empty_merge (patch : Elements) : merge .empty patch = patch.erase valueKey := by
  have hall : OrderedMap.empty.insertAll patch.entries = patch :=
    OrderedMap.eq_of_entries (OrderedMap.entries_ofList patch.nodup)
  rw [merge, hall]

theorem erase_merge (elements patch : Elements) :
    merge (elements.erase valueKey) patch = (elements.merge patch).erase valueKey := by
  rw [← merge_empty, merge_assoc, empty_merge, ← merge_empty patch, ← merge_assoc, merge_empty]

theorem merge_self (patch : Elements) : patch.merge patch = patch.erase valueKey := by
  have hall : patch.insertAll patch.entries = patch := by
    refine OrderedMap.eq_of_keys_of_get? ?_ fun id => ?_
    · have hnothing : patch.keys.removeAll patch.keys = [] :=
        List.filter_eq_nil_iff.mpr fun id hid => by simpa using hid
      rw [OrderedMap.keys_insertAll]
      show (patch.keys ++ patch.keys).eraseDups = patch.keys
      rw [List.eraseDups_append, hnothing, List.eraseDups_nil, List.append_nil,
        OrderedMap.eraseDups_keys]
    · exact (OrderedMap.get?_insertAll patch patch.nodup id).trans Option.or_self
  rw [merge, hall]

/-- A patch twice in a row is that patch once. -/
theorem merge_merge_self (elements patch : Elements) :
    (elements.merge patch).merge patch = elements.merge patch :=
  calc (elements.merge patch).merge patch
    _ = elements.merge (patch.merge .empty) := by rw [merge_assoc, merge_self, merge_empty]
    _ = (elements.merge patch).erase valueKey := by rw [← merge_assoc, merge_empty]
    _ = elements.merge patch := OrderedMap.erase_erase _ _

theorem foldl_merge_erase (patches : List Elements) (elements : Elements) :
    patches.foldl merge (elements.erase valueKey) =
      (patches.foldl merge elements).erase valueKey := by
  induction patches generalizing elements with
  | nil => rfl
  | cons patch patches ih => rw [List.foldl_cons, List.foldl_cons, erase_merge, ih]

/-- Among patches that are laid one over the other, one without elements only takes the value
away. -/
theorem foldl_merge_empty (elements : Elements) (before after : List Elements) :
    (before ++ .empty :: after).foldl merge elements =
      ((before ++ after).foldl merge elements).erase valueKey := by
  rw [List.foldl_append, List.foldl_append, List.foldl_cons, merge_empty, foldl_merge_erase]

theorem get?_eq_none {elements : Elements} {id : String} (h : id ∉ elements.keys) :
    elements.get? id = none :=
  lookupKey_eq_none h

/-- Neighbours without a common id do not hide each other's values. -/
theorem lastValue?_swap {p q : Elements} (h : ∀ id ∈ p.keys, id ∉ q.keys)
    (before after : List Elements) (id : String) :
    lastValue? (before ++ p :: q :: after) id = lastValue? (before ++ q :: p :: after) id := by
  -- At most one of the two has the id, and the other one passes it on.
  have hpass : (q.get? id).or ((p.get? id).or (lastValue? before id)) =
      (p.get? id).or ((q.get? id).or (lastValue? before id)) := by
    by_cases hid : id ∈ p.keys
    · rw [get?_eq_none (h id hid), Option.none_or, Option.none_or]
    · rw [get?_eq_none hid, Option.none_or, Option.none_or]
  simp only [lastValue?_append, lastValue?_cons, Option.or_assoc]
  rw [hpass]

theorem get?_foldl_swap {p q : Elements} (h : ∀ id ∈ p.keys, id ∉ q.keys) (elements : Elements)
    (before after : List Elements) (id : String) :
    ((before ++ p :: q :: after).foldl merge elements).get? id =
      ((before ++ q :: p :: after).foldl merge elements).get? id := by
  have hoverlay : ∀ p q, IsOverlay (elements :: (before ++ p :: q :: after))
      ((before ++ p :: q :: after).foldl merge elements) := fun p q =>
    isOverlay_foldl (by simp) elements
  by_cases hid : id = valueKey
  · rw [hid, (hoverlay p q).noValue, (hoverlay q p).noValue]
  · rw [(hoverlay p q).get?_eq id hid, (hoverlay q p).get?_eq id hid]
    exact lastValue?_swap h (elements :: before) after id

/-- **Merging is an ordered overlay.** Merging patches from left to right, at least one, gives the
overlay of the elements and the patches. So merging is associative, a patch twice in a row is that
patch once, no elements are neutral but for the result of a server function, and neighbours without
a common id may change places without changing what any id is looked up as. -/
theorem merging_is_an_ordered_overlay (a : Elements) :
    (∀ patches, patches ≠ [] → IsOverlay (a :: patches) (patches.foldl merge a)) ∧
    (∀ b c, (a.merge b).merge c = a.merge (b.merge c)) ∧
    (∀ b, (a.merge b).merge b = a.merge b) ∧
    (a.merge .empty = a.erase valueKey ∧ merge .empty a = a.erase valueKey) ∧
    (∀ before p q after, (∀ id ∈ p.keys, id ∉ q.keys) → ∀ id,
      ((before ++ p :: q :: after).foldl merge a).get? id =
        ((before ++ q :: p :: after).foldl merge a).get? id) :=
  ⟨fun _ h => isOverlay_foldl h a, merge_assoc a, merge_merge_self a,
    ⟨merge_empty a, empty_merge a⟩,
    fun before _ _ after h id => get?_foldl_swap h a before after id⟩

/-- The payload that a page came with. -/
def pagePayload : Elements := .ofList [("_value", some (.bool true)), ("menu", some (.string "M"))]

/-- Another menu, a body, and the result of a server function. -/
def bodyPatch : Elements :=
  .ofList [("menu", some .null), ("_value", none), ("body", some (.string "B"))]

/-- A footer that is undefined. -/
def footerPatch : Elements := .ofList [("footer", none)]

/-- The menu keeps its place under its new value. Which of body and footer comes first depends on
the order of the patches, what they are looked up as does not. -/
theorem page_is_overlaid :
    [bodyPatch, footerPatch] ≠ [] ∧
    IsOverlay [pagePayload, bodyPatch, footerPatch]
      ([bodyPatch, footerPatch].foldl merge pagePayload) ∧
    idsOf [pagePayload, bodyPatch, footerPatch] = ["menu", "body", "footer"] ∧
    idsOf [pagePayload, footerPatch, bodyPatch] = ["menu", "footer", "body"] ∧
    (∀ id ∈ bodyPatch.keys, id ∉ footerPatch.keys) ∧
    ∀ id, ([bodyPatch, footerPatch].foldl merge pagePayload).get? id =
      ([footerPatch, bodyPatch].foldl merge pagePayload).get? id := by
  obtain ⟨hoverlay, -, -, -, hswap⟩ := merging_is_an_ordered_overlay pagePayload
  have hne : [bodyPatch, footerPatch] ≠ [] := List.cons_ne_nil _ _
  have hdisjoint : ∀ id ∈ bodyPatch.keys, id ∉ footerPatch.keys := by decide
  exact ⟨hne, hoverlay _ hne, by decide, by decide, hdisjoint, hswap [] _ _ [] hdisjoint⟩

end ServerBoundary.Client.Elements
