import ServerBoundary.Data.OrderedMap

/-!
# Keys and values of ordered maps

An ordered map is told by its keys in their order and by the value of each key
(`eq_of_keys_of_get?`). What it becomes when pairs are inserted from left to right is said by one
equation for each of the two:

> `keys_insertAll`: the keys stand in the order in which they first appear.

> `get?_insertAll`: a pair that is inserted wins over what was there.

The order of first appearance is `List.eraseDups`, which keeps the first of equal elements. Taking
elements out and putting lists together can be done before or after (`eraseDups_filter`,
`eraseDups_append_congr`).
-/

namespace ServerBoundary

/-! ## The order of first appearance -/

section FirstAppearance

variable {α : Type} [BEq α] [LawfulBEq α]

theorem eraseDups_of_nodup {l : List α} (h : l.Nodup) : l.eraseDups = l := by
  induction l with
  | nil => rfl
  | cons a l ih =>
    rw [List.nodup_cons] at h
    have hkept : l.filter (fun b => !b == a) = l := List.filter_eq_self.mpr fun b hb => by
      simpa using fun heq : b = a => h.1 (heq ▸ hb)
    rw [List.eraseDups_cons, hkept, ih h.2]

/-- Elements may be taken out before or after repeated ones. -/
theorem eraseDups_filter (p : α → Bool) (l : List α) :
    (l.filter p).eraseDups = l.eraseDups.filter p := by
  -- The recursion of `eraseDups` goes to a shorter list, not to the rest of the list.
  match l with
  | [] => rfl
  | a :: l =>
    have hshort : (l.filter fun b => !b == a).length < l.length + 1 :=
      Nat.lt_succ_of_le (List.length_filter_le _ _)
    have ih := eraseDups_filter p (l.filter fun b => !b == a)
    rw [List.filter_filter] at ih
    rw [List.eraseDups_cons]
    by_cases ha : p a = true
    · rw [List.filter_cons_of_pos ha, List.filter_cons_of_pos ha, List.eraseDups_cons, ← ih,
        List.filter_filter]
      simp only [Bool.and_comm]
    · rw [List.filter_cons_of_neg ha, List.filter_cons_of_neg ha, ← ih]
      refine congrArg List.eraseDups (List.filter_congr fun b _ => ?_)
      by_cases hb : b = a
      · rw [hb, Bool.eq_false_iff.mpr ha, Bool.false_and]
      · simp [hb]
termination_by l.length

theorem eraseDups_append_eq (as bs : List α) :
    (as ++ bs).eraseDups = as.eraseDups ++ bs.eraseDups.filter fun b => !as.elem b := by
  rw [List.eraseDups_append, List.removeAll, eraseDups_filter]

/-- What first appears in two lists together depends only on what first appears in each. -/
theorem eraseDups_append_congr {as as' bs bs' : List α} (ha : as.eraseDups = as'.eraseDups)
    (hb : bs.eraseDups = bs'.eraseDups) : (as ++ bs).eraseDups = (as' ++ bs').eraseDups := by
  have hmem : ∀ b, as.elem b = as'.elem b := fun b => by
    rw [Bool.eq_iff_iff, List.elem_iff, List.elem_iff, ← List.mem_eraseDups, ha,
      List.mem_eraseDups]
  rw [eraseDups_append_eq, eraseDups_append_eq, ha, hb]
  simp only [hmem]

end FirstAppearance

/-! ## Keys and values -/

theorem keys_setKey_of_mem {α : Type} {key : String} {value : α} {es : List (String × α)}
    (h : key ∈ es.map Prod.fst) : (setKey key value es).map Prod.fst = es.map Prod.fst := by
  induction es with
  | nil => exact absurd h List.not_mem_nil
  | cons e rest ih =>
    obtain ⟨k, v⟩ := e
    rw [setKey]
    split
    next => rfl
    next hne =>
      rcases List.mem_cons.mp h with heq | hrest
      · exact absurd (beq_iff_eq.mpr heq.symm) hne
      · rw [List.map_cons, List.map_cons, ih hrest]

theorem lookupKey_eq_none {α : Type} {key : String} {es : List (String × α)}
    (h : key ∉ es.map Prod.fst) : lookupKey key es = none :=
  Option.eq_none_iff_forall_not_mem.mpr fun a ha =>
    h (List.mem_map.mpr ⟨(key, a), mem_of_lookupKey ha, rfl⟩)

theorem lookupKey_cons_of_ne {α : Type} {k key : String} (h : key ≠ k) (v : α)
    (es : List (String × α)) : lookupKey key ((k, v) :: es) = lookupKey key es := by
  rw [lookupKey, if_neg (by simpa using h.symm)]

/-- Pairs with the same keys in the same order, none of them twice, are equal if each key has the
same value. -/
theorem eq_of_lookupKey {α : Type} {es es' : List (String × α)} (hnodup : (es.map Prod.fst).Nodup)
    (hkeys : es.map Prod.fst = es'.map Prod.fst)
    (hlookup : ∀ key ∈ es.map Prod.fst, lookupKey key es = lookupKey key es') : es = es' := by
  induction es generalizing es' with
  | nil => exact (List.map_eq_nil_iff.mp hkeys.symm).symm
  | cons e rest ih =>
    cases es' with
    | nil => cases hkeys
    | cons e' rest' =>
      obtain ⟨k, v⟩ := e
      obtain ⟨k', v'⟩ := e'
      obtain ⟨rfl, hrest⟩ : k = k' ∧ rest.map Prod.fst = rest'.map Prod.fst := List.cons.inj hkeys
      rw [List.map_cons, List.nodup_cons] at hnodup
      have hvalue := hlookup k List.mem_cons_self
      rw [lookupKey, lookupKey, if_pos (beq_self_eq_true k), if_pos (beq_self_eq_true k),
        Option.some.injEq] at hvalue
      have hrests : rest = rest' := ih hnodup.2 hrest fun key hkey => by
        have hne : key ≠ k := fun heq => hnodup.1 (heq ▸ hkey)
        rw [← lookupKey_cons_of_ne hne v, hlookup key (List.mem_cons_of_mem _ hkey),
          lookupKey_cons_of_ne hne]
      rw [hvalue, hrests]

namespace OrderedMap

variable {α : Type}

/-- **A map is its keys in order and their values.** -/
theorem eq_of_keys_of_get? {m m' : OrderedMap α} (hkeys : m.keys = m'.keys)
    (hget : ∀ key, m.get? key = m'.get? key) : m = m' :=
  eq_of_entries (eq_of_lookupKey m.nodup hkeys fun key _ => hget key)

theorem eraseDups_keys (m : OrderedMap α) : m.keys.eraseDups = m.keys := eraseDups_of_nodup m.nodup

theorem keys_insert (m : OrderedMap α) (key : String) (value : α) :
    (m.insert key value).keys = (m.keys ++ [key]).eraseDups := by
  by_cases h : key ∈ m.keys
  · have hnothing : [key].removeAll m.keys = [] :=
      List.filter_cons_of_neg (by simpa using h)
    rw [List.eraseDups_append, hnothing, List.eraseDups_nil, List.append_nil, eraseDups_keys]
    exact keys_setKey_of_mem h
  · have hkeys : (m.insert key value).keys = m.keys ++ [key] := by
      show (setKey key value m.entries).map Prod.fst = _
      rw [setKey_of_not_mem h, List.map_append]
      rfl
    rw [← hkeys, eraseDups_keys]

/-- **Keys stand in the order in which they first appear.** -/
theorem keys_insertAll (m : OrderedMap α) (pairs : List (String × α)) :
    (m.insertAll pairs).keys = (m.keys ++ pairs.map Prod.fst).eraseDups := by
  induction pairs generalizing m with
  | nil => rw [List.map_nil, List.append_nil, eraseDups_keys, insertAll, List.foldl_nil]
  | cons pair rest ih =>
    rw [insertAll, List.foldl_cons]
    refine (ih _).trans ?_
    rw [List.map_cons, List.append_cons]
    refine eraseDups_append_congr ?_ rfl
    rw [eraseDups_keys, keys_insert]

/-- **A pair that is inserted wins** over what was there. No two of the pairs have the same key. -/
theorem get?_insertAll (m : OrderedMap α) {pairs : List (String × α)}
    (h : (pairs.map Prod.fst).Nodup) (key : String) :
    (m.insertAll pairs).get? key = (lookupKey key pairs).or (m.get? key) := by
  induction pairs generalizing m with
  | nil => rfl
  | cons pair rest ih =>
    obtain ⟨k, v⟩ := pair
    rw [List.map_cons, List.nodup_cons] at h
    rw [insertAll, List.foldl_cons]
    refine (ih _ h.2).trans ?_
    rw [get?_insert, lookupKey]
    by_cases hk : k = key
    · rw [if_pos hk, if_pos (beq_iff_eq.mpr hk), lookupKey_eq_none (hk ▸ h.1)]
      rfl
    · rw [if_neg hk, if_neg (by simpa using hk)]

theorem contains_iff {m : OrderedMap α} {key : String} : m.contains key = true ↔ key ∈ m.keys := by
  rw [contains, Option.isSome_iff_exists]
  constructor
  · rintro ⟨value, hvalue⟩
    exact List.mem_map_of_mem (mem_of_lookupKey hvalue)
  · intro hkey
    obtain ⟨⟨key, value⟩, hmem, rfl⟩ := List.mem_map.mp hkey
    exact ⟨value, lookupKey_of_mem m.nodup hmem⟩

/-- A key that is there keeps its value. -/
theorem insertNew_of_mem {m : OrderedMap α} {key : String} (h : key ∈ m.keys) (value : α) :
    m.insertNew key value = m := by
  rw [insertNew, if_pos (contains_iff.mpr h)]

/-- A key that is new comes last. -/
theorem entries_insertNew_of_not_mem {m : OrderedMap α} {key : String} (h : key ∉ m.keys)
    (value : α) : (m.insertNew key value).entries = m.entries ++ [(key, value)] := by
  rw [insertNew, if_neg fun hcontains => h (contains_iff.mp hcontains)]
  exact setKey_of_not_mem h

theorem keys_erase (m : OrderedMap α) (key : String) :
    (m.erase key).keys = m.keys.filter (· != key) := by
  rw [keys, keys, List.filter_map]
  rfl

end OrderedMap

end ServerBoundary
