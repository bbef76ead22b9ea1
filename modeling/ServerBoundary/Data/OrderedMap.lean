/-!
# Maps that keep the order of insertion

`OrderedMap α` maps texts to values and remembers in which order its keys came. Setting a key that is
there keeps its place, and erasing a key keeps the places of the others. No key occurs twice, which
is part of the type.
-/

namespace ServerBoundary

/-- The value of a key in a list of pairs. -/
def lookupKey {α : Type} (key : String) : List (String × α) → Option α
  | [] => none
  | (k, v) :: rest => if k == key then some v else lookupKey key rest

/-- A list of pairs with a key set to a value; a new key comes last. -/
def setKey {α : Type} (key : String) (value : α) : List (String × α) → List (String × α)
  | [] => [(key, value)]
  | (k, v) :: rest => if k == key then (k, value) :: rest else (k, v) :: setKey key value rest

/-- A list of pairs without those of a key. -/
def eraseKey {α : Type} (key : String) (entries : List (String × α)) : List (String × α) :=
  entries.filter fun e => e.1 != key

theorem mem_of_lookupKey {α : Type} {key : String} {es : List (String × α)} {a : α}
    (h : lookupKey key es = some a) : (key, a) ∈ es := by
  induction es with
  | nil => exact absurd h (by simp [lookupKey])
  | cons e rest ih =>
    obtain ⟨k, b⟩ := e
    rw [lookupKey] at h
    split at h
    next hk =>
      cases h
      rw [beq_iff_eq.mp hk]
      exact List.mem_cons_self
    next => exact List.mem_cons_of_mem _ (ih h)

/-- Where no key occurs twice, a key has the value that it stands with. -/
theorem lookupKey_of_mem {α : Type} {key : String} {es : List (String × α)} {a : α}
    (hnodup : (es.map Prod.fst).Nodup) (h : (key, a) ∈ es) : lookupKey key es = some a := by
  induction es with
  | nil => exact absurd h List.not_mem_nil
  | cons e rest ih =>
    obtain ⟨k, b⟩ := e
    rw [List.map_cons, List.nodup_cons] at hnodup
    rw [lookupKey]
    rcases List.mem_cons.mp h with heq | hrest
    · cases heq
      rw [if_pos (beq_self_eq_true key)]
    · have hne : ¬k = key := fun heq =>
        hnodup.1 (List.mem_map.mpr ⟨(key, a), hrest, heq.symm⟩)
      rw [if_neg (by simpa using hne)]
      exact ih hnodup.2 hrest

theorem mem_keys_setKey {α : Type} {key k : String} {value : α} {es : List (String × α)} :
    k ∈ (setKey key value es).map Prod.fst ↔ k = key ∨ k ∈ es.map Prod.fst := by
  induction es with
  | nil => simp [setKey]
  | cons e rest ih =>
    obtain ⟨k', v⟩ := e
    by_cases h : k' = key
    · simp [setKey, h]
    · simp only [setKey, beq_iff_eq, h, if_false, List.map_cons, List.mem_cons, ih]
      exact or_left_comm

theorem mem_of_mem_setKey {α : Type} {key : String} {value : α} {e : String × α}
    {es : List (String × α)} (h : e ∈ setKey key value es) : e = (key, value) ∨ e ∈ es := by
  induction es with
  | nil => exact .inl (List.mem_singleton.mp h)
  | cons d rest ih =>
    obtain ⟨k, v⟩ := d
    rw [setKey] at h
    split at h
    next hk =>
      rw [beq_iff_eq.mp hk] at h
      exact (List.mem_cons.mp h).imp id (List.mem_cons_of_mem _)
    next =>
      rcases List.mem_cons.mp h with rfl | hrest
      · exact .inr List.mem_cons_self
      · exact (ih hrest).imp id (List.mem_cons_of_mem _)

/-- A key that is new comes last. -/
theorem setKey_of_not_mem {α : Type} {key : String} {value : α} {es : List (String × α)}
    (h : key ∉ es.map Prod.fst) : setKey key value es = es ++ [(key, value)] := by
  induction es with
  | nil => rfl
  | cons e rest ih =>
    obtain ⟨k, v⟩ := e
    rw [List.map_cons, List.mem_cons, not_or] at h
    rw [setKey, if_neg (by simpa using Ne.symm h.1), ih h.2]
    rfl

theorem nodup_keys_setKey {α : Type} (key : String) (value : α) {es : List (String × α)}
    (h : (es.map Prod.fst).Nodup) : ((setKey key value es).map Prod.fst).Nodup := by
  induction es with
  | nil => simp [setKey]
  | cons e rest ih =>
    obtain ⟨k, v⟩ := e
    simp only [List.map_cons, List.nodup_cons] at h
    by_cases hk : k = key
    · simp only [setKey, hk, beq_self_eq_true, if_true, List.map_cons, List.nodup_cons]
      exact ⟨hk ▸ h.1, h.2⟩
    · simp only [setKey, beq_iff_eq, hk, if_false, List.map_cons, List.nodup_cons, mem_keys_setKey]
      exact ⟨by simp [h.1], ih h.2⟩

theorem nodup_keys_eraseKey {α : Type} (key : String) {es : List (String × α)}
    (h : (es.map Prod.fst).Nodup) : ((eraseKey key es).map Prod.fst).Nodup :=
  h.sublist (List.filter_sublist.map Prod.fst)

theorem lookupKey_setKey {α : Type} (key k : String) (value : α) (es : List (String × α)) :
    lookupKey k (setKey key value es) = if key = k then some value else lookupKey k es := by
  induction es with
  | nil => simp [setKey, lookupKey]
  | cons e rest ih =>
    obtain ⟨k', v⟩ := e
    by_cases h : k' = key
    · subst h
      by_cases hk : k' = k <;> simp [setKey, lookupKey, hk]
    · simp only [setKey, beq_iff_eq, h, if_false, lookupKey, ih]
      by_cases hk : k' = k
      · rw [if_pos hk, if_neg fun heq => h (hk.trans heq.symm), if_pos hk]
      · rw [if_neg hk, if_neg hk]

theorem lookupKey_eraseKey {α : Type} (key k : String) (es : List (String × α)) :
    lookupKey k (eraseKey key es) = if key = k then none else lookupKey k es := by
  induction es with
  | nil => simp [eraseKey, lookupKey]
  | cons e rest ih =>
    obtain ⟨k', v⟩ := e
    rw [eraseKey] at ih ⊢
    by_cases h : k' = key
    · rw [List.filter_cons_of_neg (by simp [h]), ih, lookupKey]
      by_cases hk : key = k <;> simp [h, hk]
    · rw [List.filter_cons_of_pos (by simp [h]), lookupKey, ih, lookupKey]
      by_cases hk : k' = k
      · simp [hk, show ¬key = k from fun heq => h (hk.trans heq.symm)]
      · simp [hk]

/-- Values by key, in the order in which the keys came. -/
structure OrderedMap (α : Type) where
  entries : List (String × α)
  /-- No key occurs twice. -/
  nodup : (entries.map Prod.fst).Nodup

namespace OrderedMap

variable {α : Type}

/-- The map without keys. -/
def empty : OrderedMap α := ⟨[], by simp⟩

instance : Inhabited (OrderedMap α) := ⟨empty⟩

/-- The keys in order. -/
def keys (m : OrderedMap α) : List String := m.entries.map Prod.fst

/-- The number of keys. -/
def size (m : OrderedMap α) : Nat := m.entries.length

/-- Whether there is no key. -/
def isEmpty (m : OrderedMap α) : Bool := m.entries.isEmpty

/-- The value of a key. -/
def get? (m : OrderedMap α) (key : String) : Option α := lookupKey key m.entries

/-- Whether a key is there. -/
def contains (m : OrderedMap α) (key : String) : Bool := (m.get? key).isSome

/-- The map with a key set to a value. -/
def insert (m : OrderedMap α) (key : String) (value : α) : OrderedMap α :=
  ⟨setKey key value m.entries, nodup_keys_setKey key value m.nodup⟩

/-- The map with a key set to a value, unless the key is there. -/
def insertNew (m : OrderedMap α) (key : String) (value : α) : OrderedMap α :=
  if m.contains key then m else m.insert key value

/-- The map without a key. -/
def erase (m : OrderedMap α) (key : String) : OrderedMap α :=
  ⟨eraseKey key m.entries, nodup_keys_eraseKey key m.nodup⟩

/-- Sets the keys of some pairs from left to right. -/
def insertAll (m : OrderedMap α) (pairs : List (String × α)) : OrderedMap α :=
  pairs.foldl (fun m p => m.insert p.1 p.2) m

/-- The map of some pairs; a repeated key keeps its first place and takes its last value. -/
def ofList (pairs : List (String × α)) : OrderedMap α := empty.insertAll pairs

theorem eq_of_entries {m m' : OrderedMap α} (h : m.entries = m'.entries) : m = m' := by
  cases m
  cases m'
  cases h
  rfl

theorem entries_insertAll {pairs : List (String × α)} {m : OrderedMap α}
    (h : ((m.entries ++ pairs).map Prod.fst).Nodup) :
    (m.insertAll pairs).entries = m.entries ++ pairs := by
  induction pairs generalizing m with
  | nil => exact (List.append_nil _).symm
  | cons p rest ih =>
    have hnew : (m.insert p.1 p.2).entries = m.entries ++ [p] := by
      refine setKey_of_not_mem fun hmem => ?_
      rw [List.map_append, List.nodup_append] at h
      exact h.2.2 p.1 hmem p.1 (List.mem_map_of_mem List.mem_cons_self) rfl
    have hkeys : ((m.insert p.1 p.2).entries ++ rest).map Prod.fst =
        (m.entries ++ p :: rest).map Prod.fst := by
      rw [hnew, List.append_assoc, List.singleton_append]
    rw [insertAll, List.foldl_cons]
    exact (ih (hkeys ▸ h)).trans (by rw [hnew, List.append_assoc, List.singleton_append])

/-- Pairs of which no two have the same key are the entries of their map. -/
theorem entries_ofList {pairs : List (String × α)} (h : (pairs.map Prod.fst).Nodup) :
    (ofList pairs).entries = pairs :=
  entries_insertAll (m := empty) h

@[simp] theorem get?_empty (key : String) : (empty : OrderedMap α).get? key = none := rfl

theorem get?_insert (m : OrderedMap α) (key k : String) (value : α) :
    (m.insert key value).get? k = if key = k then some value else m.get? k :=
  lookupKey_setKey key k value m.entries

theorem get?_erase (m : OrderedMap α) (key k : String) :
    (m.erase key).get? k = if key = k then none else m.get? k :=
  lookupKey_eraseKey key k m.entries

@[simp] theorem erase_erase (m : OrderedMap α) (key : String) :
    (m.erase key).erase key = m.erase key := by
  refine eq_of_entries ?_
  show eraseKey key (eraseKey key m.entries) = eraseKey key m.entries
  rw [eraseKey, eraseKey, List.filter_filter]
  simp only [Bool.and_self]

end OrderedMap

end ServerBoundary
