import Mathlib.Data.List.Perm.Subperm
import ServerBoundary.Json.Value

/-!
# Equality of JSON values

Two values are equal if they differ in the order of keys at most, and zero is equal to itself with
either sign. The objects of a value that was read have no key twice, and on such values equality is
an equivalence.

> `Json.same_refl`, `Json.same_symm` and `Json.same_trans`: equality is reflexive and symmetric on
> values in which no object has a key twice, and it is transitive on all values.
-/

namespace ServerBoundary

/-! ## Numbers -/

theorem Decimal.Double.same_refl (a : Decimal.Double) : a.same a = true := by
  simp [Decimal.Double.same]

theorem Decimal.Double.same_symm {a b : Decimal.Double} (h : a.same b = true) :
    b.same a = true := by
  simp only [Decimal.Double.same, Bool.or_eq_true, Bool.and_eq_true, beq_iff_eq] at h ⊢
  exact h.imp And.symm Eq.symm

theorem Decimal.Double.same_trans {a b c : Decimal.Double} (h : a.same b = true)
    (h' : b.same c = true) : a.same c = true := by
  simp only [Decimal.Double.same, Bool.or_eq_true, Bool.and_eq_true, beq_iff_eq] at h h' ⊢
  rcases h with ⟨ha, hb⟩ | rfl
  · rcases h' with ⟨_, hc⟩ | rfl
    · exact .inl ⟨ha, hc⟩
    · exact .inl ⟨ha, hb⟩
  · exact h'

theorem JsonNumber.same_refl (a : JsonNumber) : a.same a = true := by
  cases a with
  | integer i => exact beq_self_eq_true i
  | double d => exact d.same_refl

theorem JsonNumber.same_symm {a b : JsonNumber} (h : a.same b = true) : b.same a = true := by
  cases a with
  | integer i =>
    cases b with
    | integer j => exact BEq.symm h
    | double e => exact absurd h (by simp [JsonNumber.same])
  | double d =>
    cases b with
    | integer j => exact absurd h (by simp [JsonNumber.same])
    | double e => exact Decimal.Double.same_symm h

theorem JsonNumber.same_trans {a b c : JsonNumber} (h : a.same b = true) (h' : b.same c = true) :
    a.same c = true := by
  cases a with
  | integer i =>
    cases b with
    | integer j =>
      rw [show i = j from beq_iff_eq.mp h]
      exact h'
    | double e => exact absurd h (by simp [JsonNumber.same])
  | double d =>
    cases b with
    | integer j => exact absurd h (by simp [JsonNumber.same])
    | double e =>
      cases c with
      | integer k => exact absurd h' (by simp [JsonNumber.same])
      | double f => exact Decimal.Double.same_trans (a := d) h h'

namespace Json

/-! ## Values -/

mutual
/-- What holds of an array if it holds of its items, and of an object if it holds of the values of
its fields, holds of all values. -/
theorem induction {P : Json → Prop} (null : P null) (bool : ∀ b, P (bool b))
    (number : ∀ n, P (number n)) (string : ∀ s, P (string s))
    (array : ∀ items, (∀ v ∈ items, P v) → P (array items))
    (object : ∀ fields, (∀ f ∈ fields, P f.2) → P (object fields)) : ∀ v, P v
  | .null => null
  | .bool b => bool b
  | .number n => number n
  | .string s => string s
  | .array items => array items (forall_items null bool number string array object items)
  | .object fields => object fields (forall_fields null bool number string array object fields)
theorem forall_items {P : Json → Prop} (null : P null) (bool : ∀ b, P (bool b))
    (number : ∀ n, P (number n)) (string : ∀ s, P (string s))
    (array : ∀ items, (∀ v ∈ items, P v) → P (array items))
    (object : ∀ fields, (∀ f ∈ fields, P f.2) → P (object fields)) :
    ∀ items : List Json, ∀ v ∈ items, P v
  | [] => fun _ h => absurd h List.not_mem_nil
  | w :: rest => List.forall_mem_cons.mpr
      ⟨induction null bool number string array object w,
        forall_items null bool number string array object rest⟩
theorem forall_fields {P : Json → Prop} (null : P null) (bool : ∀ b, P (bool b))
    (number : ∀ n, P (number n)) (string : ∀ s, P (string s))
    (array : ∀ items, (∀ v ∈ items, P v) → P (array items))
    (object : ∀ fields, (∀ f ∈ fields, P f.2) → P (object fields)) :
    ∀ fields : List (String × Json), ∀ f ∈ fields, P f.2
  | [] => fun _ h => absurd h List.not_mem_nil
  | (_, w) :: rest => List.forall_mem_cons.mpr
      ⟨induction null bool number string array object w,
        forall_fields null bool number string array object rest⟩
end

mutual
/-- Whether no object in a value has a key twice. -/
def distinctKeys : Json → Bool
  | array items => distinctItems items
  | object fields => decide (fields.map Prod.fst).Nodup && distinctFields fields
  | _ => true
/-- Whether no object in some values has a key twice. -/
def distinctItems : List Json → Bool
  | [] => true
  | v :: vs => distinctKeys v && distinctItems vs
/-- Whether no object in the values of some fields has a key twice. -/
def distinctFields : List (String × Json) → Bool
  | [] => true
  | (_, v) :: fs => distinctKeys v && distinctFields fs
end

theorem distinctItems_iff {items : List Json} :
    distinctItems items = true ↔ ∀ v ∈ items, v.distinctKeys = true := by
  induction items with
  | nil => simp [distinctItems]
  | cons v rest ih => rw [distinctItems, Bool.and_eq_true, ih, List.forall_mem_cons]

theorem distinctFields_iff {fields : List (String × Json)} :
    distinctFields fields = true ↔ ∀ f ∈ fields, f.2.distinctKeys = true := by
  induction fields with
  | nil => simp [distinctFields]
  | cons f rest ih => rw [distinctFields, Bool.and_eq_true, ih, List.forall_mem_cons]

theorem distinctKeys_object {fields : List (String × Json)} :
    (object fields).distinctKeys = true ↔
      (fields.map Prod.fst).Nodup ∧ ∀ f ∈ fields, f.2.distinctKeys = true := by
  rw [distinctKeys, Bool.and_eq_true, decide_eq_true_iff, distinctFields_iff]

theorem sameItems_iff {as bs : List Json} :
    sameItems as bs = true ↔ List.Forall₂ (fun a b => same a b = true) as bs := by
  induction as generalizing bs with
  | nil => cases bs <;> simp [sameItems]
  | cons a as ih =>
    cases bs with
    | nil => simp [sameItems]
    | cons b bs => rw [sameItems, Bool.and_eq_true, ih, List.forall₂_cons]

theorem sameFields_iff {as bs : List (String × Json)} :
    sameFields as bs = true ↔ ∀ f ∈ as, ∃ b, lookupKey f.1 bs = some b ∧ f.2.same b = true := by
  induction as with
  | nil => simp [sameFields]
  | cons f as ih =>
    rw [sameFields, Bool.and_eq_true, ih, List.forall_mem_cons]
    refine and_congr_left fun _ => ?_
    cases lookupKey f.1 bs with
    | none => simp
    | some b => simp

theorem same_object {as bs : List (String × Json)} :
    (object as).same (object bs) = true ↔ as.length = bs.length ∧
      ∀ f ∈ as, ∃ b, lookupKey f.1 bs = some b ∧ f.2.same b = true := by
  rw [same, Bool.and_eq_true, beq_iff_eq, sameFields_iff]

/-- Two objects without repeated keys in the first one, all of whose keys are in the second one of
the same size, have the same keys. -/
theorem perm_keys {as bs : List (String × Json)} (hnodup : (as.map Prod.fst).Nodup)
    (h : (object as).same (object bs) = true) : (as.map Prod.fst).Perm (bs.map Prod.fst) := by
  obtain ⟨hlength, hfields⟩ := same_object.mp h
  have hsubset : as.map Prod.fst ⊆ bs.map Prod.fst := by
    intro key hkey
    obtain ⟨f, hf, rfl⟩ := List.mem_map.mp hkey
    obtain ⟨b, hb, _⟩ := hfields f hf
    exact List.mem_map.mpr ⟨(f.1, b), mem_of_lookupKey hb, rfl⟩
  exact (List.subperm_of_subset hnodup hsubset).perm_of_length_le (by simp [hlength])

/-- **Equality is reflexive** on values in which no object has a key twice. -/
theorem same_refl {v : Json} (h : v.distinctKeys = true) : v.same v = true := by
  induction v using Json.induction with
  | null => rfl
  | bool b => exact beq_self_eq_true b
  | number n => exact n.same_refl
  | string s => exact beq_self_eq_true s
  | array items ih =>
    rw [distinctKeys, distinctItems_iff] at h
    rw [same, sameItems_iff, List.forall₂_same]
    exact fun v hv => ih v hv (h v hv)
  | object fields ih =>
    obtain ⟨hnodup, hfields⟩ := distinctKeys_object.mp h
    exact same_object.mpr
      ⟨rfl, fun f hf => ⟨f.2, lookupKey_of_mem hnodup hf, ih f hf (hfields f hf)⟩⟩

/-- **Equality is symmetric** if no object of the first value has a key twice. -/
theorem same_symm {v w : Json} (hv : v.distinctKeys = true) (h : v.same w = true) :
    w.same v = true := by
  induction v using Json.induction generalizing w with
  | null =>
    cases w with
    | null => rfl
    | _ => exact absurd h (by simp [same])
  | bool b =>
    cases w with
    | bool c => exact BEq.symm h
    | _ => exact absurd h (by simp [same])
  | number n =>
    cases w with
    | number m => exact JsonNumber.same_symm h
    | _ => exact absurd h (by simp [same])
  | string s =>
    cases w with
    | string t => exact BEq.symm h
    | _ => exact absurd h (by simp [same])
  | array items ih =>
    cases w with
    | array others =>
      rw [distinctKeys, distinctItems_iff] at hv
      rw [same, sameItems_iff] at h ⊢
      induction h with
      | nil => exact .nil
      | cons hab _ ihrest =>
        rw [List.forall_mem_cons] at ih hv
        exact .cons (ih.1 hv.1 hab) (ihrest ih.2 hv.2)
    | _ => exact absurd h (by simp [same])
  | object fields ih =>
    cases w with
    | object others =>
      obtain ⟨hnodup, hdistinct⟩ := distinctKeys_object.mp hv
      obtain ⟨hlength, hfields⟩ := same_object.mp h
      have hperm := perm_keys hnodup h
      have hothers : (others.map Prod.fst).Nodup := hperm.nodup_iff.mp hnodup
      refine same_object.mpr ⟨hlength.symm, fun g hg => ?_⟩
      -- The key of a field of the second object is that of one of the first.
      obtain ⟨f, hf, hkey⟩ := List.mem_map.mp (hperm.mem_iff.mpr (List.mem_map_of_mem hg))
      obtain ⟨b, hb, hsame⟩ := hfields f hf
      have hgb : g.2 = b := Option.some.inj ((lookupKey_of_mem hothers hg).symm.trans (hkey ▸ hb))
      refine ⟨f.2, hkey ▸ lookupKey_of_mem hnodup hf, ?_⟩
      rw [hgb]
      exact ih f hf (hdistinct f hf) hsame
    | _ => exact absurd h (by simp [same])

/-- **Equality is transitive.** -/
theorem same_trans {u v w : Json} (huv : u.same v = true) (hvw : v.same w = true) :
    u.same w = true := by
  induction u using Json.induction generalizing v w with
  | null =>
    cases v with
    | null => exact hvw
    | _ => exact absurd huv (by simp [same])
  | bool b =>
    cases v with
    | bool c =>
      rw [show b = c from beq_iff_eq.mp huv]
      exact hvw
    | _ => exact absurd huv (by simp [same])
  | number n =>
    cases v with
    | number m =>
      cases w with
      | number l => exact JsonNumber.same_trans huv hvw
      | _ => exact absurd hvw (by simp [same])
    | _ => exact absurd huv (by simp [same])
  | string s =>
    cases v with
    | string t =>
      rw [show s = t from beq_iff_eq.mp huv]
      exact hvw
    | _ => exact absurd huv (by simp [same])
  | array items ih =>
    cases v with
    | array middle =>
      cases w with
      | array others =>
        rw [same, sameItems_iff] at huv hvw ⊢
        induction huv generalizing others with
        | nil => exact hvw
        | cons hab _ ihrest =>
          cases hvw with
          | cons hbc hrest =>
            rw [List.forall_mem_cons] at ih
            exact .cons (ih.1 hab hbc) (ihrest ih.2 _ hrest)
      | _ => exact absurd hvw (by simp [same])
    | _ => exact absurd huv (by simp [same])
  | object fields ih =>
    cases v with
    | object middle =>
      cases w with
      | object others =>
        obtain ⟨hlength, hfields⟩ := same_object.mp huv
        obtain ⟨hlength', hfields'⟩ := same_object.mp hvw
        refine same_object.mpr ⟨hlength.trans hlength', fun f hf => ?_⟩
        obtain ⟨b, hb, hfb⟩ := hfields f hf
        obtain ⟨c, hc, hbc⟩ := hfields' (f.1, b) (mem_of_lookupKey hb)
        exact ⟨c, hc, ih f hf hfb hbc⟩
      | _ => exact absurd hvw (by simp [same])
    | _ => exact absurd huv (by simp [same])

end Json

end ServerBoundary
