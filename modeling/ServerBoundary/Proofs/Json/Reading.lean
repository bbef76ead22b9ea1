import ServerBoundary.Json.Read
import ServerBoundary.Proofs.Decimal.Rounding
import ServerBoundary.Proofs.Json.Equality

/-!
# Values that were read

A key that is read again replaces the value that it had, so that the fields of an object never have
a key twice. And a number that is a double was rounded, so that it is canonical.

> `Json.isProper_of_read`: in a value that was read, no object has a key twice and all doubles are
> canonical.
-/

namespace ServerBoundary

/-- Whether a number that is a double is a canonical one. -/
def JsonNumber.isCanonical : JsonNumber → Bool
  | integer _ => true
  | double d => d.isCanonical

namespace Json

/-! ## Proper values -/

mutual
/-- Whether all doubles in a value are canonical. -/
def isCanonical : Json → Bool
  | number n => n.isCanonical
  | array items => canonicalItems items
  | object fields => canonicalFields fields
  | _ => true
/-- Whether all doubles in some values are canonical. -/
def canonicalItems : List Json → Bool
  | [] => true
  | v :: vs => isCanonical v && canonicalItems vs
/-- Whether all doubles in the values of some fields are canonical. -/
def canonicalFields : List (String × Json) → Bool
  | [] => true
  | (_, v) :: fs => isCanonical v && canonicalFields fs
end

theorem canonicalItems_iff {items : List Json} :
    canonicalItems items = true ↔ ∀ v ∈ items, v.isCanonical = true := by
  induction items with
  | nil => simp [canonicalItems]
  | cons v rest ih => rw [canonicalItems, Bool.and_eq_true, ih, List.forall_mem_cons]

theorem canonicalFields_iff {fields : List (String × Json)} :
    canonicalFields fields = true ↔ ∀ f ∈ fields, f.2.isCanonical = true := by
  induction fields with
  | nil => simp [canonicalFields]
  | cons f rest ih => rw [canonicalFields, Bool.and_eq_true, ih, List.forall_mem_cons]

/-- Whether a value is one that there can be: no object has a key twice, and all doubles are
canonical. -/
def isProper (v : Json) : Bool := v.distinctKeys && v.isCanonical

theorem isProper_iff {v : Json} :
    v.isProper = true ↔ v.distinctKeys = true ∧ v.isCanonical = true := Bool.and_eq_true_iff

theorem isProper_array {items : List Json} :
    (array items).isProper = true ↔ ∀ v ∈ items, v.isProper = true := by
  simp only [isProper_iff, distinctKeys, isCanonical, distinctItems_iff, canonicalItems_iff]
  exact forall₂_and.symm

theorem isProper_object {fields : List (String × Json)} : (object fields).isProper = true ↔
    (fields.map Prod.fst).Nodup ∧ ∀ f ∈ fields, f.2.isProper = true := by
  simp only [isProper_iff, distinctKeys_object, isCanonical, canonicalFields_iff, and_assoc]
  exact and_congr_right fun _ => forall₂_and.symm

/-- Whether a value has no parts, and is canonical if it is a double. -/
def isLeaf : Json → Bool
  | number n => n.isCanonical
  | array _ => false
  | object _ => false
  | _ => true

theorem isProper_of_isLeaf {v : Json} (h : v.isLeaf = true) : v.isProper = true := by
  cases v with
  | number n => exact h
  | array items => cases h
  | object fields => cases h
  | _ => rfl

theorem isLeaf_signed {d : Decimal.Double} (h : d.Canonical) (positive : Bool) :
    (signed positive d).isLeaf = true := by
  cases positive with
  | true => exact Decimal.Double.isCanonical_iff.mpr h
  | false => exact Decimal.Double.isCanonical_iff.mpr h.negate

/-! ## Values without parts -/

/-- The value that reading gives, if it gives one, has no parts. -/
def ReadsLeaf (r : Result Json) : Prop := ∀ v j, r = .ok (v, j) → v.isLeaf = true

theorem readsLeaf_ok {v : Json} {i : Input} (h : v.isLeaf = true) :
    ReadsLeaf (.ok (v, i)) := by
  intro w j heq
  cases heq
  exact h

theorem readsLeaf_error {e : JsonFault × Nat} : ReadsLeaf (.error e) :=
  fun _ _ h => nomatch h

theorem readsLeaf_ident {value : Json} (h : value.isLeaf = true) (word : List UInt8)
    (i : Input) : ReadsLeaf (ident value word i) := by
  induction word generalizing i with
  | nil => exact readsLeaf_ok h
  | cons w rest ih =>
    rw [ident]
    split
    next => exact readsLeaf_error
    next =>
      split
      next => exact ih i.drop
      next => exact readsLeaf_error

/-! ## Numbers -/

theorem readsLeaf_fromParts (positive : Bool) (significand : Nat) (exponent : Int) (i : Input) :
    ReadsLeaf (fromParts positive significand exponent i) := by
  rw [fromParts]
  split
  next hd => exact readsLeaf_ok (isLeaf_signed (Decimal.Double.canonical_ofParts hd) positive)
  next => exact readsLeaf_error

/-- What is made of the digits of an exponent, once they are read. -/
theorem readsLeaf_exponentDigits (positive : Bool) (significand : Nat) (start : Int) (up : Bool)
    (i : Input) : ReadsLeaf
      (let (value, tooLarge, after) := exponentPart.exponentDigits i.rest 0 i.taken
      if tooLarge then
        if significand != 0 && up then faultAfter .numberOutOfRange after
        else .ok (signed positive (Decimal.Double.zero false), (skipDigits after).2)
      else fromParts positive significand (if up then start + value else start - value) after) := by
  dsimp only
  split
  next =>
    split
    next => exact readsLeaf_error
    next => exact readsLeaf_ok (isLeaf_signed (Decimal.Double.canonical_zero false) positive)
  next => exact readsLeaf_fromParts positive significand _ _

theorem readsLeaf_exponentPart (positive : Bool) (significand : Nat) (start : Int)
    (i : Input) : ReadsLeaf (exponentPart positive significand start i) := by
  have digits := readsLeaf_exponentDigits positive significand start
  rw [exponentPart]
  dsimp only
  split
  next => exact readsLeaf_error
  next =>
    split
    next => exact readsLeaf_error
    next =>
      split
      next => exact digits true _
      next => exact digits false _
      next => exact digits true _

theorem readsLeaf_exponentOrEnd (positive : Bool) (significand : Nat) (exponent : Int)
    (i : Input) : ReadsLeaf (exponentOrEnd positive significand exponent i) := by
  rw [exponentOrEnd]
  split
  next => exact readsLeaf_exponentPart positive significand exponent i
  next => exact readsLeaf_exponentPart positive significand exponent i
  next => exact readsLeaf_fromParts positive significand exponent i

theorem readsLeaf_fractionPart (positive : Bool) (significand : Nat) (exponent : Int)
    (i : Input) : ReadsLeaf (fractionPart positive significand exponent i) := by
  simp only [fractionPart]
  split
  next => exact readsLeaf_exponentOrEnd positive _ _ _
  next =>
    split
    next =>
      split
      next => exact readsLeaf_error
      next => exact readsLeaf_error
    next => exact readsLeaf_exponentOrEnd positive _ _ _

theorem readsLeaf_afterDigits (positive : Bool) (n : Nat) (i : Input) :
    ReadsLeaf (numberAt.afterDigits positive n i) := by
  rw [numberAt.afterDigits]
  split
  next => exact readsLeaf_fractionPart positive n 0 i
  next => exact readsLeaf_exponentPart positive n 0 i
  next => exact readsLeaf_exponentPart positive n 0 i
  next =>
    split
    next => exact readsLeaf_ok rfl
    next =>
      split
      next =>
        split
        next hd => exact readsLeaf_ok (isLeaf_signed (Decimal.Double.canonical_ofNat hd) false)
        next => exact readsLeaf_error
      next => exact readsLeaf_ok rfl

theorem readsLeaf_numberAt (positive : Bool) (i : Input) :
    ReadsLeaf (numberAt positive i) := by
  simp only [numberAt]
  split
  next => exact readsLeaf_error
  next =>
    split
    next => exact readsLeaf_error
    next =>
      split
      next =>
        split
        next => exact readsLeaf_error
        next => exact readsLeaf_afterDigits positive 0 _
      next => exact readsLeaf_afterDigits positive 0 _
    next =>
      split
      next =>
        split
        next => exact readsLeaf_fractionPart positive _ _ _
        next => exact readsLeaf_exponentOrEnd positive _ _ _
      next => exact readsLeaf_afterDigits positive _ _

/-! ## Arrays and objects -/

/-- An item is read at the start, or after a comma: a value and the items after it. -/
theorem exists_of_item {n depth : Nat} {at₁ j : Input} {items : List Json}
    (h : (match valueAt n depth at₁ with
      | .error e => (.error e : Result (List Json))
      | .ok (v, at₂) =>
        match itemsAt n depth false at₂ with
        | .error e => .error e
        | .ok (vs, at₃) => .ok (v :: vs, at₃)) = .ok (items, j)) :
    ∃ v rest at₁ at₂, items = v :: rest ∧ valueAt n depth at₁ = .ok (v, at₂) ∧
      itemsAt n depth false at₂ = .ok (rest, j) := by
  split at h
  next => cases h
  next v at₂ hv =>
    split at h
    next => cases h
    next vs at₃ hvs =>
      cases h
      exact ⟨v, vs, at₁, at₂, rfl, hv, hvs⟩

/-- Items that were read are none, or a value and the items after it. -/
theorem itemsAt_cases {n depth : Nat} {first : Bool} {i j : Input} {items : List Json}
    (h : itemsAt (n + 1) depth first i = .ok (items, j)) :
    items = [] ∨ ∃ v rest at₁ at₂, items = v :: rest ∧ valueAt n depth at₁ = .ok (v, at₂) ∧
      itemsAt n depth false at₂ = .ok (rest, j) := by
  simp only [itemsAt] at h
  split at h
  next => cases h
  next b _ _ =>
    split at h
    next =>
      cases h
      exact .inl rfl
    next =>
      split at h
      next => exact .inr (exists_of_item h)
      next =>
        split at h
        next =>
          split at h
          next => cases h
          next =>
            split at h
            next => cases h
            next => exact .inr (exists_of_item h)
        next => cases h

/-- A field is read at the start, or after a comma: its key is set to its value, and then the fields
after it are read. -/
theorem exists_of_field {n depth : Nat} {found fields : List (String × Json)} {at₁ j : Input}
    (h : (match stringBody at₁.drop with
      | .error e => (.error e : Result (List (String × Json)))
      | .ok (key, i) =>
        let i := i.skipSpace
        match i.rest with
        | [] => faultAt .endInObject i
        | b :: _ =>
          if b != 58 then faultAt .colonExpected i
          else
            match valueAt n depth i.drop with
            | .error e => .error e
            | .ok (v, i) => fieldsAt n depth false (setKey key v found) i) = .ok (fields, j)) :
    ∃ key v at₁ at₂, valueAt n depth at₁ = .ok (v, at₂) ∧
      fieldsAt n depth false (setKey key v found) at₂ = .ok (fields, j) := by
  split at h
  next => cases h
  next key _ _ =>
    dsimp only at h
    split at h
    next => cases h
    next =>
      split at h
      next => cases h
      next =>
        split at h
        next => cases h
        next v at₂ hv => exact ⟨key, v, _, at₂, hv, h⟩

/-- Fields that were read are those before, or a key was set to a value before the fields after it
were read. -/
theorem fieldsAt_cases {n depth : Nat} {first : Bool} {found fields : List (String × Json)}
    {i j : Input} (h : fieldsAt (n + 1) depth first found i = .ok (fields, j)) :
    fields = found ∨ ∃ key v at₁ at₂, valueAt n depth at₁ = .ok (v, at₂) ∧
      fieldsAt n depth false (setKey key v found) at₂ = .ok (fields, j) := by
  simp only [fieldsAt] at h
  split at h
  next => cases h
  next =>
    split at h
    next =>
      cases h
      exact .inl rfl
    next =>
      split at h
      next =>
        split at h
        next => exact .inr (exists_of_field h)
        next => cases h
      next =>
        split at h
        next =>
          split at h
          next => cases h
          next =>
            split at h
            next => exact .inr (exists_of_field h)
            next =>
              split at h
              next => cases h
              next => cases h
        next => cases h

/-- A value that was read is an array of items or an object of fields, or has no parts. -/
theorem valueAt_cases {n depth : Nat} {i j : Input} {v : Json}
    (h : valueAt (n + 1) depth i = .ok (v, j)) :
    v.isLeaf = true ∨
      (∃ items at₁, v = .array items ∧ itemsAt n (depth - 1) true at₁ = .ok (items, j)) ∨
      ∃ fields at₁, v = .object fields ∧ fieldsAt n (depth - 1) true [] at₁ = .ok (fields, j) := by
  simp only [valueAt] at h
  split at h
  next => cases h
  next b _ _ =>
    split at h
    next => exact .inl (readsLeaf_ident rfl _ _ v j h)
    next => exact .inl (readsLeaf_ident rfl _ _ v j h)
    next => exact .inl (readsLeaf_ident rfl _ _ v j h)
    next => exact .inl (readsLeaf_numberAt _ _ v j h)
    next =>
      split at h
      next => cases h
      next =>
        cases h
        exact .inl rfl
    next =>
      split at h
      next => cases h
      next =>
        split at h
        next => cases h
        next items _ hitems =>
          cases h
          exact .inr (.inl ⟨items, _, rfl, hitems⟩)
    next =>
      split at h
      next => cases h
      next =>
        split at h
        next => cases h
        next fields _ hfields =>
          cases h
          exact .inr (.inr ⟨fields, _, rfl, hfields⟩)
    next =>
      split at h
      next => exact .inl (readsLeaf_numberAt _ _ v j h)
      next => cases h

/-- Setting a key to a proper value keeps an object proper. -/
theorem isProper_setKey {key : String} {v : Json} {fields : List (String × Json)}
    (hv : v.isProper = true) (h : (object fields).isProper = true) :
    (object (setKey key v fields)).isProper = true := by
  obtain ⟨hnodup, hfields⟩ := isProper_object.mp h
  refine isProper_object.mpr ⟨nodup_keys_setKey key v hnodup, fun f hf => ?_⟩
  rcases mem_of_mem_setKey hf with hnew | hold
  · exact hnew ▸ hv
  · exact hfields f hold

/-- What is read in some number of steps is proper: values, items, and fields after fields that
are. -/
theorem proper_at (n : Nat) :
    (∀ depth i v j, valueAt n depth i = .ok (v, j) → v.isProper = true) ∧
      (∀ depth first i items j, itemsAt n depth first i = .ok (items, j) →
        ∀ v ∈ items, v.isProper = true) ∧
      ∀ depth first found i fields j, (object found).isProper = true →
        fieldsAt n depth first found i = .ok (fields, j) →
          (object fields).isProper = true := by
  induction n with
  | zero =>
    refine ⟨fun depth i v j h => ?_, fun depth first i items j h => ?_,
      fun depth first found i fields j _ h => ?_⟩
    · rw [valueAt] at h
      cases h
    · rw [itemsAt] at h
      cases h
    · rw [fieldsAt] at h
      cases h
  | succ n ih =>
    obtain ⟨ihvalue, ihitems, ihfields⟩ := ih
    refine ⟨fun depth i v j h => ?_, fun depth first i items j h => ?_,
      fun depth first found i fields j hfound h => ?_⟩
    · rcases valueAt_cases h with hv | ⟨items, at₁, rfl, hitems⟩ | ⟨fields, at₁, rfl, hfields⟩
      · exact isProper_of_isLeaf hv
      · exact isProper_array.mpr (ihitems _ _ _ _ _ hitems)
      · exact ihfields _ _ _ _ _ _ rfl hfields
    · rcases itemsAt_cases h with rfl | ⟨v, rest, at₁, at₂, rfl, hv, hrest⟩
      · exact fun v hv => absurd hv List.not_mem_nil
      · exact List.forall_mem_cons.mpr ⟨ihvalue _ _ _ _ hv, ihitems _ _ _ _ _ hrest⟩
    · rcases fieldsAt_cases h with rfl | ⟨key, v, at₁, at₂, hv, hrest⟩
      · exact hfound
      · exact ihfields _ _ _ _ _ _ (isProper_setKey (ihvalue _ _ _ _ hv) hfound) hrest

/-- **A value that was read is proper.** -/
theorem isProper_of_read {bytes : List UInt8} {v : Json} (h : read bytes = .ok v) :
    v.isProper = true := by
  rw [read] at h
  dsimp only at h
  split at h
  next => cases h
  next w i hvalue =>
    split at h
    next =>
      cases h
      exact (proper_at _).1 _ _ _ _ hvalue
    next => cases h

/-- In a value that was read, no object has a key twice. -/
theorem distinctKeys_of_read {bytes : List UInt8} {v : Json} (h : read bytes = .ok v) :
    v.distinctKeys = true :=
  (isProper_iff.mp (isProper_of_read h)).1

end Json

end ServerBoundary
