import Mathlib
import ServerBoundary.Client.Codec
import ServerBoundary.Proofs.Json.Reading

/-!
# Replies are read back

What a reply says is what was put into it: the reader of a payload undoes the writer of a reply,
also when further values were registered in the meantime. The three uses of `$` are kept apart. A
text that refers to a value when it is written starts with `$T` and is left as it is; every other
text that starts with `$` gets a second one, so that it is neither a reference nor `$undefined`.

> `ReferenceSet.index?_eq_some_iff`: the texts that are read as a number. Zeros may stand before its
> digits, and a plus sign before those.

> `ReferenceSet.find?_register`: the reference to a value finds it, whatever is registered later.

> `decodeElements_encodeReply`: reading a reply gives the elements of the object that was written,
> in its order, each of them with the values in place of the texts that refer to them.
-/

namespace ServerBoundary

namespace Json

mutual
/-- A value with other values in place of the texts for which there is one. -/
def substitute (f : String → Option Json) : Json → Json
  | string s => (f s).getD (string s)
  | array items => array (substituteItems f items)
  | object fields => object (substituteFields f fields)
  | v => v
/-- Values with other values in place of texts. -/
def substituteItems (f : String → Option Json) : List Json → List Json
  | [] => []
  | v :: vs => substitute f v :: substituteItems f vs
/-- Fields with other values in place of the texts in their values. -/
def substituteFields (f : String → Option Json) : List (String × Json) → List (String × Json)
  | [] => []
  | (k, v) :: fs => (k, substitute f v) :: substituteFields f fs
end

end Json

namespace Client

namespace ReferenceSet

/-! ## Numbers -/

/-- Texts that are read as a number: its digits, behind zeros and perhaps a plus sign. -/
def Spells (text : List Char) (n : ℕ) : Prop :=
  ∃ sign zeros, (sign = [] ∨ sign = ['+']) ∧
    text = sign ++ List.replicate zeros '0' ++ (Nat.repr n).toList

theorem digitChar_of_isDigit {c : Char} (h : c.isDigit = true) :
    c.toNat - 48 < 10 ∧ (c.toNat - 48).digitChar = c := by
  simp only [Char.isDigit, ge_iff_le, Bool.and_eq_true, decide_eq_true_eq] at h
  have hlow : 48 ≤ c.toNat := UInt32.le_iff_toNat_le.mp h.1
  have hhigh : c.toNat ≤ 57 := UInt32.le_iff_toNat_le.mp h.2
  refine ⟨by omega, ?_⟩
  rw [← Char.ofNat_toNat c]
  interval_cases c.toNat <;> rfl

/-- Digits are those of the number that they make, behind zeros. -/
theorem exists_zeros_append_toDigits {ds : List Char} (hne : ds ≠ [])
    (hdigits : ∀ c ∈ ds, c.isDigit = true) :
    ∃ zeros, ds = List.replicate zeros '0' ++ Nat.toDigits 10 (Nat.ofDigitChars 10 ds 0) := by
  induction ds using List.reverseRecOn with
  | nil => exact absurd rfl hne
  | append_singleton ds d ih =>
    obtain ⟨hlt, hd⟩ := digitChar_of_isDigit (hdigits d (by simp))
    have hlast : Nat.toDigits 10 (d.toNat - 48) = [d] := by rw [Nat.toDigits_of_lt_base hlt, hd]
    have hvalue : Nat.ofDigitChars 10 (ds ++ [d]) 0 =
        10 * Nat.ofDigitChars 10 ds 0 + (d.toNat - 48) := Nat.ofDigitChars_append 0
    rw [hvalue]
    rcases eq_or_ne ds [] with rfl | hds
    · refine ⟨0, ?_⟩
      rw [Nat.ofDigitChars_nil, Nat.mul_zero, Nat.zero_add, hlast]
      rfl
    obtain ⟨zeros, hzeros⟩ := ih hds fun c hc => hdigits c (List.mem_append_left _ hc)
    rcases Nat.eq_zero_or_pos (Nat.ofDigitChars 10 ds 0) with hzero | hpos
    · -- So far there were only zeros, and they stand before the last digit.
      rw [hzero] at hzeros ⊢
      refine ⟨zeros + 1, ?_⟩
      rw [Nat.mul_zero, Nat.zero_add, hlast, hzeros, List.replicate_succ']
      rfl
    · refine ⟨zeros, ?_⟩
      rw [← Nat.toDigits_append_toDigits (by norm_num) hpos hlt, hlast, ← List.append_assoc,
        ← hzeros]

/-- What is read as a number is digits behind a sign or none. -/
theorem index?_eq_some_iff_digits {text : List Char} {n : ℕ} : index? text = some n ↔
    ∃ sign ds, (sign = [] ∨ sign = ['+']) ∧ text = sign ++ ds ∧ ds ≠ [] ∧
      (∀ c ∈ ds, c.isDigit = true) ∧ Nat.ofDigitChars 10 ds 0 = n ∧ n ≤ maxIndex := by
  have hread : ∀ ds, (if (!ds.isEmpty && ds.all Char.isDigit) = true then
      if Nat.ofDigitChars 10 ds 0 ≤ maxIndex then some (Nat.ofDigitChars 10 ds 0) else none
      else none) = some n ↔ ds ≠ [] ∧ (∀ c ∈ ds, c.isDigit = true) ∧
        Nat.ofDigitChars 10 ds 0 = n ∧ n ≤ maxIndex := by
    intro ds
    split <;> grind
  constructor
  · intro h
    cases hdrop : Text.dropStart? ['+'] text with
    | none =>
      rw [index?, hdrop] at h
      exact ⟨[], text, .inl rfl, rfl, (hread text).mp h⟩
    | some ds =>
      rw [index?, hdrop] at h
      exact ⟨['+'], ds, .inr rfl, Text.dropStart?_eq_some_iff.mp hdrop, (hread ds).mp h⟩
  · rintro ⟨sign, ds, hsign, rfl, hds⟩
    have hdrop : (Text.dropStart? ['+'] (sign ++ ds)).getD (sign ++ ds) = ds := by
      rcases hsign with rfl | rfl
      · refine Text.getD_dropStart?_of_ne fun hhead => ?_
        have hplus := hds.2.1 '+' (List.mem_of_mem_head? hhead)
        exact absurd hplus (by decide)
      · exact Text.getD_dropStart?_cons '+' ds
    rw [index?, hdrop]
    exact (hread ds).mpr hds

/-- **The texts that are read as a number.** -/
theorem index?_eq_some_iff {text : List Char} {n : ℕ} :
    index? text = some n ↔ Spells text n ∧ n ≤ maxIndex := by
  rw [index?_eq_some_iff_digits]
  constructor
  · rintro ⟨sign, ds, hsign, rfl, hne, hdigits, rfl, hn⟩
    obtain ⟨zeros, hzeros⟩ := exists_zeros_append_toDigits hne hdigits
    refine ⟨⟨sign, zeros, hsign, ?_⟩, hn⟩
    rw [Nat.toList_repr, List.append_assoc, ← hzeros]
  · rintro ⟨⟨sign, zeros, hsign, rfl⟩, hn⟩
    refine ⟨sign, List.replicate zeros '0' ++ (Nat.repr n).toList, hsign, List.append_assoc _ _ _,
      ?_, ?_, ?_, hn⟩
    · rw [Nat.toList_repr]
      exact List.append_ne_nil_of_right_ne_nil _ Nat.toDigits_ne_nil
    · intro c hc
      rcases List.mem_append.mp hc with hzero | hdigit
      · rw [List.eq_of_mem_replicate hzero]
        rfl
      · rw [Nat.toList_repr] at hdigit
        exact Nat.isDigit_of_mem_toDigits (by decide) (by decide) hdigit
    · rw [Nat.toList_repr, Nat.ofDigitChars_append, Nat.ofDigitChars_replicate_zero, Nat.mul_zero,
        Nat.ofDigitChars_ten_toDigits]

/-! ## References -/

/-- A set after further values were registered. -/
def registerAll (s : ReferenceSet) (more : List Json) : ReferenceSet :=
  more.foldl (fun t v => (t.register v).1) s

theorem values_registerAll (s : ReferenceSet) (more : List Json) :
    (s.registerAll more).values = s.values ++ more := by
  induction more generalizing s with
  | nil => exact (List.append_nil _).symm
  | cons v rest ih =>
    rw [registerAll, List.foldl_cons]
    exact (ih _).trans (List.append_assoc _ [v] rest)

theorem find?_eq_some_iff {s : ReferenceSet} {text : String} {v : Json} :
    s.find? text = some v ↔ ∃ digits n, text.toList = markerStart ++ digits ∧
      index? digits = some n ∧ s.values[n]? = some v := by
  simp only [find?, Option.bind_eq_bind, Option.bind_eq_some_iff, Text.dropStart?_eq_some_iff]
  exact ⟨fun ⟨d, hd, n, hn, hv⟩ => ⟨d, n, hd, hn, hv⟩, fun ⟨d, n, hd, hn, hv⟩ => ⟨d, hd, n, hn, hv⟩⟩

/-- Texts that refer to a value refer to the same one in another set. -/
def KeptBy (s t : ReferenceSet) : Prop := ∀ text v, s.find? text = some v → t.find? text = some v

theorem keptBy_registerAll (s : ReferenceSet) (more : List Json) :
    s.KeptBy (s.registerAll more) := by
  intro text v h
  obtain ⟨digits, n, htext, hn, hv⟩ := find?_eq_some_iff.mp h
  refine find?_eq_some_iff.mpr ⟨digits, n, htext, hn, ?_⟩
  rw [values_registerAll, List.getElem?_append_left (List.getElem?_eq_some_iff.mp hv).1, hv]

/-- Only a text that starts with a dollar sign and the letter after it refers to a value. -/
theorem find?_eq_none {s : ReferenceSet} {text : String}
    (h : ∀ digits, text.toList ≠ '$' :: 'T' :: digits) : s.find? text = none :=
  Option.eq_none_iff_forall_not_mem.mpr fun _ hv => by
    obtain ⟨digits, _, htext, _, _⟩ := find?_eq_some_iff.mp hv
    exact h digits htext

/-- The digits of a number are read as that number. -/
theorem index?_repr {n : Nat} (h : n ≤ maxIndex) : index? (Nat.repr n).toList = some n :=
  index?_eq_some_iff.mpr ⟨⟨[], 0, .inl rfl, rfl⟩, h⟩

/-- **The reference to a value that was registered finds it**, whatever is registered later. -/
theorem find?_register {s : ReferenceSet} (h : s.values.length ≤ maxIndex) (v : Json)
    (more : List Json) : ((s.register v).1.registerAll more).find? (s.register v).2 = some v := by
  refine find?_eq_some_iff.mpr ⟨_, s.values.length, ?_, index?_repr h, ?_⟩
  · rw [register, marker, String.toList_append, String.toList_ofList]
  · rw [values_registerAll]
    show ((s.values ++ [v]) ++ more)[s.values.length]? = some v
    rw [List.append_assoc, List.getElem?_append_right (Nat.le_refl _), Nat.sub_self]
    rfl

end ReferenceSet

/-! ## Texts -/

/-- A text is written as it is, or with one more dollar sign before the one it starts with. -/
theorem encodeText_cases (refs : ReferenceSet) (s : String) :
    (encodeText refs s = s ∧ ∃ v, refs.find? s = some v) ∨
      (refs.find? s = none ∧ encodeText refs s = s ∧ s.toList.head? ≠ some '$') ∨
      (refs.find? s = none ∧ encodeText refs s = "$" ++ s ∧ s.toList.head? = some '$') := by
  rw [encodeText, ReferenceSet.resolves]
  cases hfind : refs.find? s with
  | some v => exact .inl ⟨by simp, v, rfl⟩
  | none =>
    by_cases hhead : s.toList.head? = some '$'
    · exact .inr (.inr ⟨rfl, by simp [hhead], hhead⟩)
    · exact .inr (.inl ⟨rfl, by simp [hhead], hhead⟩)

variable {refs later : ReferenceSet}

/-- A text that was written stands for the value that it refers to, or for itself. -/
theorem decodeText_encodeText (hkept : refs.KeptBy later) (s : String) :
    decodeText later (encodeText refs s) = (refs.find? s).getD (.string s) := by
  rcases encodeText_cases refs s with ⟨hs, v, hv⟩ | ⟨hnone, hs, hhead⟩ | ⟨hnone, hs, hhead⟩
  · -- A reference has no second dollar sign, so it is looked up.
    obtain ⟨digits, n, htext, -, -⟩ := ReferenceSet.find?_eq_some_iff.mp hv
    rw [hs, decodeText, htext, hv, ReferenceSet.markerStart]
    show (later.find? s).getD (.string s) = v
    rw [hkept s v hv]
    rfl
  · -- Without a dollar sign in front nothing is found, whatever was registered since.
    have hplain : ∀ c rest, s.toList ≠ '$' :: c :: rest := fun c rest heq =>
      hhead (by rw [heq]; rfl)
    rw [hs, hnone, decodeText]
    split
    next rest heq => exact absurd heq (hplain '$' rest)
    next => rw [ReferenceSet.find?_eq_none (hplain 'T')]
  · obtain ⟨rest, hrest⟩ : ∃ rest, s.toList = '$' :: rest := by
      cases hlist : s.toList with
      | nil => rw [hlist] at hhead; cases hhead
      | cons c rest =>
        rw [hlist] at hhead
        cases hhead
        exact ⟨rest, rfl⟩
    have htwo : ("$" ++ s).toList = '$' :: '$' :: rest := by rw [String.toList_append, hrest]; rfl
    rw [hs, hnone, decodeText, htwo]
    exact congrArg Json.string (by rw [← hrest, String.ofList_toList])

/-- No text is written as the text of an undefined element. -/
theorem encodeText_ne_undefinedText (s : String) : encodeText refs s ≠ undefinedText := by
  intro h
  rcases encodeText_cases refs s with ⟨hs, v, hv⟩ | ⟨-, hs, hhead⟩ | ⟨-, hs, hhead⟩
  · obtain ⟨digits, n, htext, -, -⟩ := ReferenceSet.find?_eq_some_iff.mp hv
    rw [← hs, h] at htext
    exact absurd htext (by simp [undefinedText, ReferenceSet.markerStart])
  · rw [← hs, h] at hhead
    exact hhead rfl
  · have hlist := congrArg String.toList (hs.symm.trans h)
    rw [String.toList_append, show "$".toList = ['$'] from rfl, List.singleton_append,
      show undefinedText.toList = '$' :: "undefined".toList from rfl, List.cons.injEq] at hlist
    rw [hlist.2] at hhead
    exact absurd hhead (by decide)

/-! ## Values -/

mutual
/-- **A value that was written stands for itself**, with the values in place of the texts that refer
to them. -/
theorem decodeValue_encodeValue (hkept : refs.KeptBy later) :
    ∀ v, decodeValue later (encodeValue refs v) = v.substitute refs.find?
  | .null => rfl
  | .bool _ => rfl
  | .number _ => rfl
  | .string s => decodeText_encodeText hkept s
  | .array items => congrArg Json.array (decodeItems_encodeItems hkept items)
  | .object fields => congrArg Json.object (decodeFields_encodeFields hkept fields)
theorem decodeItems_encodeItems (hkept : refs.KeptBy later) :
    ∀ items, decodeItems later (encodeItems refs items) = Json.substituteItems refs.find? items
  | [] => rfl
  | v :: vs => by
    rw [encodeItems, decodeItems, Json.substituteItems, decodeValue_encodeValue hkept v,
      decodeItems_encodeItems hkept vs]
theorem decodeFields_encodeFields (hkept : refs.KeptBy later) :
    ∀ fields, decodeFields later (encodeFields refs fields) =
      Json.substituteFields refs.find? fields
  | [] => rfl
  | (k, v) :: fs => by
    rw [encodeFields, decodeFields, Json.substituteFields, decodeValue_encodeValue hkept v,
      decodeFields_encodeFields hkept fs]
end

/-- A value that was written is not an undefined element. -/
theorem decodeElement_encodeValue (hkept : refs.KeptBy later) (v : Json) :
    decodeElement later (encodeValue refs v) = some (v.substitute refs.find?) := by
  rw [← decodeValue_encodeValue hkept v]
  cases v with
  | string s =>
    rw [encodeValue, decodeElement, if_neg (by simpa using encodeText_ne_undefinedText s)]
    rfl
  | _ => rfl

theorem map_decodeElement_encodeFields (hkept : refs.KeptBy later)
    (fields : List (String × Json)) :
    (encodeFields refs fields).map (fun (id, v) => (id, decodeElement later v)) =
      fields.map fun (id, v) => (id, some (v.substitute refs.find?)) := by
  induction fields with
  | nil => rfl
  | cons f rest ih =>
    obtain ⟨id, v⟩ := f
    rw [encodeFields, List.map_cons, List.map_cons, ih]
    exact congrArg (fun element => (id, element) :: _) (decodeElement_encodeValue hkept v)

/-- **A reply is read back as the elements that were written**, in their order and none of them
undefined: with whatever values were registered since, every text that referred to a value when it
was written has become that value, and every other text is as it was. -/
theorem decodeElements_encodeReply (refs : ReferenceSet) (more : List Json)
    (fields : List (String × Json))
    (hread : Json.read (encodeReply refs (.object fields)) =
      .ok (encodeValue refs (.object fields))) :
    ∃ elements, decodeElements (refs.registerAll more) (encodeReply refs (.object fields)) =
        .ok elements ∧
      elements.entries = fields.map fun (id, v) => (id, some (v.substitute refs.find?)) := by
  have hkeys : ((encodeFields refs fields).map Prod.fst).Nodup :=
    (Json.distinctKeys_object.mp (Json.distinctKeys_of_read hread)).1
  refine ⟨_, by rw [decodeElements, hread]; rfl, ?_⟩
  rw [OrderedMap.entries_ofList (by simpa [Function.comp_def] using hkeys),
    map_decodeElement_encodeFields (refs.keptBy_registerAll more)]

/-- A set that keeps the state of a form. -/
def formReferences : ReferenceSet := (({} : ReferenceSet).register (.object [("name", .null)])).1

/-- A reply with a reference and with texts that are not references. -/
def formFields : List (String × Json) :=
  [("state", .array [.string "$T0", .string "$T1"]), ("price", .string "$$x"),
    ("gone", .string "$undefined")]

/-- The state of the form comes back in the place of the reference to it. `$T1`, which referred to
nothing when it was written and since then does, comes back as it was. -/
theorem form_reply_is_read_back :
    Json.read (encodeReply formReferences (.object formFields)) =
        .ok (encodeValue formReferences (.object formFields)) ∧
      ∃ elements, decodeElements (formReferences.registerAll [.bool true])
          (encodeReply formReferences (.object formFields)) = .ok elements ∧
        elements.entries =
          [("state", some (.array [.object [("name", .null)], .string "$T1"])),
            ("price", some (.string "$$x")), ("gone", some (.string "$undefined"))] := by
  have hread : Json.read (encodeReply formReferences (.object formFields)) =
      .ok (encodeValue formReferences (.object formFields)) := by cbv
  obtain ⟨elements, hok, hentries⟩ :=
    decodeElements_encodeReply formReferences [.bool true] formFields hread
  exact ⟨hread, elements, hok, hentries.trans (by cbv)⟩

end Client

end ServerBoundary
