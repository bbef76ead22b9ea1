import ServerBoundary.Proofs.Client.ReplyCodec

/-!
# Which texts refer to values

Registering a value gives a marker: `$T` and the number of the value. What is written refers to a
value if the text behind `$T` is read as the number of one, and numbers are read more generously
than they are printed (`index?_eq_some_iff`).

> `text_is_left_unescaped_iff`: of the texts that start with a dollar sign, at whatever place of a
> value, those are written as they are that spell the number of a marker. All others are escaped and
> read back as themselves. Apart from other spellings, only the markers are left unescaped.

> `marker_with_zero_is_replaced`: another spelling of a marker is taken for it.

A place in a value is a path of numbers, as in a tree of nodes. Both directions of the codec change
texts and nothing else, so that what stands at a place comes from what stood there
(`at?_substitute`).
-/

namespace ServerBoundary

/-! ## Places in values -/

namespace Json

/-- The values directly inside a value. -/
def children : Json → List Json
  | array items => items
  | object fields => fields.map Prod.snd
  | _ => []

/-- The value that a path leads to. -/
def at? : Json → List ℕ → Option Json
  | v, [] => some v
  | v, i :: path =>
    match v.children[i]? with
    | some c => at? c path
    | none => none

variable {f : String → Option Json}

theorem substituteItems_eq_map (items : List Json) :
    substituteItems f items = items.map (substitute f) := by
  induction items with
  | nil => rfl
  | cons v vs ih => rw [substituteItems, List.map_cons, ih]

theorem substituteFields_eq_map (fields : List (String × Json)) :
    substituteFields f fields = fields.map fun (k, v) => (k, v.substitute f) := by
  induction fields with
  | nil => rfl
  | cons field rest ih => rw [substituteFields, List.map_cons, ih]

/-- What is put in the place of texts is put in their place in the parts. -/
theorem children_substitute {v c : Json} {i : ℕ} (h : v.children[i]? = some c) :
    (v.substitute f).children[i]? = some (c.substitute f) := by
  cases v with
  | array items =>
    rw [substitute, substituteItems_eq_map, children, List.getElem?_map]
    exact congrArg _ h
  | object fields =>
    rw [children, List.getElem?_map] at h
    obtain ⟨field, hfield, rfl⟩ := Option.map_eq_some_iff.mp h
    rw [substitute, substituteFields_eq_map, children, List.getElem?_map, List.getElem?_map, hfield]
    rfl
  | _ => cases h

/-- **What stands at a place** after texts were replaced is what stood there with its texts
replaced. -/
theorem at?_substitute {w : Json} : ∀ {v : Json} {path : List ℕ}, v.at? path = some w →
    (v.substitute f).at? path = some (w.substitute f)
  | v, [], h => by
    cases h
    rfl
  | v, i :: path, h => by
    rw [at?] at h ⊢
    cases hc : v.children[i]? with
    | none =>
      rw [hc] at h
      cases h
    | some c =>
      rw [hc] at h
      rw [children_substitute hc]
      exact at?_substitute h

end Json

namespace Client

mutual
/-- Writing a value puts other texts in the place of its texts. -/
theorem encodeValue_eq_substitute (refs : ReferenceSet) :
    ∀ v, encodeValue refs v = v.substitute fun s => some (.string (encodeText refs s))
  | .null => rfl
  | .bool _ => rfl
  | .number _ => rfl
  | .string _ => rfl
  | .array items => congrArg Json.array (encodeItems_eq_substitute refs items)
  | .object fields => congrArg Json.object (encodeFields_eq_substitute refs fields)
theorem encodeItems_eq_substitute (refs : ReferenceSet) : ∀ items, encodeItems refs items =
    Json.substituteItems (fun s => some (.string (encodeText refs s))) items
  | [] => rfl
  | v :: vs => by
    rw [encodeItems, Json.substituteItems, encodeValue_eq_substitute refs v,
      encodeItems_eq_substitute refs vs]
theorem encodeFields_eq_substitute (refs : ReferenceSet) : ∀ fields, encodeFields refs fields =
    Json.substituteFields (fun s => some (.string (encodeText refs s))) fields
  | [] => rfl
  | (k, v) :: fs => by
    rw [encodeFields, Json.substituteFields, encodeValue_eq_substitute refs v,
      encodeFields_eq_substitute refs fs]
end

namespace ReferenceSet

/-! ## Markers -/

/-- A set that was built by registering values, with the markers that this gave. -/
inductive Built : ReferenceSet → List String → Prop
  | fresh (serial : ℕ) : Built { serial } []
  | register {s : ReferenceSet} {markers : List String} (v : Json) (h : Built s markers) :
    Built (s.register v).1 (markers ++ [(s.register v).2])

/-- The markers are those of the numbers of the values. -/
theorem Built.mem_iff {refs : ReferenceSet} {markers : List String} (h : refs.Built markers)
    {m : String} : m ∈ markers ↔ ∃ n < refs.size, m = marker n := by
  induction h with
  | fresh => simp [size]
  | @register s markers v _ ih =>
    have hsize : (s.register v).1.size = s.size + 1 := List.length_append
    rw [List.mem_append, List.mem_singleton, ih, hsize]
    constructor
    · rintro (⟨n, hn, rfl⟩ | rfl)
      · exact ⟨n, by omega, rfl⟩
      · exact ⟨s.size, by omega, rfl⟩
    · rintro ⟨n, hn, rfl⟩
      rcases Nat.lt_succ_iff_lt_or_eq.mp hn with hlt | rfl
      · exact .inl ⟨n, hlt, rfl⟩
      · exact .inr rfl

/-- A text that spells the number of a marker: it is the marker, or has zeros and perhaps a plus
sign before the digits of the number. -/
def IsSpellingOf (text marker : String) : Prop :=
  ∃ sign zeros digits, (sign = [] ∨ sign = ['+']) ∧ marker.toList = markerStart ++ digits ∧
    text.toList = markerStart ++ (sign ++ List.replicate zeros '0' ++ digits)

theorem toList_marker (n : ℕ) : (marker n).toList = markerStart ++ (Nat.repr n).toList := by
  rw [marker, String.toList_append, String.toList_ofList]

theorem isSpellingOf_marker_iff {text : String} {n : ℕ} : IsSpellingOf text (marker n) ↔
    ∃ digits, text.toList = markerStart ++ digits ∧ Spells digits n := by
  constructor
  · rintro ⟨sign, zeros, digits, hsign, hmarker, htext⟩
    rw [toList_marker] at hmarker
    exact ⟨_, htext, sign, zeros, hsign, by rw [List.append_cancel_left hmarker]⟩
  · rintro ⟨_, htext, sign, zeros, hsign, rfl⟩
    exact ⟨sign, zeros, _, hsign, toList_marker n, htext⟩

/-- **What refers to a value** are the markers and their other spellings. -/
theorem Built.exists_find?_iff {refs : ReferenceSet} {markers : List String}
    (h : refs.Built markers) (hsize : refs.size ≤ UInt64.size) {text : String} :
    (∃ v, refs.find? text = some v) ↔ ∃ m ∈ markers, IsSpellingOf text m := by
  constructor
  · rintro ⟨v, hv⟩
    obtain ⟨digits, n, htext, hn, hvalue⟩ := find?_eq_some_iff.mp hv
    exact ⟨marker n, h.mem_iff.mpr ⟨n, (List.getElem?_eq_some_iff.mp hvalue).1, rfl⟩,
      isSpellingOf_marker_iff.mpr ⟨digits, htext, (index?_eq_some_iff.mp hn).1⟩⟩
  · rintro ⟨m, hm, hspelling⟩
    obtain ⟨n, hn, rfl⟩ := h.mem_iff.mp hm
    obtain ⟨digits, htext, hdigits⟩ := isSpellingOf_marker_iff.mp hspelling
    have hindex : index? digits = some n :=
      index?_eq_some_iff.mpr ⟨hdigits, Nat.le_sub_one_of_lt (lt_of_lt_of_le hn hsize)⟩
    exact ⟨_, find?_eq_some_iff.mpr ⟨digits, n, htext, hindex, List.getElem?_eq_getElem hn⟩⟩

theorem isSpellingOf_self {refs : ReferenceSet} {markers : List String} (h : refs.Built markers)
    {m : String} (hm : m ∈ markers) : IsSpellingOf m m := by
  obtain ⟨n, -, rfl⟩ := h.mem_iff.mp hm
  exact ⟨[], 0, _, .inl rfl, toList_marker n, toList_marker n⟩

end ReferenceSet

/-! ## What is written -/

/-- A text that starts with a dollar sign is left as it is if it refers to a value. -/
theorem encodeText_eq_self_iff {refs : ReferenceSet} {s : String}
    (hdollar : s.toList.head? = some '$') :
    encodeText refs s = s ↔ ∃ v, refs.find? s = some v := by
  rcases encodeText_cases refs s with ⟨hs, v, hv⟩ | ⟨-, -, hhead⟩ | ⟨hnone, hs, -⟩
  · exact ⟨fun _ => ⟨v, hv⟩, fun _ => hs⟩
  · exact absurd hdollar hhead
  · rw [hs, hnone]
    simp [← String.toList_inj]

/-- Otherwise it gets a second dollar sign. -/
theorem encodeText_of_not_refers {refs : ReferenceSet} {s : String}
    (hdollar : s.toList.head? = some '$') (h : refs.find? s = none) :
    encodeText refs s = "$" ++ s := by
  rcases encodeText_cases refs s with ⟨-, v, hv⟩ | ⟨-, -, hhead⟩ | ⟨-, hs, -⟩
  · cases h.symm.trans hv
  · exact absurd hdollar hhead
  · exact hs

/-- **Which texts are left unescaped.** Take a text in a value that starts with a dollar sign. It is
written as it is if it spells the number of a marker that registering a value gave; otherwise a
second dollar sign is written, and the text is read back as itself, whatever values are registered
in the meantime. So only the markers are left unescaped, as long as the text is no other spelling of
one. -/
theorem text_is_left_unescaped_iff {refs : ReferenceSet} {markers : List String}
    (hbuilt : refs.Built markers) (hsize : refs.size ≤ UInt64.size) {v : Json} {path : List ℕ}
    {s : String} (hat : v.at? path = some (.string s)) (hdollar : s.toList.head? = some '$')
    (more : List Json) :
    ∃ written, encodeReply refs v = written.toBytes ∧
      (written.at? path = some (.string s) ↔ ∃ m ∈ markers, ReferenceSet.IsSpellingOf s m) ∧
      ((∀ m ∈ markers, ¬ReferenceSet.IsSpellingOf s m) →
        written.at? path = some (.string ("$" ++ s)) ∧
        ∃ element, decodeElement (refs.registerAll more) written = some element ∧
          element.at? path = some (.string s)) ∧
      ((∀ m ∈ markers, ReferenceSet.IsSpellingOf s m → s = m) →
        (written.at? path = some (.string s) ↔ s ∈ markers)) := by
  have hwritten : (encodeValue refs v).at? path = some (.string (encodeText refs s)) := by
    rw [encodeValue_eq_substitute]
    exact Json.at?_substitute hat
  have hleft : (encodeValue refs v).at? path = some (.string s) ↔
      ∃ m ∈ markers, ReferenceSet.IsSpellingOf s m := by
    rw [hwritten, Option.some.injEq, Json.string.injEq, encodeText_eq_self_iff hdollar,
      hbuilt.exists_find?_iff hsize]
  refine ⟨encodeValue refs v, rfl, hleft, fun hother => ?_, fun hmarker => ?_⟩
  · have hnone : refs.find? s = none := Option.eq_none_iff_forall_not_mem.mpr fun w hw => by
      obtain ⟨m, hm, hspelling⟩ := (hbuilt.exists_find?_iff hsize).mp ⟨w, hw⟩
      exact hother m hm hspelling
    refine ⟨by rw [hwritten, encodeText_of_not_refers hdollar hnone], _,
      decodeElement_encodeValue (refs.keptBy_registerAll more) v, ?_⟩
    rw [Json.at?_substitute hat, Json.substitute, hnone]
    rfl
  · rw [hleft]
    constructor
    · rintro ⟨m, hm, hspelling⟩
      rw [hmarker m hm hspelling]
      exact hm
    · intro hs
      exact ⟨s, hs, ReferenceSet.isSpellingOf_self hbuilt hs⟩

theorem built_formReferences : formReferences.Built ["$T0"] :=
  .register (.object [("name", .null)]) (.fresh 0)

/-- `$T1` refers to nothing when the form is written. It is escaped and read back as itself,
although it is a marker by then. -/
theorem later_marker_is_escaped :
    formReferences.Built ["$T0"] ∧
    (Json.object formFields).at? [0, 1] = some (.string "$T1") ∧
    "$T1".toList.head? = some '$' ∧ formReferences.size ≤ UInt64.size ∧
    ∃ written, encodeReply formReferences (.object formFields) = written.toBytes ∧
      written.at? [0, 1] = some (.string "$$T1") ∧
      ∃ element, decodeElement (formReferences.registerAll [.bool true]) written = some element ∧
        element.at? [0, 1] = some (.string "$T1") := by
  have hother : ∀ m ∈ ["$T0"], ¬ReferenceSet.IsSpellingOf "$T1" m := by
    intro m hm
    obtain rfl := List.mem_singleton.mp hm
    rw [show "$T0" = ReferenceSet.marker 0 from rfl, ReferenceSet.isSpellingOf_marker_iff]
    rintro ⟨digits, htext, hdigits⟩
    have hcut : ReferenceSet.markerStart ++ ['1'] = ReferenceSet.markerStart ++ digits := htext
    obtain rfl : ['1'] = digits := List.append_cancel_left hcut
    have hindex := ReferenceSet.index?_eq_some_iff.mpr ⟨hdigits, Nat.zero_le _⟩
    exact absurd hindex (by decide)
  have hat : (Json.object formFields).at? [0, 1] = some (.string "$T1") := rfl
  have hdollar : "$T1".toList.head? = some '$' := rfl
  have hsize : formReferences.size ≤ UInt64.size := by decide
  obtain ⟨written, hbody, -, hescaped, -⟩ :=
    text_is_left_unescaped_iff built_formReferences hsize hat hdollar [.bool true]
  exact ⟨built_formReferences, hat, hdollar, hsize, written, hbody, hescaped hother⟩

/-- Another spelling of a marker is taken for it: `$T00` is none of the markers, but it is written
as it is and read back as the value. -/
theorem marker_with_zero_is_replaced :
    formReferences.Built ["$T0"] ∧ "$T00" ∉ ["$T0"] ∧
    encodeReply formReferences (.array [.string "$T00"]) =
      (Json.array [.string "$T00"]).toBytes ∧
    decodeElement formReferences (.array [.string "$T00"]) =
      some (.array [.object [("name", .null)]]) :=
  ⟨built_formReferences, by decide, by cbv, by cbv⟩

end Client

end ServerBoundary
