import ServerBoundary.Proofs.Decimal.Shortest
import ServerBoundary.Proofs.Json.Reading

/-!
# The text of a JSON value tells it from all others

Values are written without blanks. What ends a string is a quote, which is escaped inside, and what
ends a number is a character that is in no number. So a part and what follows it can be told from
the text that they make together (`Readable`), for strings and numbers, then for lists of readable
parts with commas between them, and by induction for all values.

> `text_inj`, `toBytes_inj`: two values with one text, or with the same bytes, are equal.

The doubles in the values are canonical. The order of the fields counts here: an object with other
fields first has another text.
-/

namespace ServerBoundary

open Decimal Decimal.Shortest

/-! ## Bytes -/

theorem Text.Utf8.toList_loop (bytes : ByteArray) (i : ℕ) (r : List UInt8) :
    ByteArray.toList.loop bytes i r = r.reverse ++ bytes.data.toList.drop i := by
  fun_induction ByteArray.toList.loop bytes i r with
  | case1 i r h ih =>
    have hbyte : bytes.data.toList.drop i = bytes.get! i :: bytes.data.toList.drop (i + 1) := by
      rw [List.drop_eq_getElem_cons (by simpa using h)]
      congr 1
      show _ = bytes.data[i]!
      rw [getElem!_pos bytes.data i h, Array.getElem_toList]
    rw [ih, List.reverse_cons, List.append_assoc, hbyte]
    rfl
  | case2 i r h => rw [List.drop_eq_nil_of_le (by simpa using h), List.append_nil]

/-- Two texts with the same bytes are equal. -/
theorem Text.Utf8.encode_inj {s t : String} (h : encode s = encode t) : s = t := by
  have hdata : ∀ bytes : ByteArray, bytes.toList = bytes.data.toList := fun bytes =>
    toList_loop bytes 0 []
  rw [encode, encode, hdata, hdata] at h
  exact String.toByteArray_inj.mp (ByteArray.ext (Array.toList_inj.mp h))

namespace Json

/-! ## Strings -/

/-- The value of a hexadecimal digit in lower case. -/
def hexValue (c : Char) : ℕ := if c.isDigit then c.toNat - 48 else c.toNat - 87

/-- The character that stands first in an escaped text, and the text behind it. -/
def unescape? : List Char → Option (Char × List Char)
  | '\x5c' :: 'u' :: _ :: _ :: a :: b :: rest =>
    some (Char.ofNat (16 * hexValue a + hexValue b), rest)
  | '\x5c' :: 'b' :: rest => some (Char.ofNat 8, rest)
  | '\x5c' :: 't' :: rest => some (Char.ofNat 9, rest)
  | '\x5c' :: 'n' :: rest => some (Char.ofNat 10, rest)
  | '\x5c' :: 'f' :: rest => some (Char.ofNat 12, rest)
  | '\x5c' :: 'r' :: rest => some (Char.ofNat 13, rest)
  | '\x5c' :: c :: rest => some (c, rest)
  | c :: rest => some (c, rest)
  | [] => none

/-- Characters that are neither quotes, backslashes nor control characters stand for themselves. -/
theorem escape_of_plain {c : Char} (hquote : c ≠ '\x22') (hbackslash : c ≠ '\x5c')
    (hcontrol : 32 ≤ c.toNat) : escape c = [c] := by
  rw [escape, if_neg (by simp [hquote, hbackslash])]
  split
  all_goals first | omega | skip
  next => rw [if_neg (by omega)]

theorem unescape?_of_plain {c : Char} (h : c ≠ '\x5c') (rest : List Char) :
    unescape? (c :: rest) = some (c, rest) := by
  unfold unescape?
  split
  case h_8 heq =>
    cases heq
    rfl
  case h_9 heq => cases heq
  all_goals
    next heq => exact absurd (List.cons.inj heq).1 h

/-- An escaped character is read back. -/
theorem unescape?_escape (c : Char) (rest : List Char) :
    unescape? (escape c ++ rest) = some (c, rest) := by
  by_cases hquote : c = '\x22'
  · rw [hquote]
    rfl
  by_cases hbackslash : c = '\x5c'
  · rw [hbackslash]
    rfl
  by_cases hcontrol : c.toNat < 32
  · rw [← Char.ofNat_toNat c]
    interval_cases c.toNat <;> rfl
  · rw [escape_of_plain hquote hbackslash (by omega), List.singleton_append,
      unescape?_of_plain hbackslash]

/-- An escaped character starts with no quote. -/
theorem exists_escape_eq (c : Char) : ∃ d ds, escape c = d :: ds ∧ d ≠ '\x22' := by
  by_cases hplain : c ≠ '\x22' ∧ c ≠ '\x5c' ∧ 32 ≤ c.toNat
  · exact ⟨c, [], escape_of_plain hplain.1 hplain.2.1 hplain.2.2, hplain.1⟩
  · rw [escape]
    split
    next => exact ⟨_, _, rfl, by decide⟩
    next hother =>
      have hcontrol : c.toNat < 32 := by
        simp only [Bool.or_eq_true, beq_iff_eq, not_or] at hother
        by_contra hle
        exact hplain ⟨hother.1, hother.2, by omega⟩
      split
      all_goals first | exact ⟨_, _, rfl, by decide⟩ | skip
      next => exact ⟨_, _, by rw [if_pos hcontrol], by decide⟩

/-- The end of a string is the first quote that is not escaped. -/
theorem escaped_inj {cs ds rest rest' : List Char}
    (h : cs.flatMap escape ++ '\x22' :: rest = ds.flatMap escape ++ '\x22' :: rest') :
    cs = ds ∧ rest = rest' := by
  induction cs generalizing ds with
  | nil =>
    cases ds with
    | nil =>
      cases h
      exact ⟨rfl, rfl⟩
    | cons d ds =>
      obtain ⟨e, es, hescape, hne⟩ := exists_escape_eq d
      rw [List.flatMap_cons, hescape] at h
      exact absurd (List.cons.inj h).1.symm hne
  | cons c cs ih =>
    cases ds with
    | nil =>
      obtain ⟨e, es, hescape, hne⟩ := exists_escape_eq c
      rw [List.flatMap_cons, hescape] at h
      exact absurd (List.cons.inj h).1 hne
    | cons d ds =>
      have hread := congrArg unescape? h
      rw [List.flatMap_cons, List.flatMap_cons, List.append_assoc, List.append_assoc,
        unescape?_escape, unescape?_escape, Option.some.injEq, Prod.mk.injEq] at hread
      obtain ⟨rfl, hrest⟩ := ih hread.2
      exact ⟨by rw [hread.1], hrest⟩

/-! ## What follows a part -/

/-- Whether a text does not go on with a character that can stand in a number. -/
def Delimited (rest : List Char) : Prop := ∀ c, rest.head? = some c → isNumeral c = false

theorem delimited_nil : Delimited [] := fun _ h => nomatch h

theorem delimited_cons {c : Char} (h : isNumeral c = false) (rest : List Char) :
    Delimited (c :: rest) := fun _ hc => Option.some.inj hc ▸ h

/-- Whether two things, and what follows them, can be told from their texts, if the texts behind
them do not go on like a number. -/
def Readable {α : Type} (write : α → List Char) (a b : α) : Prop :=
  ∀ rest rest', Delimited rest → Delimited rest' → write a ++ rest = write b ++ rest' →
    a = b ∧ rest = rest'

theorem readable_stringText (s t : String) : Readable (fun s => (stringText s).toList) s t := by
  intro rest rest' _ _ h
  simp only [stringText, String.toList_ofList, List.cons_append, List.append_assoc,
    List.nil_append, List.cons.injEq, true_and] at h
  obtain ⟨hlist, hrest⟩ := escaped_inj h
  exact ⟨String.toList_inj.mp hlist, hrest⟩

/-! ## Numbers -/

theorem takeWhile_isNumeral {cs rest : List Char} (hcs : ∀ c ∈ cs, isNumeral c = true)
    (hrest : Delimited rest) : (cs ++ rest).takeWhile isNumeral = cs := by
  rw [List.takeWhile_append_of_pos hcs]
  cases rest with
  | nil => exact List.append_nil cs
  | cons c rest =>
    rw [List.takeWhile_cons_of_neg (by rw [hrest c rfl]; decide), List.append_nil]

theorem toList_integer (i : ℤ) : (numberText (.integer i)).toList =
    (if decide (i < 0) then ['-'] else []) ++ Nat.toDigits 10 i.natAbs := by
  rw [numberText]
  split
  next h => rw [String.toList_append, Nat.toList_repr, if_pos (by simpa using h)]; rfl
  next h => rw [Nat.toList_repr, if_neg (by simpa using h), List.nil_append]

/-- What stands in the text of an integer. -/
theorem isDigit_of_mem_integer {i : ℤ} {c : Char} (h : c ∈ (numberText (.integer i)).toList) :
    c = '-' ∨ c.isDigit = true := by
  rw [toList_integer] at h
  rcases List.mem_append.mp h with hsign | hdigits
  · left
    split at hsign
    next => exact List.mem_singleton.mp hsign
    next => exact absurd hsign List.not_mem_nil
  · exact .inr (allDigits_toDigits _ c hdigits)

theorem isNumeral_of_mem_numberText {n : JsonNumber} {c : Char} (h : c ∈ (numberText n).toList) :
    isNumeral c = true := by
  cases n with
  | integer i =>
    rcases isDigit_of_mem_integer h with rfl | hdigit
    · rfl
    · simp only [isNumeral, hdigit, Bool.true_or]
  | double d =>
    rw [numberText, toList_text] at h
    rcases List.mem_append.mp h with hsign | hbody
    · split at hsign
      next =>
        rw [List.mem_singleton.mp hsign]
        rfl
      next => exact absurd hsign List.not_mem_nil
    · exact (isFraction_unsigned doubleStyle d).isNumeral c hbody

theorem toList_numberText_ne_nil (n : JsonNumber) : (numberText n).toList ≠ [] := by
  cases n with
  | integer i =>
    rw [toList_integer]
    exact List.append_ne_nil_of_right_ne_nil _ Nat.toDigits_ne_nil
  | double d =>
    obtain ⟨c, hhead, -⟩ := (isFraction_unsigned doubleStyle d).head
    rw [numberText, toList_text]
    refine List.append_ne_nil_of_right_ne_nil _ fun hnil => ?_
    rw [hnil] at hhead
    cases hhead

/-- No integer has the text of a double, in which there is a point or an exponent. -/
theorem integer_ne_double (i : ℤ) (d : Decimal.Double) :
    numberText (.integer i) ≠ numberText (.double d) := by
  intro h
  have hmem : ∀ c ∈ unsigned doubleStyle d, c ∈ (numberText (.integer i)).toList := by
    intro c hc
    rw [h, numberText, toList_text]
    exact List.mem_append_right _ hc
  rcases (isFraction_unsigned doubleStyle d).marked with hpoint | hexponent
  · exact absurd (isDigit_of_mem_integer (hmem _ hpoint)) (by decide)
  · exact absurd (isDigit_of_mem_integer (hmem _ hexponent)) (by decide)

theorem startsWithDigit_toDigits (n : ℕ) : StartsWithDigit (Nat.toDigits 10 n) := by
  obtain ⟨d, ds, hdigits⟩ := List.exists_cons_of_ne_nil (Nat.toDigits_ne_nil (b := 10) (n := n))
  refine ⟨d, by rw [hdigits]; rfl, allDigits_toDigits n d ?_⟩
  rw [hdigits]
  exact List.mem_cons_self

theorem numberText_integer_inj {i j : ℤ}
    (h : numberText (.integer i) = numberText (.integer j)) : i = j := by
  have hlist := congrArg String.toList h
  rw [toList_integer, toList_integer] at hlist
  obtain ⟨hsign, hdigits⟩ :=
    sign_inj (startsWithDigit_toDigits i.natAbs) (startsWithDigit_toDigits j.natAbs) hlist
  have habs : i.natAbs = j.natAbs := by
    have := congrArg (Nat.ofDigitChars 10 · 0) hdigits
    simpa only [Nat.ofDigitChars_ten_toDigits] using this
  have hsign' : i < 0 ↔ j < 0 := decide_eq_decide.mp hsign
  omega

theorem numberText_inj {m n : JsonNumber} (hm : m.isCanonical = true) (hn : n.isCanonical = true)
    (h : numberText m = numberText n) : m = n := by
  cases m with
  | integer i =>
    cases n with
    | integer j => rw [numberText_integer_inj h]
    | double e => exact absurd h (integer_ne_double i e)
  | double d =>
    cases n with
    | integer j => exact absurd h.symm (integer_ne_double j d)
    | double e =>
      have hd : d.Canonical := Double.isCanonical_iff.mp hm
      have he : e.Canonical := Double.isCanonical_iff.mp hn
      rw [Decimal.Shortest.text_inj hd he h]

theorem readable_numberText {m n : JsonNumber} (hm : m.isCanonical = true)
    (hn : n.isCanonical = true) : Readable (fun n => (numberText n).toList) m n := by
  intro rest rest' hrest hrest' h
  -- The text of a number is as much of the whole text as can stand in a number.
  have htext := congrArg (List.takeWhile isNumeral) h
  rw [takeWhile_isNumeral (fun _ => isNumeral_of_mem_numberText) hrest,
    takeWhile_isNumeral (fun _ => isNumeral_of_mem_numberText) hrest'] at htext
  have heq : m = n := numberText_inj hm hn (String.toList_inj.mp htext)
  rw [heq] at h
  exact ⟨heq, List.append_cancel_left h⟩

/-! ## Lists -/

section Lists

variable {α : Type} {write : α → List Char}

/-- Things written with a comma in front of each. -/
def afterCommas (write : α → List Char) (as : List α) : List Char :=
  as.flatMap fun a => ',' :: write a

/-- Things written with commas between them. -/
def commas (write : α → List Char) : List α → List Char
  | [] => []
  | a :: as => write a ++ afterCommas write as

theorem afterCommas_cons (a : α) (as : List α) :
    afterCommas write (a :: as) = ',' :: (write a ++ afterCommas write as) := rfl

theorem delimited_afterCommas {close : Char} (hclose : isNumeral close = false) (as : List α)
    (rest : List Char) : Delimited (afterCommas write as ++ close :: rest) := by
  cases as with
  | nil => exact delimited_cons hclose rest
  | cons a as => exact delimited_cons (by decide) _

theorem afterCommas_inj {close : Char} (hclose : isNumeral close = false) (hcomma : close ≠ ',')
    {as bs : List α} {rest rest' : List Char}
    (hread : ∀ a ∈ as, ∀ b ∈ bs, Readable write a b)
    (h : afterCommas write as ++ close :: rest = afterCommas write bs ++ close :: rest') :
    as = bs ∧ rest = rest' := by
  induction as generalizing bs with
  | nil =>
    cases bs with
    | nil =>
      cases h
      exact ⟨rfl, rfl⟩
    | cons b bs => exact absurd (List.cons.inj h).1 hcomma
  | cons a as ih =>
    cases bs with
    | nil => exact absurd (List.cons.inj h).1.symm hcomma
    | cons b bs =>
      rw [afterCommas_cons, afterCommas_cons, List.cons_append, List.cons_append, List.append_assoc,
        List.append_assoc] at h
      -- Behind a member comes a comma or the bracket, and neither goes on like a number.
      obtain ⟨rfl, hmore⟩ := hread a List.mem_cons_self b List.mem_cons_self _ _
        (delimited_afterCommas hclose as rest) (delimited_afterCommas hclose bs rest')
        (List.cons.inj h).2
      obtain ⟨rfl, hrest⟩ := ih
        (fun a ha b hb => hread a (List.mem_cons_of_mem _ ha) b (List.mem_cons_of_mem _ hb)) hmore
      exact ⟨rfl, hrest⟩

/-- A list with a bracket behind it can be told from what follows, if its members can. No member
starts with the bracket. -/
theorem commas_inj {close : Char} (hclose : isNumeral close = false) (hcomma : close ≠ ',')
    {as bs : List α} {rest rest' : List Char}
    (hstart : ∀ a, ∃ c cs, write a = c :: cs ∧ c ≠ close)
    (hread : ∀ a ∈ as, ∀ b ∈ bs, Readable write a b)
    (h : commas write as ++ close :: rest = commas write bs ++ close :: rest') :
    as = bs ∧ rest = rest' := by
  cases as with
  | nil =>
    cases bs with
    | nil =>
      cases h
      exact ⟨rfl, rfl⟩
    | cons b bs =>
      obtain ⟨c, cs, hwrite, hne⟩ := hstart b
      rw [commas, commas, hwrite] at h
      exact absurd (List.cons.inj h).1.symm hne
  | cons a as =>
    cases bs with
    | nil =>
      obtain ⟨c, cs, hwrite, hne⟩ := hstart a
      rw [commas, commas, hwrite] at h
      exact absurd (List.cons.inj h).1 hne
    | cons b bs =>
      -- With a comma in front of the first one, the lists are of the other form.
      refine afterCommas_inj hclose hcomma hread (congrArg (List.cons ',') ?_)
      exact h

end Lists

/-! ## Values -/

/-- The characters of a value. -/
def chars (v : Json) : List Char := v.text.toList

/-- The characters of a field. -/
def fieldChars (f : String × Json) : List Char := (stringText f.1).toList ++ ':' :: chars f.2

theorem commas_cons_cons {α : Type} (write : α → List Char) (a b : α) (rest : List α) :
    commas write (a :: b :: rest) = write a ++ ',' :: commas write (b :: rest) := rfl

theorem toList_itemsText : ∀ items : List Json, (itemsText items).toList = commas chars items
  | [] => rfl
  | [v] => (List.append_nil _).symm
  | v :: w :: vs => by
    rw [itemsText, String.toList_append, String.toList_append, toList_itemsText (w :: vs),
      commas_cons_cons, List.append_assoc]
    rfl

theorem toList_fieldText (k : String) (v : Json) :
    (stringText k ++ ":" ++ text v).toList = fieldChars (k, v) := by
  rw [String.toList_append, String.toList_append, List.append_assoc]
  rfl

theorem toList_fieldsText : ∀ fields : List (String × Json),
    (fieldsText fields).toList = commas fieldChars fields
  | [] => rfl
  | [(k, v)] => by
    rw [fieldsText, toList_fieldText]
    exact (List.append_nil _).symm
  | (k, v) :: f :: fs => by
    rw [fieldsText, String.toList_append, String.toList_append, toList_fieldText,
      toList_fieldsText (f :: fs), commas_cons_cons, List.append_assoc]
    rfl

theorem chars_array (items : List Json) :
    chars (array items) = '[' :: (commas chars items ++ [']']) := by
  rw [chars, text, String.toList_append, String.toList_append, toList_itemsText, List.append_assoc]
  rfl

theorem chars_object (fields : List (String × Json)) :
    chars (object fields) = '\x7b' :: (commas fieldChars fields ++ ['\x7d']) := by
  rw [chars, text, String.toList_append, String.toList_append, toList_fieldsText, List.append_assoc]
  rfl

/-- The character that stands for the kind of a value; none stands for numbers. -/
def kind? : Json → Option Char
  | null => some 'n'
  | bool _ => some 't'
  | number _ => none
  | string _ => some '\x22'
  | array _ => some '['
  | object _ => some '\x7b'

/-- The character that stands for the kind of value that a character starts. -/
def startedKind? (c : Char) : Option Char :=
  if isNumeral c then none else if c = 'f' then some 't' else some c

/-- A value starts with a character of its kind. -/
theorem exists_chars_eq (v : Json) : ∃ c cs, chars v = c :: cs ∧ startedKind? c = kind? v := by
  cases v with
  | null => exact ⟨'n', _, rfl, rfl⟩
  | bool b => cases b <;> exact ⟨_, _, rfl, rfl⟩
  | string s => exact ⟨'\x22', _, String.toList_ofList, rfl⟩
  | array items => exact ⟨'[', _, chars_array items, rfl⟩
  | object fields => exact ⟨'\x7b', _, chars_object fields, rfl⟩
  | number n =>
    obtain ⟨c, cs, hchars⟩ := List.exists_cons_of_ne_nil (toList_numberText_ne_nil n)
    refine ⟨c, cs, hchars, if_pos (isNumeral_of_mem_numberText (n := n) ?_)⟩
    rw [hchars]
    exact List.mem_cons_self

/-- Values whose texts are the same up to some point are of one kind. -/
theorem kind?_eq {v w : Json} {rest rest' : List Char}
    (h : chars v ++ rest = chars w ++ rest') : kind? v = kind? w := by
  obtain ⟨c, cs, hv, hkind⟩ := exists_chars_eq v
  obtain ⟨d, ds, hw, hkind'⟩ := exists_chars_eq w
  rw [hv, hw] at h
  rw [← hkind, ← hkind', (List.cons.inj h).1]

/-- No value starts with the bracket that ends an array. -/
theorem exists_chars_eq_and_ne (v : Json) : ∃ c cs, chars v = c :: cs ∧ c ≠ ']' := by
  obtain ⟨c, cs, hchars, hkind⟩ := exists_chars_eq v
  refine ⟨c, cs, hchars, ?_⟩
  rintro rfl
  cases v <;> exact absurd hkind (by simp [startedKind?, kind?, isNumeral])

/-- A field can be told from what follows it if its value can. -/
theorem readable_fieldChars {f g : String × Json} (h : Readable chars f.2 g.2) :
    Readable fieldChars f g := by
  intro rest rest' hrest hrest' htext
  rw [fieldChars, fieldChars, List.append_assoc, List.append_assoc] at htext
  obtain ⟨hkey, hvalue⟩ := readable_stringText f.1 g.1 _ _ (delimited_cons (by decide) _)
    (delimited_cons (by decide) _) htext
  obtain ⟨hsame, htail⟩ := h rest rest' hrest hrest' (List.cons.inj hvalue).2
  exact ⟨Prod.ext hkey hsame, htail⟩

/-- **A value and what follows it can be told from their text.** -/
theorem readable_chars {v w : Json} (hv : v.isCanonical = true) (hw : w.isCanonical = true) :
    Readable chars v w := by
  -- Only values of one kind start with the same character. The induction is on the first value; the
  -- parts of the second one are told from its own.
  induction v using Json.induction generalizing w with
  | null =>
    intro rest rest' hrest hrest' h
    cases w with
    | null => exact ⟨rfl, List.append_cancel_left h⟩
    | _ => exact absurd (kind?_eq h) (by simp [kind?])
  | bool b =>
    intro rest rest' hrest hrest' h
    cases w with
    | bool c =>
      have heq : b = c := by
        cases b <;> cases c
        all_goals first | rfl | exact absurd (List.cons.inj h).1 (by decide)
      rw [heq] at h
      exact ⟨by rw [heq], List.append_cancel_left h⟩
    | _ => exact absurd (kind?_eq h) (by simp [kind?])
  | number n =>
    intro rest rest' hrest hrest' h
    cases w with
    | number m =>
      obtain ⟨rfl, htail⟩ := readable_numberText (m := n) hv hw rest rest' hrest hrest' h
      exact ⟨rfl, htail⟩
    | _ => exact absurd (kind?_eq h) (by simp [kind?])
  | string s =>
    intro rest rest' hrest hrest' h
    cases w with
    | string t =>
      obtain ⟨rfl, htail⟩ := readable_stringText s t rest rest' hrest hrest' h
      exact ⟨rfl, htail⟩
    | _ => exact absurd (kind?_eq h) (by simp [kind?])
  | array items ih =>
    intro rest rest' hrest hrest' h
    cases w with
    | array others =>
      rw [isCanonical, canonicalItems_iff] at hv hw
      rw [chars_array, chars_array, List.cons_append, List.cons_append, List.append_assoc,
        List.append_assoc] at h
      have hclose : isNumeral ']' = false := by decide
      obtain ⟨rfl, htail⟩ := commas_inj hclose (by decide) exists_chars_eq_and_ne
        (fun a ha b hb => ih a ha (hv a ha) (hw b hb)) (List.cons.inj h).2
      exact ⟨rfl, htail⟩
    | _ => exact absurd (kind?_eq h) (by simp [kind?])
  | object fields ih =>
    intro rest rest' hrest hrest' h
    cases w with
    | object others =>
      rw [isCanonical, canonicalFields_iff] at hv hw
      rw [chars_object, chars_object, List.cons_append, List.cons_append, List.append_assoc,
        List.append_assoc] at h
      have hquote : ∀ f, ∃ c cs, fieldChars f = c :: cs ∧ c ≠ '\x7d' := fun f =>
        ⟨'\x22', _, by rw [fieldChars, stringText, String.toList_ofList]; rfl, by decide⟩
      have hclose : isNumeral '\x7d' = false := by decide
      obtain ⟨rfl, htail⟩ := commas_inj hclose (by decide) hquote
        (fun a ha b hb => readable_fieldChars (ih a ha (hv a ha) (hw b hb))) (List.cons.inj h).2
      exact ⟨rfl, htail⟩
    | _ => exact absurd (kind?_eq h) (by simp [kind?])

/-- **Two values with one text are equal.** -/
theorem text_inj {v w : Json} (hv : v.isCanonical = true) (hw : w.isCanonical = true)
    (h : v.text = w.text) : v = w :=
  (readable_chars hv hw [] [] delimited_nil delimited_nil (by rw [chars, chars, h])).1

/-- **Two values with the same bytes are equal.** -/
theorem toBytes_inj {v w : Json} (hv : v.isCanonical = true) (hw : w.isCanonical = true)
    (h : v.toBytes = w.toBytes) : v = w :=
  text_inj hv hw (Text.Utf8.encode_inj h)

end Json

end ServerBoundary
