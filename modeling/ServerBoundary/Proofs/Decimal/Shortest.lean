import ServerBoundary.Decimal.Shortest
import ServerBoundary.Proofs.Decimal.Rounding
import ServerBoundary.Text.Part

/-!
# The shortest text of a double tells it from all others

The digits that the search finds read back as the double: eighteen places are enough, whatever the
double. The numbers that read back as a double are an interval around it, and the intervals of two
doubles meet in an end at most, which then belongs to one of them only. So the digits determine the
double. And they can be read off the text, in each of the three ways in which it is written.

> `eq_of_readsBack`: a number reads back as one double only.

> `readsBack_search`, `isSome_withPlaces`: the search ends with digits that read back.

> `textValue_body`: a text stands for the digits that it was made of.

> `text_inj`: two doubles with one text are equal.

All of this is about canonical doubles, in the form in which a number is kept.
-/

namespace ServerBoundary.Decimal

namespace Shortest

open Double

variable {a b : Double}

/-! ## The numbers that round to a double -/

/-- The least number that can round to a double. -/
def lowEnd (a : Double) : ℚ :=
  (4 * a.significand - (if a.significand = 2 ^ 52 ∧ minExponent < a.exponent then 1 else 2) : ℕ) *
    2 ^ (a.exponent - 2)

/-- The greatest number that can round to a double. -/
def highEnd (a : Double) : ℚ := (4 * a.significand + 2 : ℕ) * 2 ^ (a.exponent - 2)

/-- The ends of the range, which the search has as numerators over one denominator. -/
theorem interval_eq (a : Double) :
    0 < (interval a).2.2.2 ∧ ((interval a).1 : ℚ) / (interval a).2.2.2 = lowEnd a ∧
      ((interval a).2.2.1 : ℚ) / (interval a).2.2.2 = highEnd a := by
  have hnarrow : (a.significand == Nat.pow 2 52 && decide (a.exponent > minExponent)) = true ↔
      a.significand = 2 ^ 52 ∧ minExponent < a.exponent := by
    simp
  simp only [interval, lowEnd, highEnd, hnarrow]
  split
  next h =>
    refine ⟨Nat.one_pos, ?_, ?_⟩
    · rw [cast_mul_pow_toNat _ h, Nat.cast_one, div_one]
      rfl
    · rw [cast_mul_pow_toNat _ h, Nat.cast_one, div_one]
      rfl
  next h =>
    exact ⟨Nat.pow_pos (by decide), div_cast_pow_toNat _ (by omega),
      div_cast_pow_toNat _ (by omega)⟩

/-- A decimal number, of which `n` counts units of `10 ^ k`. -/
def decimal (n : ℕ) (k : ℤ) : ℚ := n * 10 ^ k

/-- Numbers read back as a double if they are in its range; the ends are if the significand is
even. -/
theorem readsBack_iff (a : Double) (n : ℕ) (k : ℤ) : readsBack a n k = true ↔
    if a.significand % 2 = 0 then lowEnd a ≤ decimal n k ∧ decimal n k ≤ highEnd a
    else lowEnd a < decimal n k ∧ decimal n k < highEnd a := by
  obtain ⟨hden, hlow, hhigh⟩ := interval_eq a
  obtain ⟨hd, hx⟩ := ratio_mul_pow n (b := 10) (by decide) k rfl
  rw [readsBack]
  generalize (if k ≥ 0 then (n * Nat.pow 10 k.toNat, 1) else (n, Nat.pow 10 (-k).toNat)) = r at *
  obtain ⟨x, d⟩ := r
  generalize interval a = i at *
  obtain ⟨low, value, high, den⟩ := i
  dsimp only at *
  have hdecimal : (x : ℚ) / d = decimal n k := by
    rw [hx, decimal]
    norm_num
  rw [← hlow, ← hhigh, ← hdecimal]
  simp only [beq_iff_eq]
  split
  next =>
    rw [Bool.and_eq_true, decide_eq_true_eq, decide_eq_true_eq, mul_le_mul_iff_cast hden hd,
      mul_le_mul_iff_cast hd hden]
  next =>
    rw [Bool.and_eq_true, decide_eq_true_eq, decide_eq_true_eq, mul_lt_mul_iff_cast hden hd,
      mul_lt_mul_iff_cast hd hden]

/-! ## A number rounds to one double -/

/-- A number that reads back is in the range, and strictly inside if the significand is odd. -/
theorem bounds_of_readsBack {n : ℕ} {k : ℤ} (h : readsBack a n k = true) :
    lowEnd a ≤ decimal n k ∧ decimal n k ≤ highEnd a ∧
      (a.significand % 2 = 1 → lowEnd a < decimal n k ∧ decimal n k < highEnd a) := by
  rw [readsBack_iff] at h
  split at h
  next heven => exact ⟨h.1, h.2, fun hodd => by omega⟩
  next => exact ⟨h.1.le, h.2.le, fun _ => h⟩

/-- With the same exponent, the range of a double ends before that of a greater one starts, or
there. Only neighbours have an end in common, and one of them is odd. -/
theorem highEnd_le_lowEnd_of_significand_lt (he : a.exponent = b.exponent)
    (hlt : a.significand < b.significand) :
    highEnd a ≤ lowEnd b ∧
      (a.significand % 2 = 0 → b.significand % 2 = 0 → highEnd a < lowEnd b) := by
  have hunit : (0 : ℚ) < 2 ^ (b.exponent - 2) := zpow_pos (by norm_num) _
  rw [highEnd, lowEnd, he]
  constructor
  · refine mul_le_mul_of_nonneg_right ?_ hunit.le
    exact_mod_cast (by split <;> omega)
  · intro ha hb
    refine mul_lt_mul_of_pos_right ?_ hunit
    exact_mod_cast (by split <;> omega)

/-- With a smaller exponent, the range of a double ends before that of the other one starts, or
there. Then its significand is the greatest there is, which is odd. -/
theorem highEnd_le_lowEnd_of_exponent_lt (ha : a.Canonical) (hb : b.Canonical)
    (hlt : a.exponent < b.exponent) :
    highEnd a ≤ lowEnd b ∧ (a.significand % 2 = 0 → highEnd a < lowEnd b) := by
  have hmin : minExponent < b.exponent := lt_of_le_of_lt ha.minExponent_le hlt
  have hnormal : 2 ^ 52 ≤ b.significand := hb.normal.resolve_right (by omega)
  have hsignificand := ha.significand_lt
  have hunit : (0 : ℚ) < 2 ^ (a.exponent - 2) := zpow_pos (by norm_num) _
  -- The unit of `b` is at least two units of `a`.
  have hunits : 2 * (2 : ℚ) ^ (a.exponent - 2) ≤ 2 ^ (b.exponent - 2) := by
    rw [← zpow_one_add₀ (by norm_num)]
    exact zpow_le_zpow_right₀ (by norm_num) (by omega)
  have hlow : (2 ^ 55 - 2 : ℕ) * (2 : ℚ) ^ (a.exponent - 2) ≤ lowEnd b := by
    have hcount : 2 ^ 54 - 1 ≤ 4 * b.significand -
        (if b.significand = 2 ^ 52 ∧ minExponent < b.exponent then 1 else 2) := by
      split <;> omega
    calc (2 ^ 55 - 2 : ℕ) * (2 : ℚ) ^ (a.exponent - 2)
        = (2 ^ 54 - 1 : ℕ) * (2 * (2 : ℚ) ^ (a.exponent - 2)) := by norm_num; ring
      _ ≤ (2 ^ 54 - 1 : ℕ) * 2 ^ (b.exponent - 2) := by gcongr
      _ ≤ lowEnd b := mul_le_mul_of_nonneg_right (by exact_mod_cast hcount) (by positivity)
  constructor
  · refine le_trans (mul_le_mul_of_nonneg_right ?_ hunit.le) hlow
    exact_mod_cast (by omega : 4 * a.significand + 2 ≤ 2 ^ 55 - 2)
  · intro heven
    refine lt_of_lt_of_le (mul_lt_mul_of_pos_right ?_ hunit) hlow
    exact_mod_cast (by omega : 4 * a.significand + 2 < 2 ^ 55 - 2)

/-- Of two canonical doubles that a number reads back as, none is the smaller one. -/
theorem not_below_of_readsBack {n n' : ℕ} {k k' : ℤ} (ha : a.Canonical) (hb : b.Canonical)
    (hna : readsBack a n k = true) (hnb : readsBack b n' k' = true)
    (heq : decimal n k = decimal n' k') :
    ¬ a.exponent < b.exponent ∧ ¬ (a.exponent = b.exponent ∧ a.significand < b.significand) := by
  obtain ⟨-, hhigh, hinside⟩ := bounds_of_readsBack hna
  obtain ⟨hlow, -, hinside'⟩ := bounds_of_readsBack hnb
  rw [← heq] at hlow hinside'
  constructor
  · intro hlt
    obtain ⟨hle, hstrict⟩ := highEnd_le_lowEnd_of_exponent_lt ha hb hlt
    rcases Nat.mod_two_eq_zero_or_one a.significand with heven | hodd
    · exact absurd (hstrict heven) (by linarith)
    · have := (hinside hodd).2
      linarith
  · intro ⟨he, hlt⟩
    obtain ⟨hle, hstrict⟩ := highEnd_le_lowEnd_of_significand_lt he hlt
    rcases Nat.mod_two_eq_zero_or_one a.significand with heven | hodd
    · rcases Nat.mod_two_eq_zero_or_one b.significand with heven' | hodd'
      · exact absurd (hstrict heven heven') (by linarith)
      · have := (hinside' hodd').1
        linarith
    · have := (hinside hodd).2
      linarith

/-- **A number reads back as one double only**, up to its sign. -/
theorem eq_of_readsBack {n n' : ℕ} {k k' : ℤ} (ha : a.Canonical) (hb : b.Canonical)
    (hna : readsBack a n k = true) (hnb : readsBack b n' k' = true)
    (heq : decimal n k = decimal n' k') :
    a.significand = b.significand ∧ a.exponent = b.exponent := by
  obtain ⟨h₁, h₂⟩ := not_below_of_readsBack ha hb hna hnb heq
  obtain ⟨h₃, h₄⟩ := not_below_of_readsBack hb ha hnb hna heq.symm
  omega

/-! ## The search finds digits that read back -/

theorem exists_smallExponent {num den : ℕ} : ∀ {fuel j : ℕ}, den ≤ num * 10 ^ (j + fuel) →
    ∃ i : ℕ, smallExponent fuel j num den = -(i : ℤ) ∧ den ≤ num * 10 ^ i
  | 0, j, h => ⟨j, rfl, h⟩
  | fuel + 1, j, h => by
    rw [smallExponent]
    split
    next hj => exact ⟨j, rfl, hj⟩
    next => exact exists_smallExponent (by rwa [Nat.add_assoc, Nat.add_comm 1])

/-- A number has a digit for each power of ten that is not above it. -/
theorem pow_length_toDigits_le {n : ℕ} (hn : 0 < n) :
    10 ^ ((Nat.toDigits 10 n).length - 1) ≤ n := by
  rcases Nat.eq_zero_or_pos ((Nat.toDigits 10 n).length - 1) with hzero | hmore
  · rw [hzero]
    exact hn
  · have hiff := Nat.length_toDigits_le_iff (b := 10) (n := n) (by norm_num) hmore
    refine Nat.le_of_not_lt fun hlt => ?_
    have hlength := hiff.mpr hlt
    omega

/-- The first digit of a ratio stands at its decimal exponent, or further to the left. -/
theorem zpow_decimalExponent_le {num den : ℕ} (hden : 0 < den)
    (hbound : den ≤ num * 10 ^ (1 + 400)) :
    (10 : ℚ) ^ decimalExponent num den ≤ num / den := by
  have hden' : (0 : ℚ) < den := by exact_mod_cast hden
  rw [decimalExponent]
  split
  next hge =>
    have hlength := Nat.length_toDigits_pos (b := 10) (n := num / den)
    have hpow := pow_length_toDigits_le (Nat.div_pos hge hden)
    calc (10 : ℚ) ^ (((Nat.toDigits 10 (num / den)).length : ℤ) - 1)
        = (10 ^ ((Nat.toDigits 10 (num / den)).length - 1) : ℕ) := by
          rw [← Nat.cast_pred hlength, zpow_natCast]
          push_cast
          rfl
      _ ≤ (num / den : ℕ) := by exact_mod_cast hpow
      _ ≤ num / den := Nat.cast_div_le
  next =>
    obtain ⟨i, hi, hle⟩ := exists_smallExponent hbound
    rw [hi, zpow_neg, le_div_iff₀ hden', zpow_natCast, inv_mul_le_iff₀ (by positivity)]
    rw [mul_comm]
    exact_mod_cast hle

theorem readsBack_of_withPlaces {exponent : ℤ} {places n : ℕ} {k : ℤ}
    (h : withPlaces a exponent places = some (n, k)) : readsBack a n k = true := by
  rw [withPlaces] at h
  dsimp only at h
  split at h
  next hbelow =>
    cases h
    exact (Bool.and_eq_true_iff.mp hbelow).1
  next =>
    split at h
    next habove =>
      cases h
      exact habove
    next => cases h

theorem inUnits_eq (num : ℕ) {den : ℕ} (hden : 0 < den) (k : ℤ) : 0 < (inUnits num den k).2 ∧
    ((inUnits num den k).1 : ℚ) / (inUnits num den k).2 = num / den / 10 ^ k :=
  ratio_inUnits num (b := 10) (by decide) hden k rfl

/-- A decimal number just below a double, on a grid that is finer than the gap below the double,
reads back. -/
theorem readsBack_of_fine {n : ℕ} {k : ℤ} (ha : 0 < a.significand)
    (hgrid : (10 : ℚ) ^ k ≤ 2 ^ (a.exponent - 2)) (hle : decimal n k ≤ a.magnitude)
    (hlt : a.magnitude < decimal (n + 1) k) : readsBack a n k = true := by
  have hunit : (0 : ℚ) < 2 ^ (a.exponent - 2) := zpow_pos (by norm_num) _
  have hmagnitude : a.magnitude = (4 * a.significand : ℕ) * 2 ^ (a.exponent - 2) := by
    rw [magnitude, zpow_sub₀ (by norm_num)]
    push_cast
    ring
  have hlow : lowEnd a + 2 ^ (a.exponent - 2) ≤ a.magnitude := by
    rw [lowEnd, hmagnitude, ← add_one_mul]
    refine mul_le_mul_of_nonneg_right ?_ hunit.le
    exact_mod_cast (by split <;> omega)
  have hhigh : a.magnitude < highEnd a := by
    rw [highEnd, hmagnitude]
    refine mul_lt_mul_of_pos_right ?_ hunit
    exact_mod_cast (by omega : 4 * a.significand < 4 * a.significand + 2)
  have hnext : decimal (n + 1) k = decimal n k + 10 ^ k := by
    rw [decimal, decimal]
    push_cast
    ring
  have hinside : lowEnd a < decimal n k ∧ decimal n k < highEnd a := by
    constructor <;> linarith
  rw [readsBack_iff]
  split
  next => exact ⟨hinside.1.le, hinside.2.le⟩
  next => exact hinside

/-- The grid of eighteen places is finer than the gap below a double. -/
theorem grid_le {exponent : ℤ} (ha : a.Canonical) (hexponent : (10 : ℚ) ^ exponent ≤ a.magnitude) :
    (10 : ℚ) ^ (exponent - 17) ≤ 2 ^ (a.exponent - 2) := by
  have hsignificand : (a.significand : ℚ) ≤ 2 ^ 53 := by exact_mod_cast ha.significand_lt.le
  have htwo : (0 : ℚ) < 2 ^ a.exponent := zpow_pos (by norm_num) _
  have hmagnitude : (10 : ℚ) ^ exponent ≤ 2 ^ 53 * 2 ^ a.exponent :=
    hexponent.trans (mul_le_mul_of_nonneg_right hsignificand htwo.le)
  rw [zpow_sub₀ (by norm_num), zpow_sub₀ (by norm_num), div_le_div_iff₀ (by norm_num) (by norm_num)]
  norm_num at hmagnitude ⊢
  linarith

/-- Eighteen places are enough for any double. -/
theorem isSome_withPlaces {exponent : ℤ} (ha : a.Canonical) (hpos : 0 < a.significand)
    (hexponent : (10 : ℚ) ^ exponent ≤ a.magnitude) : (withPlaces a exponent 18).isSome = true := by
  obtain ⟨hden, hratio⟩ := ratio_eq a
  obtain ⟨hunits, hcount⟩ := inUnits_eq a.ratio.1 hden (exponent - 17)
  rw [hratio] at hcount
  have hten : (0 : ℚ) < 10 ^ (exponent - 17) := zpow_pos (by norm_num) _
  have hunits' : (0 : ℚ) < (inUnits a.ratio.1 a.ratio.2 (exponent - 17)).2 := by
    exact_mod_cast hunits
  have hbelow : readsBack a ((inUnits a.ratio.1 a.ratio.2 (exponent - 17)).1 /
      (inUnits a.ratio.1 a.ratio.2 (exponent - 17)).2) (exponent - 17) = true := by
    refine readsBack_of_fine hpos (grid_le ha hexponent) ?_ ?_
    · rw [decimal, ← le_div_iff₀ hten, ← hcount]
      exact Nat.cast_div_le
    · rw [decimal, ← div_lt_iff₀ hten, ← hcount, div_lt_iff₀ hunits']
      rw [mul_comm]
      exact_mod_cast Nat.lt_mul_div_succ _ hunits
  have hk : exponent - ((18 : ℕ) : ℤ) + 1 = exponent - 17 := by omega
  rw [withPlaces, hk]
  dsimp only
  rw [hbelow]
  cases readsBack a _ (exponent - 17) with
  | true => split <;> rfl
  | false => simp

/-- The search ends with digits that read back, if there are some within its bound. -/
theorem readsBack_search {exponent : ℤ} : ∀ {fuel places p : ℕ}, places ≤ p → p < places + fuel →
    (withPlaces a exponent p).isSome = true →
    readsBack a (search a exponent fuel places).1 (search a exponent fuel places).2 = true
  | 0, _, _, hle, hlt, _ => by omega
  | fuel + 1, places, p, hle, hlt, hsome => by
    rw [search]
    split
    next found hfound => exact readsBack_of_withPlaces hfound
    next hnone =>
      have hne : places ≠ p := fun heq => by
        rw [← heq, hnone] at hsome
        exact absurd hsome (by simp)
      exact readsBack_search (by omega) (by omega) hsome

/-! ## Digits -/

theorem toDigits_mul_pow {m : ℕ} (hm : 0 < m) (z : ℕ) :
    Nat.toDigits 10 (m * 10 ^ z) = Nat.toDigits 10 m ++ List.replicate z '0' := by
  induction z with
  | zero => simp
  | succ z ih =>
    have happend := Nat.toDigits_append_toDigits (b := 10) (n := m * 10 ^ z) (d := 0) (by norm_num)
      (by positivity) (by norm_num)
    rw [Nat.toDigits_zero, ih] at happend
    rw [show m * 10 ^ (z + 1) = 10 * (m * 10 ^ z) + 0 by ring, ← happend, List.append_assoc,
      List.replicate_succ']

theorem getLast?_toDigits {m : ℕ} (hm : m % 10 ≠ 0) : (Nat.toDigits 10 m).getLast? ≠ some '0' := by
  have hdigit : (m % 10).digitChar ≠ '0' := by
    have : m % 10 < 10 := Nat.mod_lt _ (by norm_num)
    interval_cases m % 10 <;> first | contradiction | decide
  rw [Nat.toDigits_eq_if (by norm_num)]
  split
  next h =>
    rw [Nat.mod_eq_of_lt h] at hdigit
    simpa using hdigit
  next => simpa using hdigit

/-- Zeros at the end are dropped, as far as no other digit follows. -/
theorem dropWhile_zeros {ds : List Char} (h : ds.getLast? ≠ some '0') (z : ℕ) :
    ((ds ++ List.replicate z '0').reverse.dropWhile (· == '0')).reverse = ds := by
  rw [List.reverse_append, List.reverse_replicate, List.dropWhile_append_of_pos (by simp)]
  cases hds : ds.reverse with
  | nil => simpa using hds.symm
  | cons d rest =>
    have hd : d ≠ '0' := by
      rw [List.getLast?_eq_head?_reverse, hds] at h
      simpa using h
    rw [List.dropWhile_cons_of_neg (by simpa using hd), ← hds, List.reverse_reverse]

/-! ## What a text stands for -/

/-- The number that an exponent with its sign is. -/
def exponentValue : List Char → ℤ
  | '-' :: ds => -(Nat.ofDigitChars 10 ds 0 : ℤ)
  | _ :: ds => Nat.ofDigitChars 10 ds 0
  | [] => 0

/-- The number that digits with a point stand for, times a power of ten. -/
def pointValue (cs : List Char) (exponent : ℤ) : ℚ :=
  match Text.splitFirst? '.' cs with
  | some (whole, fraction) =>
    decimal (Nat.ofDigitChars 10 (whole ++ fraction) 0) (exponent - fraction.length)
  | none => decimal (Nat.ofDigitChars 10 cs 0) exponent

/-- The number that a text without a sign stands for. -/
def textValue (cs : List Char) : ℚ :=
  match Text.splitFirst? 'e' cs with
  | some (mantissa, exponent) => pointValue mantissa (exponentValue exponent)
  | none => pointValue cs 0

theorem splitFirst?_of_not_mem {mark : Char} {text : List Char} (h : mark ∉ text) :
    Text.splitFirst? mark text = none :=
  Option.eq_none_iff_forall_not_mem.mpr fun (before, after) hsplit => by
    rw [(Text.splitFirst?_eq_some_iff.mp hsplit).1] at h
    exact h (List.mem_append_right _ List.mem_cons_self)

/-- Digits with a point behind the first one, if there are more. -/
def mantissa : List Char → List Char
  | [d] => [d]
  | d :: ds => d :: '.' :: ds
  | [] => []

/-- The text of digits `d.ddd * 10 ^ e`, without the sign. -/
def body (style : Style) (cs : List Char) (e : ℤ) : List Char :=
  if e < style.low || style.high < e then
    mantissa cs ++ 'e' :: (if e < 0 then '-' else '+') :: Nat.toDigits 10 e.natAbs
  else if e < 0 then '0' :: '.' :: zeros (-e - 1) ++ cs
  else if cs.length ≤ (e + 1).toNat then cs ++ zeros ((e + 1).toNat - cs.length) ++ ['.', '0']
  else cs.take (e + 1).toNat ++ '.' :: cs.drop (e + 1).toNat

/-- The text of a double without its sign. -/
def unsigned (style : Style) (a : Double) : List Char :=
  if a.significand = 0 then ['0', '.', '0']
  else body style (Nat.toDigits 10 (digits a).digits) (digits a).exponent

theorem toList_text (style : Style) (a : Double) :
    (text style a).toList = (if a.negative then ['-'] else []) ++ unsigned style a := by
  rw [text, unsigned]
  simp only [beq_iff_eq]
  split
  next => exact String.toList_ofList
  next => exact String.toList_ofList

/-- Whether characters are digits. -/
def AllDigits (cs : List Char) : Prop := ∀ c ∈ cs, c.isDigit = true

theorem AllDigits.not_mem {cs : List Char} (h : AllDigits cs) {c : Char} (hc : c.isDigit = false) :
    c ∉ cs := fun hmem => by
  rw [h c hmem] at hc
  cases hc

theorem allDigits_append {cs ds : List Char} :
    AllDigits (cs ++ ds) ↔ AllDigits cs ∧ AllDigits ds := by
  simp only [AllDigits, List.forall_mem_append]

theorem allDigits_zeros (n : ℤ) : AllDigits (zeros n) := fun c hc => by
  rw [(List.mem_replicate.mp hc).2]
  rfl

theorem allDigits_zero : AllDigits ['0'] := allDigits_zeros 1

theorem allDigits_toDigits (n : ℕ) : AllDigits (Nat.toDigits 10 n) := fun _ hc =>
  Nat.isDigit_of_mem_toDigits (by norm_num) (by norm_num) hc

theorem pointValue_append {whole fraction : List Char} (h : AllDigits whole) (exponent : ℤ) :
    pointValue (whole ++ '.' :: fraction) exponent =
      decimal (Nat.ofDigitChars 10 (whole ++ fraction) 0) (exponent - fraction.length) := by
  rw [pointValue, Text.splitFirst?_eq_some_iff.mpr ⟨rfl, h.not_mem rfl⟩]

theorem pointValue_of_digits {cs : List Char} (h : AllDigits cs) (exponent : ℤ) :
    pointValue cs exponent = decimal (Nat.ofDigitChars 10 cs 0) exponent := by
  rw [pointValue, splitFirst?_of_not_mem (h.not_mem rfl)]

theorem textValue_append {whole fraction : List Char} (h : AllDigits whole)
    (h' : AllDigits fraction) : textValue (whole ++ '.' :: fraction) =
      decimal (Nat.ofDigitChars 10 (whole ++ fraction) 0) (-fraction.length) := by
  have hpoint : 'e' ∉ whole ++ '.' :: fraction := by
    simp [h.not_mem (c := 'e') rfl, h'.not_mem (c := 'e') rfl]
  rw [textValue, splitFirst?_of_not_mem hpoint]
  dsimp only
  rw [pointValue_append h, zero_sub]

theorem decimal_mul_pow (n z : ℕ) (k : ℤ) : decimal (10 ^ z * n) k = decimal n (k + z) := by
  rw [decimal, decimal, zpow_add₀ (by norm_num), zpow_natCast]
  push_cast
  ring

theorem exponentValue_eq (e : ℤ) :
    exponentValue ((if e < 0 then '-' else '+') :: Nat.toDigits 10 e.natAbs) = e := by
  split
  next h =>
    rw [exponentValue, Nat.ofDigitChars_ten_toDigits]
    omega
  next h =>
    show ((Nat.ofDigitChars 10 (Nat.toDigits 10 e.natAbs) 0 : ℕ) : ℤ) = e
    rw [Nat.ofDigitChars_ten_toDigits]
    omega

theorem pointValue_mantissa {cs : List Char} (hcs : AllDigits cs) (hne : cs ≠ []) (e : ℤ) :
    'e' ∉ mantissa cs ∧ pointValue (mantissa cs) e =
      decimal (Nat.ofDigitChars 10 cs 0) (e - cs.length + 1) := by
  match cs, hne with
  | [d], _ =>
    refine ⟨hcs.not_mem rfl, ?_⟩
    rw [mantissa, pointValue_of_digits hcs]
    simp
  | d :: d' :: ds, _ =>
    obtain ⟨hd, hds⟩ := allDigits_append.mp (show AllDigits ([d] ++ d' :: ds) from hcs)
    have hmantissa : mantissa (d :: d' :: ds) = [d] ++ '.' :: d' :: ds := rfl
    rw [hmantissa]
    constructor
    · intro h
      rcases List.mem_append.mp h with hmem | hmem
      · exact hd.not_mem rfl hmem
      · exact hds.not_mem rfl ((List.mem_cons.mp hmem).resolve_left (by decide))
    · rw [pointValue_append hd]
      congr 1
      simp only [List.length_cons]
      push_cast
      ring

/-- A number below one has zeros in front of its digits. -/
theorem textValue_small {cs : List Char} (hcs : AllDigits cs) {e : ℤ} (he : e < 0) :
    textValue ('0' :: '.' :: zeros (-e - 1) ++ cs) =
      decimal (Nat.ofDigitChars 10 cs 0) (e - cs.length + 1) := by
  have htext := textValue_append allDigits_zero
    (allDigits_append.mpr ⟨allDigits_zeros (-e - 1), hcs⟩)
  rw [show '0' :: '.' :: zeros (-e - 1) ++ cs = ['0'] ++ '.' :: (zeros (-e - 1) ++ cs) from rfl,
    htext]
  congr 1
  · rw [List.singleton_append, Nat.ofDigitChars_cons, Nat.ofDigitChars_append, zeros,
      Nat.ofDigitChars_replicate_zero]
    simp
  · rw [List.length_append, zeros, List.length_replicate]
    push_cast
    omega

/-- A whole number has zeros behind its digits, and one more behind the point. -/
theorem textValue_whole {cs : List Char} (hcs : AllDigits cs) {e : ℤ} (he : 0 ≤ e)
    (hlength : cs.length ≤ (e + 1).toNat) :
    textValue (cs ++ zeros ((e + 1).toNat - cs.length) ++ ['.', '0']) =
      decimal (Nat.ofDigitChars 10 cs 0) (e - cs.length + 1) := by
  have htext := textValue_append
    (allDigits_append.mpr ⟨hcs, allDigits_zeros ((e + 1).toNat - cs.length)⟩) allDigits_zero
  rw [htext, List.append_assoc, Nat.ofDigitChars_append, zeros, ← List.replicate_succ',
    Nat.ofDigitChars_replicate_zero, decimal_mul_pow]
  congr 1
  simp only [List.length_singleton]
  push_cast
  omega

/-- Other numbers have a point between their digits. -/
theorem textValue_take_drop {cs : List Char} (hcs : AllDigits cs) {e : ℤ} (he : 0 ≤ e)
    (hlength : (e + 1).toNat < cs.length) :
    textValue (cs.take (e + 1).toNat ++ '.' :: cs.drop (e + 1).toNat) =
      decimal (Nat.ofDigitChars 10 cs 0) (e - cs.length + 1) := by
  have htake : AllDigits (cs.take (e + 1).toNat) := fun c hc => hcs c (List.mem_of_mem_take hc)
  have hdrop : AllDigits (cs.drop (e + 1).toNat) := fun c hc => hcs c (List.mem_of_mem_drop hc)
  rw [textValue_append htake hdrop, List.take_append_drop, List.length_drop]
  congr 1
  omega

/-- **A text stands for the digits that it was made of.** -/
theorem textValue_body (style : Style) {cs : List Char} (hcs : AllDigits cs) (hne : cs ≠ [])
    (e : ℤ) :
    textValue (body style cs e) = decimal (Nat.ofDigitChars 10 cs 0) (e - cs.length + 1) := by
  unfold body
  split
  next =>
    obtain ⟨he, hvalue⟩ := pointValue_mantissa hcs hne e
    rw [textValue, Text.splitFirst?_eq_some_iff.mpr ⟨rfl, he⟩]
    dsimp only
    rw [exponentValue_eq, hvalue]
  next =>
    split
    next hneg => exact textValue_small hcs hneg
    next hnonneg =>
      split
      next hshort => exact textValue_whole hcs (not_lt.mp hnonneg) hshort
      next hlong => exact textValue_take_drop hcs (not_lt.mp hnonneg) (not_le.mp hlong)

/-! ## The text of a double -/

theorem two_pow_le {e n : ℕ} (h : e ≤ 3 * n) : 2 ^ e ≤ 10 ^ n :=
  calc 2 ^ e
      ≤ 2 ^ (3 * n) := Nat.pow_le_pow_right (by decide) h
    _ = (2 ^ 3) ^ n := pow_mul 2 3 n
    _ ≤ 10 ^ n := Nat.pow_le_pow_left (by decide) n

/-- The search for the first digit of a small double is long enough. -/
theorem ratio_le (ha : a.Canonical) (hpos : 0 < a.significand) :
    a.ratio.2 ≤ a.ratio.1 * 10 ^ (1 + 400) := by
  rw [ratio]
  split
  next =>
    exact Nat.one_le_iff_ne_zero.mpr
      (Nat.mul_ne_zero (Nat.mul_ne_zero hpos.ne' (Nat.pow_pos (by decide)).ne') (by positivity))
  next =>
    have hexponent : (-a.exponent).toNat ≤ 3 * (1 + 400) := by
      have := ha.minExponent_le
      rw [minExponent] at this
      omega
    calc 2 ^ (-a.exponent).toNat
        ≤ 10 ^ (1 + 400) := two_pow_le hexponent
      _ ≤ a.significand * 10 ^ (1 + 400) := Nat.le_mul_of_pos_left _ hpos

theorem pos_of_readsBack {n : ℕ} {k : ℤ} (hpos : 0 < a.significand)
    (h : readsBack a n k = true) : 0 < n := by
  have hlow : 0 < lowEnd a := by
    refine mul_pos ?_ (zpow_pos (by norm_num) _)
    exact_mod_cast (by split <;> omega)
  have hn : 0 < decimal n k := lt_of_lt_of_le hlow (bounds_of_readsBack h).1
  rw [decimal, mul_pos_iff_of_pos_right (zpow_pos (by norm_num) _)] at hn
  exact_mod_cast hn

/-- Dropping the zeros at the end does not change what the digits stand for. -/
theorem exists_trimmed {n : ℕ} (hn : 0 < n) (k : ℤ) :
    ∃ m : ℕ, ((Nat.toDigits 10 n).reverse.dropWhile (· == '0')).reverse = Nat.toDigits 10 m ∧
      decimal m (k + (Nat.toDigits 10 n).length - 1 - (Nat.toDigits 10 m).length + 1) =
        decimal n k := by
  -- The number is `m` with `z` zeros behind it, and `m` does not end with one.
  obtain ⟨z, m, hten, rfl⟩ := Nat.exists_eq_pow_mul_and_not_dvd hn.ne' 10 (by norm_num)
  have hm : 0 < m := Nat.pos_of_ne_zero fun hzero => hten (hzero ▸ Nat.dvd_zero 10)
  have hlast := getLast?_toDigits (m := m) fun hmod => hten (Nat.dvd_of_mod_eq_zero hmod)
  have hdigits : Nat.toDigits 10 (10 ^ z * m) = Nat.toDigits 10 m ++ List.replicate z '0' := by
    rw [Nat.mul_comm, toDigits_mul_pow hm]
  refine ⟨m, by rw [hdigits, dropWhile_zeros hlast], ?_⟩
  rw [hdigits, decimal_mul_pow, List.length_append, List.length_replicate]
  congr 1
  push_cast
  ring

/-- **The digits of a double read back as it.** -/
theorem exists_readsBack_digits (ha : a.Canonical) (hpos : 0 < a.significand) :
    ∃ n k, readsBack a n k = true ∧
      decimal (digits a).digits
        ((digits a).exponent - (Nat.toDigits 10 (digits a).digits).length + 1) = decimal n k := by
  obtain ⟨hden, hratio⟩ := ratio_eq a
  have hfirst := zpow_decimalExponent_le hden (ratio_le ha hpos)
  rw [hratio] at hfirst
  have hback : readsBack a (search a (decimalExponent a.ratio.1 a.ratio.2) 20 1).1
      (search a (decimalExponent a.ratio.1 a.ratio.2) 20 1).2 = true :=
    readsBack_search (p := 18) (by decide) (by decide) (isSome_withPlaces ha hpos hfirst)
  refine ⟨_, _, hback, ?_⟩
  obtain ⟨m, htrim, hvalue⟩ := exists_trimmed (pos_of_readsBack hpos hback)
    (search a (decimalExponent a.ratio.1 a.ratio.2) 20 1).2
  have hdigits : (digits a).digits = m := by
    rw [digits]
    dsimp only
    rw [htrim]
    exact Nat.ofDigitChars_ten_toDigits
  rw [hdigits]
  exact hvalue

/-- **The text of a double stands for a number that reads back as it.** -/
theorem exists_readsBack_unsigned (style : Style) (ha : a.Canonical) :
    ∃ n k, readsBack a n k = true ∧ textValue (unsigned style a) = decimal n k := by
  rw [unsigned]
  split
  next hzero =>
    refine ⟨0, 0, ?_, ?_⟩
    · rw [readsBack_iff, hzero, if_pos (Nat.zero_mod 2), lowEnd, highEnd, hzero]
      simp only [decimal, Nat.mul_zero, Nat.zero_sub, Nat.cast_zero, zero_mul]
      exact ⟨le_refl 0, by positivity⟩
    · have hdigits : Nat.ofDigitChars 10 (['0'] ++ ['0']) 0 = 0 := by decide
      rw [show ['0', '.', '0'] = ['0'] ++ '.' :: ['0'] from rfl,
        textValue_append allDigits_zero allDigits_zero, hdigits]
      simp only [decimal, Nat.cast_zero, zero_mul]
  next hne =>
    obtain ⟨n, k, hback, hvalue⟩ := exists_readsBack_digits ha (Nat.pos_of_ne_zero hne)
    refine ⟨n, k, hback, ?_⟩
    rw [textValue_body style (allDigits_toDigits _) Nat.toDigits_ne_nil,
      Nat.ofDigitChars_ten_toDigits, hvalue]

/-- Whether a character can stand in a number. -/
def isNumeral (c : Char) : Bool :=
  c.isDigit || c == '.' || c == 'e' || c == '+' || c == '-'

theorem AllDigits.isNumeral {cs : List Char} (h : AllDigits cs) {c : Char} (hc : c ∈ cs) :
    isNumeral c = true := by
  simp only [Shortest.isNumeral, h c hc, Bool.true_or]

/-- Whether a text starts with a digit. -/
def StartsWithDigit (text : List Char) : Prop := ∃ d, text.head? = some d ∧ d.isDigit = true

/-- What the text of a double without its sign looks like: a digit in front, and somewhere a point
or an exponent. -/
structure IsFraction (text : List Char) : Prop where
  isNumeral : ∀ c ∈ text, isNumeral c = true
  head : StartsWithDigit text
  marked : '.' ∈ text ∨ 'e' ∈ text

/-- Digits, with a point and more digits behind them. -/
theorem isFraction_append {whole fraction : List Char} (h : AllDigits whole) (hne : whole ≠ [])
    (h' : AllDigits fraction) : IsFraction (whole ++ '.' :: fraction) where
  isNumeral c hc := by
    rcases List.mem_append.mp hc with hwhole | hrest
    · exact h.isNumeral hwhole
    · rcases List.mem_cons.mp hrest with rfl | hfraction
      · rfl
      · exact h'.isNumeral hfraction
  head := by
    obtain ⟨d, ds, rfl⟩ := List.exists_cons_of_ne_nil hne
    exact ⟨d, rfl, h d List.mem_cons_self⟩
  marked := .inl (List.mem_append_right _ List.mem_cons_self)

/-- Digits with an exponent. -/
theorem isFraction_mantissa {cs : List Char} (hcs : AllDigits cs) (hne : cs ≠ []) (e : ℤ) :
    IsFraction (mantissa cs ++ 'e' :: (if e < 0 then '-' else '+') :: Nat.toDigits 10 e.natAbs) := by
  have hmantissa : (∀ c ∈ mantissa cs, isNumeral c = true) ∧ StartsWithDigit (mantissa cs) := by
    match cs, hne with
    | [d], _ => exact ⟨fun c hc => hcs.isNumeral hc, d, rfl, hcs d List.mem_cons_self⟩
    | d :: d' :: ds, _ =>
      obtain ⟨hd, hds⟩ := allDigits_append.mp (show AllDigits ([d] ++ d' :: ds) from hcs)
      have hpoint := isFraction_append hd (List.cons_ne_nil d []) hds
      exact ⟨hpoint.isNumeral, hpoint.head⟩
  obtain ⟨hnumeral, d, hhead, hd⟩ := hmantissa
  refine ⟨fun c hc => ?_, ⟨d, by rw [List.head?_append, hhead]; rfl, hd⟩,
    .inr (List.mem_append_right _ List.mem_cons_self)⟩
  rcases List.mem_append.mp hc with hfront | hrest
  · exact hnumeral c hfront
  · rcases List.mem_cons.mp hrest with rfl | hrest
    · rfl
    · rcases List.mem_cons.mp hrest with rfl | hdigits
      · split <;> rfl
      · exact (allDigits_toDigits _).isNumeral hdigits

theorem isFraction_unsigned (style : Style) (a : Double) : IsFraction (unsigned style a) := by
  have hdigits := allDigits_toDigits (digits a).digits
  have hne := Nat.toDigits_ne_nil (b := 10) (n := (digits a).digits)
  rw [unsigned]
  split
  next => exact isFraction_append allDigits_zero (List.cons_ne_nil _ _) allDigits_zero
  next =>
    generalize Nat.toDigits 10 (digits a).digits = cs at *
    generalize (digits a).exponent = e
    unfold body
    split
    next => exact isFraction_mantissa hdigits hne e
    next =>
      split
      next =>
        exact isFraction_append allDigits_zero (List.cons_ne_nil _ _)
          (allDigits_append.mpr ⟨allDigits_zeros _, hdigits⟩)
      next hnonneg =>
        split
        next =>
          exact isFraction_append (allDigits_append.mpr ⟨hdigits, allDigits_zeros _⟩)
            (List.append_ne_nil_of_left_ne_nil hne _) allDigits_zero
        next hlong =>
          refine isFraction_append (fun c hc => hdigits c (List.mem_of_mem_take hc)) ?_
            fun c hc => hdigits c (List.mem_of_mem_drop hc)
          rw [Ne, List.take_eq_nil_iff]
          exact not_or.mpr ⟨by omega, hne⟩

/-- A sign is no digit. -/
theorem sign_inj {s t : Bool} {cs ds : List Char} (hcs : StartsWithDigit cs)
    (hds : StartsWithDigit ds)
    (h : (if s then ['-'] else []) ++ cs = (if t then ['-'] else []) ++ ds) : s = t ∧ cs = ds := by
  have hminus : ∀ {text : List Char}, StartsWithDigit text → text.head? ≠ some '-' := by
    intro text ⟨d, hd, hdigit⟩ hhead
    rw [hhead] at hd
    cases hd
    exact absurd hdigit (by decide)
  cases s with
  | true =>
    cases t with
    | true => exact ⟨rfl, List.append_cancel_left h⟩
    | false => exact absurd (congrArg List.head? h).symm (hminus hds)
  | false =>
    cases t with
    | true => exact absurd (congrArg List.head? h) (hminus hcs)
    | false => exact ⟨rfl, h⟩

/-- **Two doubles with one text are equal.** -/
theorem text_inj {style : Style} (ha : a.Canonical) (hb : b.Canonical)
    (h : text style a = text style b) : a = b := by
  have hlist := congrArg String.toList h
  rw [toList_text, toList_text] at hlist
  obtain ⟨hsign, hbody⟩ :=
    sign_inj (isFraction_unsigned style a).head (isFraction_unsigned style b).head hlist
  -- The one text without its sign stands for a number that reads back as both doubles.
  obtain ⟨n, k, hback, hvalue⟩ := exists_readsBack_unsigned style ha
  obtain ⟨n', k', hback', hvalue'⟩ := exists_readsBack_unsigned style hb
  obtain ⟨hsignificand, hexponent⟩ :=
    eq_of_readsBack ha hb hback hback' (by rw [← hvalue, ← hvalue', hbody])
  cases a
  cases b
  exact Double.mk.injEq _ _ _ _ _ _ ▸ ⟨hsign, hsignificand, hexponent⟩

end Shortest

end ServerBoundary.Decimal
