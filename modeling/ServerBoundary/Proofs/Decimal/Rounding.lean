import Mathlib
import ServerBoundary.Decimal.Double

/-!
# Rounding gives canonical doubles

A number is kept as a double in one form only: the significand has at most 53 bits, and it has all
of them unless the exponent is the least. Rounding scales a ratio by a power of two, chosen by the
lengths of the numerator and the denominator, so that the quotient has 53 bits.

> `exponentFor_spec`: the exponent is right for the ratio, although it is found by a guess.

> `canonical_ofRatio`, `canonical_ofParts`: what is rounded, and what is read from digits with an
> exponent, is canonical.
-/

namespace ServerBoundary.Decimal

/-! ## Fractions of natural numbers -/

section Fractions

variable {b : ℕ} (n : ℕ) {e : ℤ}

theorem cast_mul_pow_toNat (h : 0 ≤ e) : ((n * Nat.pow b e.toNat : ℕ) : ℚ) = n * (b : ℚ) ^ e := by
  push_cast [Nat.pow_eq]
  rw [← zpow_natCast, Int.toNat_of_nonneg h]

theorem div_cast_pow_toNat (h : e ≤ 0) :
    (n : ℚ) / (Nat.pow b (-e).toNat : ℕ) = n * (b : ℚ) ^ e := by
  push_cast [Nat.pow_eq]
  rw [← zpow_natCast, Int.toNat_of_nonneg (by omega), zpow_neg, div_inv_eq_mul]

/-- A multiple of a power, as numerator and denominator. -/
theorem ratio_mul_pow (hb : 0 < b) (k : ℤ) {r : ℕ × ℕ}
    (hr : r = if k ≥ 0 then (n * Nat.pow b k.toNat, 1) else (n, Nat.pow b (-k).toNat)) :
    0 < r.2 ∧ (r.1 : ℚ) / r.2 = n * (b : ℚ) ^ k := by
  split at hr
  next h =>
    rw [hr]
    refine ⟨Nat.one_pos, ?_⟩
    rw [cast_mul_pow_toNat _ h, Nat.cast_one, div_one]
  next h =>
    rw [hr]
    exact ⟨Nat.pow_pos hb, div_cast_pow_toNat _ (by omega)⟩

/-- A ratio in units of a power, as numerator and denominator. -/
theorem ratio_inUnits (hb : 0 < b) {den : ℕ} (hden : 0 < den) (k : ℤ) {r : ℕ × ℕ}
    (hr : r = if k ≥ 0 then (n, den * Nat.pow b k.toNat) else (n * Nat.pow b (-k).toNat, den)) :
    0 < r.2 ∧ (r.1 : ℚ) / r.2 = n / den / (b : ℚ) ^ k := by
  split at hr
  next h =>
    rw [hr]
    refine ⟨Nat.mul_pos hden (Nat.pow_pos hb), ?_⟩
    rw [cast_mul_pow_toNat _ h, div_div]
  next h =>
    rw [hr]
    refine ⟨hden, ?_⟩
    have hneg := cast_mul_pow_toNat (b := b) n (e := -k) (by omega)
    dsimp only
    rw [hneg, zpow_neg, ← div_eq_mul_inv, div_right_comm]

theorem div_lt_iff_cast {num den m : ℕ} (hden : 0 < den) :
    num / den < m ↔ (num : ℚ) / den < m := by
  have hden' : (0 : ℚ) < den := by exact_mod_cast hden
  rw [Nat.div_lt_iff_lt_mul hden, div_lt_iff₀ hden']
  exact_mod_cast Iff.rfl

theorem mul_le_mul_iff_cast {num den num' den' : ℕ} (hden : 0 < den) (hden' : 0 < den') :
    num * den' ≤ num' * den ↔ (num : ℚ) / den ≤ num' / den' := by
  rw [div_le_div_iff₀ (by exact_mod_cast hden) (by exact_mod_cast hden')]
  exact_mod_cast Iff.rfl

theorem mul_lt_mul_iff_cast {num den num' den' : ℕ} (hden : 0 < den) (hden' : 0 < den') :
    num * den' < num' * den ↔ (num : ℚ) / den < num' / den' := by
  rw [div_lt_div_iff₀ (by exact_mod_cast hden) (by exact_mod_cast hden')]
  exact_mod_cast Iff.rfl

end Fractions

namespace Double

/-- Whether a double has the form in which a number is kept: the significand has at most 53 bits,
and it has all of them unless the exponent is the least. -/
def isCanonical (a : Double) : Bool :=
  decide (a.significand < 2 ^ 53) && decide (minExponent ≤ a.exponent) &&
    decide (a.exponent ≤ maxExponent) &&
    (decide (2 ^ 52 ≤ a.significand) || decide (a.exponent = minExponent))

/-- What canonical doubles are. -/
structure Canonical (a : Double) : Prop where
  significand_lt : a.significand < 2 ^ 53
  minExponent_le : minExponent ≤ a.exponent
  exponent_le : a.exponent ≤ maxExponent
  normal : 2 ^ 52 ≤ a.significand ∨ a.exponent = minExponent

theorem isCanonical_iff {a : Double} : a.isCanonical = true ↔ a.Canonical := by
  simp only [isCanonical, Bool.and_eq_true, Bool.or_eq_true, decide_eq_true_eq]
  exact ⟨fun ⟨⟨⟨h₁, h₂⟩, h₃⟩, h₄⟩ => ⟨h₁, h₂, h₃, h₄⟩, fun ⟨h₁, h₂, h₃, h₄⟩ => ⟨⟨⟨h₁, h₂⟩, h₃⟩, h₄⟩⟩

theorem canonical_zero (negative : Bool) : (zero negative).Canonical :=
  isCanonical_iff.mp rfl

theorem Canonical.negate {a : Double} (h : a.Canonical) : a.negate.Canonical :=
  ⟨h.significand_lt, h.minExponent_le, h.exponent_le, h.normal⟩

/-- The absolute value of a double. -/
def magnitude (a : Double) : ℚ := a.significand * 2 ^ a.exponent

theorem ratio_eq (a : Double) : 0 < a.ratio.2 ∧ (a.ratio.1 : ℚ) / a.ratio.2 = a.magnitude :=
  ratio_mul_pow a.significand Nat.two_pos a.exponent rfl

/-! ## Rounding -/

theorem roundDiv_cases (num den : ℕ) :
    roundDiv num den = num / den ∨ roundDiv num den = num / den + 1 := by
  rw [roundDiv]
  split
  next => exact .inl rfl
  next =>
    split
    next => exact .inr rfl
    next =>
      split
      next => exact .inl rfl
      next => exact .inr rfl

/-- A quotient of 53 bits has as many when it is rounded, or rounds up to the next power of two. -/
theorem roundDiv_bounds {num den : ℕ} (hden : 0 < den) (hhigh : (num : ℚ) / den < 2 ^ 53) :
    roundDiv num den ≤ 2 ^ 53 ∧ (2 ^ 52 ≤ (num : ℚ) / den → 2 ^ 52 ≤ roundDiv num den) := by
  constructor
  · have hquotient : num / den < 2 ^ 53 := (div_lt_iff_cast hden).mpr (by exact_mod_cast hhigh)
    rcases roundDiv_cases num den with heq | heq <;> omega
  · intro hlow
    have hquotient : ¬ num / den < 2 ^ 52 := fun hlt =>
      absurd hlow (not_le.mpr (by exact_mod_cast (div_lt_iff_cast hden).mp hlt))
    rcases roundDiv_cases num den with heq | heq <;> omega

theorem scaled_eq (num : ℕ) {den : ℕ} (hden : 0 < den) (e : ℤ) : 0 < (scaled num den e).2 ∧
    ((scaled num den e).1 : ℚ) / (scaled num den e).2 = num / den / 2 ^ e :=
  ratio_inUnits num Nat.two_pos hden e rfl

/-- The lengths of numerator and denominator tell the quotient up to a factor of two. -/
theorem quotient_bounds {num den : ℕ} (hnum : 0 < num) (hden : 0 < den) :
    2 ^ 51 < (num : ℚ) / den / 2 ^ ((num.log2 : ℤ) - den.log2 - 52) ∧
      (num : ℚ) / den / 2 ^ ((num.log2 : ℤ) - den.log2 - 52) < 2 ^ 53 := by
  have hden' : (0 : ℚ) < den := by exact_mod_cast hden
  have hunit : (0 : ℚ) < 2 ^ ((num.log2 : ℤ) - den.log2 - 52) := zpow_pos (by norm_num) _
  have hnumlow : (2 : ℚ) ^ num.log2 ≤ num := by exact_mod_cast Nat.log2_self_le hnum.ne'
  have hnumhigh : (num : ℚ) < 2 ^ (num.log2 + 1) := by exact_mod_cast Nat.lt_log2_self
  have hdenlow : (2 : ℚ) ^ den.log2 ≤ den := by exact_mod_cast Nat.log2_self_le hden.ne'
  have hdenhigh : (den : ℚ) < 2 ^ (den.log2 + 1) := by exact_mod_cast Nat.lt_log2_self
  have hpow : (2 : ℚ) ^ ((num.log2 : ℤ) - den.log2 - 52) * 2 ^ den.log2 * 2 ^ 52 =
      2 ^ num.log2 := by
    rw [← zpow_natCast, ← zpow_natCast, ← zpow_natCast, ← zpow_add₀ (by norm_num),
      ← zpow_add₀ (by norm_num)]
    congr 1
    push_cast
    ring
  -- Without quotients, each bound is one of the numerator times one of the denominator.
  rw [lt_div_iff₀ hunit, div_lt_iff₀ hunit, lt_div_iff₀ hden', div_lt_iff₀ hden']
  rw [pow_succ] at hnumhigh hdenhigh
  constructor <;> nlinarith

/-- **The exponent is right for the ratio:** scaled by it, the quotient has 53 bits, or less if the
exponent is the least. -/
theorem exponentFor_spec {num den : ℕ} (hnum : 0 < num) (hden : 0 < den) :
    minExponent ≤ exponentFor num den ∧ (num : ℚ) / den / 2 ^ exponentFor num den < 2 ^ 53 ∧
      (2 ^ 52 ≤ (num : ℚ) / den / 2 ^ exponentFor num den ∨
        exponentFor num den = minExponent) := by
  obtain ⟨hlow, hhigh⟩ := quotient_bounds hnum hden
  set guess : ℤ := (num.log2 : ℤ) - den.log2 - 52 with hguess
  obtain ⟨hpos, hscaled⟩ := scaled_eq num hden guess
  -- One less than the guess is right if the quotient for the guess is too short.
  obtain ⟨e, he, helow, hehigh⟩ : ∃ e : ℤ,
      exponentFor num den = (if e < minExponent then minExponent else e) ∧
        2 ^ 52 ≤ (num : ℚ) / den / 2 ^ e ∧ (num : ℚ) / den / 2 ^ e < 2 ^ 53 := by
    refine ⟨_, rfl, ?_⟩
    rw [← hguess]
    split
    next hshort =>
      have hquotient : (num : ℚ) / den / 2 ^ guess < 2 ^ 52 := by
        rw [← hscaled]
        exact_mod_cast (div_lt_iff_cast hpos).mp hshort
      have hdouble : (num : ℚ) / den / 2 ^ (guess - 1) = 2 * (num / den / 2 ^ guess) := by
        rw [zpow_sub_one₀ (by norm_num)]
        field_simp
      rw [hdouble]
      constructor <;> linarith
    next hlong =>
      have hquotient : ¬ (num : ℚ) / den / 2 ^ guess < 2 ^ 52 := by
        rw [← hscaled]
        exact_mod_cast fun h => hlong ((div_lt_iff_cast hpos).mpr h)
      exact ⟨not_lt.mp hquotient, hhigh⟩
  rw [he]
  split
  next hleast =>
    -- In units of a greater power the quotient is smaller.
    refine ⟨le_refl _, lt_of_le_of_lt ?_ hehigh, .inr rfl⟩
    have hratio : (0 : ℚ) ≤ num / den := by positivity
    exact div_le_div_of_nonneg_left hratio (zpow_pos (by norm_num) _)
      (zpow_le_zpow_right₀ (by norm_num) hleast.le)
  next hmore => exact ⟨not_lt.mp hmore, hehigh, .inl helow⟩

/-- A ratio that is not below one is far above the least exponent. -/
theorem exponentFor_ne_minExponent {num den : ℕ} (hden : 0 < den) (hle : den ≤ num) :
    exponentFor num den ≠ minExponent := by
  intro heq
  obtain ⟨-, hhigh, -⟩ := exponentFor_spec (lt_of_lt_of_le hden hle) hden
  have hone : (1 : ℚ) ≤ num / den := by
    rw [one_le_div₀ (by exact_mod_cast hden)]
    exact_mod_cast hle
  rw [heq, div_lt_iff₀ (zpow_pos (by norm_num) _)] at hhigh
  have hsmall : (2 : ℚ) ^ 53 * 2 ^ minExponent ≤ 2 ^ (0 : ℤ) := by
    rw [← zpow_natCast, ← zpow_add₀ (by norm_num)]
    exact zpow_le_zpow_right₀ (by norm_num) (by decide)
  rw [zpow_zero] at hsmall
  linarith

/-- A double with its exponent, after a carry if there is one. -/
theorem canonical_carry {q : ℕ} {e : ℤ} {a : Double} (hq : q ≤ 2 ^ 53) (he : minExponent ≤ e)
    (hnormal : 2 ^ 52 ≤ q ∨ e = minExponent)
    (h : (let (m, e) := if q == Nat.pow 2 53 then (Nat.pow 2 52, e + 1) else (q, e)
      if maxExponent < e then none else some (⟨false, m, e⟩ : Double)) = some a) :
    a.Canonical ∧ (2 ^ 52 ≤ q → 0 < a.significand) := by
  by_cases hcarry : q = 2 ^ 53
  · rw [if_pos (by rw [hcarry]; rfl)] at h
    dsimp only at h
    split at h
    next => cases h
    next hmax =>
      cases h
      have hpow : Nat.pow 2 52 < 2 ^ 53 := by decide
      exact ⟨⟨hpow, by dsimp only; omega, not_lt.mp hmax, .inl (le_refl _)⟩,
        fun _ => Nat.pow_pos (by decide)⟩
  · rw [if_neg (by simpa using hcarry)] at h
    dsimp only at h
    split at h
    next => cases h
    next hmax =>
      cases h
      exact ⟨⟨by dsimp only; omega, he, not_lt.mp hmax, hnormal⟩, fun hlong => by dsimp only; omega⟩

/-- **Rounding gives a canonical double**, which is not zero if the ratio is not below one. -/
theorem canonical_ofRatio {num den : ℕ} {a : Double} (hden : 0 < den)
    (h : ofRatio num den = some a) : a.Canonical ∧ (den ≤ num → 0 < a.significand) := by
  rw [ofRatio] at h
  split at h
  next hzero =>
    cases h
    have hnum : num = 0 := by simpa using hzero
    exact ⟨canonical_zero false, fun hle => by omega⟩
  next hnonzero =>
    have hnum : 0 < num := Nat.pos_of_ne_zero (by simpa using hnonzero)
    obtain ⟨hmin, hhigh, hlow⟩ := exponentFor_spec hnum hden
    obtain ⟨hpos, hscaled⟩ := scaled_eq num hden (exponentFor num den)
    rw [← hscaled] at hhigh hlow
    obtain ⟨hceil, hfloor⟩ := roundDiv_bounds hpos hhigh
    obtain ⟨hcanonical, hsignificand⟩ := canonical_carry hceil hmin (hlow.imp_left hfloor) h
    exact ⟨hcanonical, fun hle =>
      hsignificand (hfloor (hlow.resolve_right (exponentFor_ne_minExponent hden hle)))⟩

/-! ## Digits with an exponent -/

theorem canonical_ofNat {n : ℕ} {a : Double} (h : ofNat n = some a) : a.Canonical :=
  (canonical_ofRatio Nat.one_pos h).1

theorem canonical_mul {a b c : Double} (h : mul a b = some c) : c.Canonical :=
  (canonical_ofRatio (Nat.mul_pos a.ratio_eq.1 b.ratio_eq.1) h).1

/-- A power of ten is not zero, so that it can be divided by. -/
theorem significand_powerOfTen_pos {n : ℕ} {a : Double} (h : powerOfTen n = some a) :
    0 < a.significand :=
  (canonical_ofRatio Nat.one_pos h).2 (Nat.pow_pos (by decide))

theorem canonical_div {a b c : Double} (hb : 0 < b.significand) (h : div a b = some c) :
    c.Canonical := by
  have hratio : 0 < b.ratio.1 := by
    rw [ratio]
    split
    next => exact Nat.mul_pos hb (Nat.pow_pos (by decide))
    next => exact hb
  exact (canonical_ofRatio (Nat.mul_pos a.ratio_eq.1 hratio) h).1

/-- Dividing by powers of ten again and again keeps a double canonical. -/
theorem canonical_divide {f a : Double} {steps n : ℕ} (hf : f.Canonical)
    (h : ofParts.divide f steps n = some a) : a.Canonical := by
  induction steps generalizing f n with
  | zero =>
    cases h
    exact hf
  | succ steps ih =>
    rw [ofParts.divide] at h
    split at h
    next =>
      cases h
      exact hf
    next =>
      split at h
      next =>
        obtain ⟨p, hp, hdiv⟩ := Option.bind_eq_some_iff.mp h
        exact canonical_div (significand_powerOfTen_pos hp) hdiv
      next =>
        obtain ⟨g, hg, hrest⟩ := Option.bind_eq_some_iff.mp h
        obtain ⟨p, hp, hdiv⟩ := Option.bind_eq_some_iff.mp hg
        exact ih (canonical_div (significand_powerOfTen_pos hp) hdiv) hrest

/-- **Digits with an exponent are read as a canonical double.** -/
theorem canonical_ofParts {significand : ℕ} {exponent : ℤ} {a : Double}
    (h : ofParts significand exponent = some a) : a.Canonical := by
  rw [ofParts] at h
  split at h
  next => cases h
  next f hf =>
    split at h
    next =>
      split at h
      next =>
        cases h
        exact canonical_ofNat hf
      next =>
        split at h
        next => cases h
        next =>
          obtain ⟨p, -, hmul⟩ := Option.bind_eq_some_iff.mp h
          exact canonical_mul hmul
    next => exact canonical_divide (canonical_ofNat hf) h

end Double

end ServerBoundary.Decimal
