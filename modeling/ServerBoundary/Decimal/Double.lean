/-!
# Doubles

The finite numbers of the binary format with 53 significant bits, as exact values: a significand
times a power of two. Rounding, products and quotients are computed on natural numbers, so a result
is the double nearest to the exact one, ties going to the even significand.
-/

namespace ServerBoundary.Decimal

/-- A finite double: `significand * 2 ^ exponent`, with its sign. -/
structure Double where
  negative : Bool
  significand : Nat
  exponent : Int
deriving DecidableEq, Repr, Inhabited

namespace Double

/-- The least exponent. -/
def minExponent : Int := -1074

/-- The greatest exponent. -/
def maxExponent : Int := 971

/-- Zero, with a sign. -/
def zero (negative : Bool) : Double := ⟨negative, 0, minExponent⟩

/-- Whether two doubles are equal as numbers: zero has one value with either sign. -/
def same (a b : Double) : Bool :=
  (a.significand == 0 && b.significand == 0) || a == b

/-- The double with the other sign. -/
def negate (a : Double) : Double := { a with negative := !a.negative }

/-- A ratio with a factor `2 ^ e` taken out of it: `num / den = scaled.1 / scaled.2 * 2 ^ e`. -/
def scaled (num den : Nat) (e : Int) : Nat × Nat :=
  if e ≥ 0 then (num, den * Nat.pow 2 e.toNat) else (num * Nat.pow 2 (-e).toNat, den)

/-- The quotient rounded to the nearest natural number, ties to even. -/
def roundDiv (num den : Nat) : Nat :=
  let q := num / den
  let twice := 2 * (num % den)
  if twice < den then q
  else if den < twice then q + 1
  else if q % 2 == 0 then q else q + 1

/-- The exponent for which the significand of a positive ratio has 53 bits, or the least one. -/
def exponentFor (num den : Nat) : Int :=
  let guess : Int := (num.log2 : Int) - (den.log2 : Int) - 52
  let (n, d) := scaled num den guess
  let e := if n / d < Nat.pow 2 52 then guess - 1 else guess
  if e < minExponent then minExponent else e

/-- The double nearest to a ratio; `none` if it is too large for one. -/
def ofRatio (num den : Nat) : Option Double :=
  if num == 0 then some (zero false)
  else
    let e := exponentFor num den
    let (n, d) := scaled num den e
    let q := roundDiv n d
    let (m, e) := if q == Nat.pow 2 53 then (Nat.pow 2 52, e + 1) else (q, e)
    if maxExponent < e then none else some ⟨false, m, e⟩

/-- The absolute value as a ratio. -/
def ratio (a : Double) : Nat × Nat :=
  if a.exponent ≥ 0 then (a.significand * Nat.pow 2 a.exponent.toNat, 1)
  else (a.significand, Nat.pow 2 (-a.exponent).toNat)

/-- The rounded product of two positive doubles. -/
def mul (a b : Double) : Option Double :=
  ofRatio (a.ratio.1 * b.ratio.1) (a.ratio.2 * b.ratio.2)

/-- The rounded quotient of two positive doubles. -/
def div (a b : Double) : Option Double :=
  ofRatio (a.ratio.1 * b.ratio.2) (a.ratio.2 * b.ratio.1)

/-- The double nearest to a natural number. -/
def ofNat (n : Nat) : Option Double := ofRatio n 1

/-- The double nearest to a power of ten. -/
def powerOfTen (n : Nat) : Option Double := ofRatio (Nat.pow 10 n) 1

/-- The value of `significand * 10 ^ exponent`, in the steps of a reader that rounds after each: the
significand, then a product or a quotient with a power of ten. A quotient below `10 ^ -308` is taken
in several steps. `none` if the value is too large. -/
def ofParts (significand : Nat) (exponent : Int) : Option Double :=
  match ofNat significand with
  | none => none
  | some f =>
    if exponent ≥ 0 then
      if f.significand == 0 then some f
      else if exponent > 308 then none
      else (powerOfTen exponent.toNat).bind (mul f)
    else divide f ((-exponent).toNat / 308 + 1) (-exponent).toNat
where
  /-- Divides by a power of ten, at most `10 ^ 308` at a time. -/
  divide (f : Double) : Nat → Nat → Option Double
    | 0, _ => some f
    | steps + 1, n =>
      if f.significand == 0 then some f
      else if n ≤ 308 then (powerOfTen n).bind (div f)
      else ((powerOfTen 308).bind (div f)).bind fun g => divide g steps (n - 308)

end Double

end ServerBoundary.Decimal
