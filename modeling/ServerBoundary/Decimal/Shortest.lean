import ServerBoundary.Decimal.Double

/-!
# The shortest decimal text of a double

`digits` finds the fewest decimal digits that read back as the double, and of those the nearest to
it; `text` writes them. All comparisons are between natural numbers.
-/

namespace ServerBoundary.Decimal

/-- Digits with the place of the first one: `d.ddd * 10 ^ exponent`. -/
structure Scientific where
  digits : Nat
  count : Nat
  exponent : Int
deriving Repr, DecidableEq

namespace Shortest

/-- The decimal exponent of a positive ratio below one: the least `j` with `num * 10 ^ j ≥ den`,
negated. The first argument bounds the search. -/
def smallExponent : Nat → Nat → Nat → Nat → Int
  | 0, j, _, _ => -(j : Int)
  | fuel + 1, j, num, den =>
    if num * Nat.pow 10 j ≥ den then -(j : Int) else smallExponent fuel (j + 1) num den

/-- The decimal exponent of a positive ratio: its first digit stands at `10 ^ exponent`. -/
def decimalExponent (num den : Nat) : Int :=
  if num ≥ den then ((Nat.toDigits 10 (num / den)).length : Int) - 1
  else smallExponent 400 1 num den

/-- A ratio in units of `10 ^ k`. -/
def inUnits (num den : Nat) (k : Int) : Nat × Nat :=
  if k ≥ 0 then (num, den * Nat.pow 10 k.toNat) else (num * Nat.pow 10 (-k).toNat, den)

/-- The range of numbers that round to a double, as numerators over one denominator: low end, value,
high end, denominator. -/
def interval (a : Double) : Nat × Nat × Nat × Nat :=
  let narrow := a.significand == Nat.pow 2 52 && a.exponent > Double.minExponent
  let low := 4 * a.significand - (if narrow then 1 else 2)
  let high := 4 * a.significand + 2
  let value := 4 * a.significand
  let e := a.exponent - 2
  if e ≥ 0 then
    let f := Nat.pow 2 e.toNat
    (low * f, value * f, high * f, 1)
  else (low, value, high, Nat.pow 2 (-e).toNat)

/-- Whether `n * 10 ^ k` rounds to the double. The ends of the range do if the significand is
even. -/
def readsBack (a : Double) (n : Nat) (k : Int) : Bool :=
  let (low, _, high, den) := interval a
  let (x, d) := if k ≥ 0 then (n * Nat.pow 10 k.toNat, 1) else (n, Nat.pow 10 (-k).toNat)
  if a.significand % 2 == 0 then low * d ≤ x * den && x * den ≤ high * d
  else low * d < x * den && x * den < high * d

/-- The digits of a positive double with the given number of places, if they read back: of the two
neighbours on that grid the nearer, and of equally near ones the even. -/
def withPlaces (a : Double) (exponent : Int) (places : Nat) : Option (Nat × Int) :=
  let k := exponent - (places : Int) + 1
  let (num, den) := inUnits a.ratio.1 a.ratio.2 k
  let below := num / den
  let above := below + 1
  let hitBelow := readsBack a below k
  let hitAbove := readsBack a above k
  let twice := 2 * (num % den)
  let belowNearer := twice < den || (twice == den && below % 2 == 0)
  if hitBelow && (belowNearer || !hitAbove) then some (below, k)
  else if hitAbove then some (above, k)
  else none

/-- The first number of places, from `places` on, for which digits read back. -/
def search (a : Double) (exponent : Int) : Nat → Nat → Nat × Int
  | 0, _ => (a.significand, 0)
  | fuel + 1, places =>
    match withPlaces a exponent places with
    | some found => found
    | none => search a exponent fuel (places + 1)

/-- The shortest digits of a double that is not zero. -/
def digits (a : Double) : Scientific :=
  let (num, den) := a.ratio
  let (n, k) := search a (decimalExponent num den) 20 1
  let cs := Nat.toDigits 10 n
  let trimmed := (cs.reverse.dropWhile (· == '0')).reverse
  let value := trimmed.foldl (fun v c => 10 * v + (c.toNat - 48)) 0
  ⟨value, trimmed.length, k + (cs.length : Int) - 1⟩

/-- Which numbers are written positionally. -/
structure Style where
  /-- The least decimal exponent written positionally. -/
  low : Int
  /-- The greatest decimal exponent written positionally. -/
  high : Int

/-- Zeros. -/
def zeros (n : Int) : List Char := List.replicate n.toNat '0'

/-- The text of a double. A positional number has at least one decimal; the exponent of another one
has a sign. -/
def text (style : Style) (a : Double) : String :=
  let sign := if a.negative then ['-'] else []
  if a.significand == 0 then String.ofList (sign ++ ['0', '.', '0'])
  else
    let s := digits a
    let cs := Nat.toDigits 10 s.digits
    let body :=
      if s.exponent < style.low || style.high < s.exponent then
        let mantissa := match cs with
          | [d] => [d]
          | d :: ds => d :: '.' :: ds
          | [] => []
        let e := Nat.toDigits 10 s.exponent.natAbs
        mantissa ++ 'e' :: (if s.exponent < 0 then '-' else '+') :: e
      else if s.exponent < 0 then '0' :: '.' :: zeros (-s.exponent - 1) ++ cs
      else
        let whole := (s.exponent + 1).toNat
        if cs.length ≤ whole then cs ++ zeros (whole - cs.length) ++ ['.', '0']
        else cs.take whole ++ '.' :: cs.drop whole
    String.ofList (sign ++ body)

end Shortest

end ServerBoundary.Decimal
