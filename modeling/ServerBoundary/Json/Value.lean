import ServerBoundary.Data.OrderedMap
import ServerBoundary.Decimal.Shortest

/-!
# JSON values

Objects keep the order in which their keys were first written. A number is an exact integer or a
double, and an integer is never equal to a double.
-/

namespace ServerBoundary

/-- A JSON number. -/
inductive JsonNumber where
  | integer (value : Int)
  | double (value : Decimal.Double)
deriving DecidableEq, Repr

/-- A JSON value. -/
inductive Json where
  | null
  | bool (value : Bool)
  | number (value : JsonNumber)
  | string (value : String)
  | array (items : List Json)
  | object (fields : List (String × Json))
deriving Repr, Inhabited

/-- Whether two numbers are equal. -/
def JsonNumber.same : JsonNumber → JsonNumber → Bool
  | .integer a, .integer b => a == b
  | .double a, .double b => a.same b
  | _, _ => false

namespace Json

mutual
/-- Whether two values are equal; the order of keys does not matter. -/
def same : Json → Json → Bool
  | null, null => true
  | bool a, bool b => a == b
  | number a, number b => a.same b
  | string a, string b => a == b
  | array as, array bs => sameItems as bs
  | object as, object bs => as.length == bs.length && sameFields as bs
  | _, _ => false
/-- Whether two lists of values are equal item by item. -/
def sameItems : List Json → List Json → Bool
  | [], [] => true
  | a :: as, b :: bs => same a b && sameItems as bs
  | _, _ => false
/-- Whether each of the first fields is equal to one of the second. -/
def sameFields : List (String × Json) → List (String × Json) → Bool
  | [], _ => true
  | (k, a) :: as, bs =>
    (match lookupKey k bs with
     | some b => same a b
     | none => false) && sameFields as bs
end

/-- Doubles from `10 ^ -5` up to below `10 ^ 16` are written positionally. -/
def doubleStyle : Decimal.Shortest.Style := ⟨-5, 15⟩

/-- The text of a number. -/
def numberText : JsonNumber → String
  | .integer i => if i < 0 then "-" ++ Nat.repr i.natAbs else Nat.repr i.natAbs
  | .double d => Decimal.Shortest.text doubleStyle d

/-- A hexadecimal digit, in lower case. -/
def hexDigit (n : Nat) : Char := if n < 10 then Char.ofNat (48 + n) else Char.ofNat (87 + n)

/-- What stands for a character in a string: quotes, backslashes and control characters are
escaped. -/
def escape (c : Char) : List Char :=
  if c == '\x22' || c == '\x5c' then ['\x5c', c]
  else
    match c.toNat with
    | 8 => ['\x5c', 'b']
    | 9 => ['\x5c', 't']
    | 10 => ['\x5c', 'n']
    | 12 => ['\x5c', 'f']
    | 13 => ['\x5c', 'r']
    | n =>
      if n < 0x20 then ['\x5c', 'u', '0', '0', hexDigit (n / 16), hexDigit (n % 16)] else [c]

/-- The text of a string. -/
def stringText (s : String) : String :=
  String.ofList ('\x22' :: s.toList.flatMap escape ++ ['\x22'])

mutual
/-- The text of a value, without blanks. -/
def text : Json → String
  | null => "null"
  | bool b => if b then "true" else "false"
  | number n => numberText n
  | string s => stringText s
  | array items => "[" ++ itemsText items ++ "]"
  | object fields => "\x7b" ++ fieldsText fields ++ "\x7d"
/-- The texts of values, with commas between them. -/
def itemsText : List Json → String
  | [] => ""
  | [v] => text v
  | v :: w :: vs => text v ++ "," ++ itemsText (w :: vs)
/-- The texts of fields, with commas between them. -/
def fieldsText : List (String × Json) → String
  | [] => ""
  | [(k, v)] => stringText k ++ ":" ++ text v
  | (k, v) :: f :: fs => stringText k ++ ":" ++ text v ++ "," ++ fieldsText (f :: fs)
end

/-- The value of a key of an object. -/
def field? (key : String) : Json → Option Json
  | object fields => lookupKey key fields
  | _ => none

end Json

end ServerBoundary
