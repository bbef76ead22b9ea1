import ServerBoundary.Source.Literal

/-!
# Quoted strings

The source text of a string that was not read from a source. `encode` writes it between the quotes
it contains less often; `Literal.cook` reads it back.
-/

namespace ServerBoundary.Source.Quoted

/-- The quote for a text: the double one, unless the text has more double than single quotes. -/
def quoteFor (cs : List Char) : Char :=
  if cs.count '\x22' > cs.count '\x27' then '\x27' else '\x22'

/-- A hexadecimal digit, in lower case. -/
def hexDigit (n : Nat) : Char := if n < 10 then Char.ofNat (48 + n) else Char.ofNat (87 + n)

/-- What stands for a character between quotes; `next` is the character after it. -/
def escape (quote c : Char) (next : Option Char) : List Char :=
  if c == quote || c == '\x5c' then ['\x5c', c]
  else
    match c.toNat with
    | 0 => if next.any Char.isDigit then ['\x5c', 'x', '0', '0'] else ['\x5c', '0']
    | 8 => ['\x5c', 'b']
    | 9 => [c]
    | 10 => ['\x5c', 'n']
    | 11 => ['\x5c', 'v']
    | 12 => ['\x5c', 'f']
    | 13 => ['\x5c', 'r']
    | 0x2028 => ['\x5c', 'u', '2', '0', '2', '8']
    | 0x2029 => ['\x5c', 'u', '2', '0', '2', '9']
    | 0xFEFF => ['\x5c', 'u', 'F', 'E', 'F', 'F']
    | n => if n < 0x20 then ['\x5c', 'x', hexDigit (n / 16), hexDigit (n % 16)] else [c]

/-- The inside of a quoted text. -/
def inside (quote : Char) : List Char → List Char
  | [] => []
  | c :: cs => escape quote c cs.head? ++ inside quote cs

/-- The text as a string literal. -/
def encode (value : String) : String :=
  let cs := value.toList
  let quote := quoteFor cs
  String.ofList (quote :: inside quote cs ++ [quote])

end ServerBoundary.Source.Quoted
