import ServerBoundary.Source.SyntaxError
import ServerBoundary.Source.NameCharacters

/-!
# The text of literals

Where the text of a string, a number, a regular expression or a piece of a template ends, and what a
string stands for. Each function splits its input, so what it takes and what it leaves make up the
input again.
-/

namespace ServerBoundary.Source

/-- Splits after the text up to an unescaped `quote`, which is dropped; `none` if there is none
before the line ends. A backslash takes the character after it along. -/
def splitString (quote : Char) : List Char → Option (List Char × List Char)
  | [] => none
  | '\x5c' :: '\r' :: '\n' :: rest =>
    (splitString quote rest).map fun (t, r) => ('\x5c' :: '\r' :: '\n' :: t, r)
  | '\x5c' :: c :: rest => (splitString quote rest).map fun (t, r) => ('\x5c' :: c :: t, r)
  | c :: rest =>
    if c == quote then some ([], rest)
    else if c == '\n' || c == '\r' then none
    else (splitString quote rest).map fun (t, r) => (c :: t, r)

/-- The value of a hexadecimal digit. -/
def hexValue? (c : Char) : Option Nat :=
  if '0' ≤ c && c ≤ '9' then some (c.toNat - 48)
  else if 'a' ≤ c && c ≤ 'f' then some (c.toNat - 87)
  else if 'A' ≤ c && c ≤ 'F' then some (c.toNat - 55)
  else none

/-- The number that hexadecimal digits stand for; other characters count as zero. -/
def hexNumber (cs : List Char) : Nat :=
  cs.foldl (fun n c => 16 * n + (hexValue? c).getD 0) 0

/-- What a text stands for, in 16-bit units: a character above `0xFFFF` is two of them. -/
def unitsOfCode (code : Nat) : List Nat :=
  if code < 0x10000 then [code]
  else [0xD800 + (code - 0x10000) / 0x400, 0xDC00 + (code - 0x10000) % 0x400]

/-- How far an escape sequence has been read. -/
inductive EscapeState where
  | outside
  | after
  /-- The digits so far of an escape that has `missing` more. -/
  | digits (missing code : Nat)
  /-- The digits so far of an escape in braces. -/
  | braced (code : Nat)
  | unicode
  /-- A line continuation that ended with a carriage return. -/
  | continuation

/-- The 16-bit units that the inside of a string stands for. -/
def cookUnits : EscapeState → List Char → List Nat
  | _, [] => []
  | .outside, c :: rest =>
    if c == '\x5c' then cookUnits .after rest else unitsOfCode c.toNat ++ cookUnits .outside rest
  | .continuation, c :: rest =>
    if c == '\n' then cookUnits .outside rest
    else if c == '\x5c' then cookUnits .after rest
    else unitsOfCode c.toNat ++ cookUnits .outside rest
  | .after, c :: rest =>
    if c == 'n' then 10 :: cookUnits .outside rest
    else if c == 't' then 9 :: cookUnits .outside rest
    else if c == 'r' then 13 :: cookUnits .outside rest
    else if c == 'b' then 8 :: cookUnits .outside rest
    else if c == 'v' then 11 :: cookUnits .outside rest
    else if c == 'f' then 12 :: cookUnits .outside rest
    else if c == '0' then 0 :: cookUnits .outside rest
    else if c == 'x' then cookUnits (.digits 2 0) rest
    else if c == 'u' then cookUnits .unicode rest
    else if c == '\r' then cookUnits .continuation rest
    else if isLineEnd c then cookUnits .outside rest
    else unitsOfCode c.toNat ++ cookUnits .outside rest
  | .unicode, c :: rest =>
    if c == '{' then cookUnits (.braced 0) rest
    else cookUnits (.digits 3 ((hexValue? c).getD 0)) rest
  | .digits missing code, c :: rest =>
    match missing with
    | 0 | 1 => (16 * code + (hexValue? c).getD 0) :: cookUnits .outside rest
    | n + 2 => cookUnits (.digits (n + 1) (16 * code + (hexValue? c).getD 0)) rest
  | .braced code, c :: rest =>
    if c == '}' then unitsOfCode code ++ cookUnits .outside rest
    else cookUnits (.braced (16 * code + (hexValue? c).getD 0)) rest

/-- The characters that 16-bit units stand for; a unit of a broken pair becomes `U+FFFD`. -/
def charsOfUnits : List Nat → List Char
  | [] => []
  | [u] => if 0xD800 ≤ u && u < 0xE000 then ['\uFFFD'] else [Char.ofNat u]
  | u :: v :: rest =>
    if 0xD800 ≤ u && u < 0xDC00 && 0xDC00 ≤ v && v < 0xE000 then
      Char.ofNat (0x10000 + (u - 0xD800) * 0x400 + (v - 0xDC00)) :: charsOfUnits rest
    else if 0xD800 ≤ u && u < 0xE000 then '\uFFFD' :: charsOfUnits (v :: rest)
    else Char.ofNat u :: charsOfUnits (v :: rest)

/-- What the inside of a string literal stands for. -/
def cook (inside : List Char) : String := String.ofList (charsOfUnits (cookUnits .outside inside))

/-- Whether the inside of a string has an octal escape, which a module may not have. -/
def hasOctalEscape : List Char → Bool
  | '\x5c' :: c :: rest =>
    (c != '0' && '1' ≤ c && c ≤ '9') ||
    (c == '0' && (match rest with | d :: _ => d.isDigit | [] => false)) || hasOctalEscape rest
  | _ :: rest => hasOctalEscape rest
  | [] => false

/-- Splits after the text of a template up to its end or to an expression in it. The flag tells
whether an expression follows. A line end is always a line feed. -/
def splitChunk : List Char → Option (List Char × Bool × List Char)
  | [] => none
  | '\x60' :: rest => some ([], false, rest)
  | '$' :: '{' :: rest => some ([], true, rest)
  | '\x5c' :: '\r' :: '\n' :: rest =>
    (splitChunk rest).map fun (t, e, r) => ('\x5c' :: '\n' :: t, e, r)
  | '\x5c' :: c :: rest => (splitChunk rest).map fun (t, e, r) => ('\x5c' :: c :: t, e, r)
  | '\r' :: '\n' :: rest => (splitChunk rest).map fun (t, e, r) => ('\n' :: t, e, r)
  | '\r' :: rest => (splitChunk rest).map fun (t, e, r) => ('\n' :: t, e, r)
  | c :: rest => (splitChunk rest).map fun (t, e, r) => (c :: t, e, r)

/-- The number of characters up to the end of a template chunk, its delimiter included. -/
def chunkWidth : List Char → Nat
  | [] => 0
  | '\x60' :: _ => 1
  | '$' :: '{' :: _ => 2
  | '\x5c' :: _ :: rest => 2 + chunkWidth rest
  | _ :: rest => 1 + chunkWidth rest

/-- Splits after the body of a regular expression, whose closing slash is dropped. Inside brackets
a slash is an ordinary character. -/
def splitRegexBody : Bool → List Char → Option (List Char × List Char)
  | _, [] => none
  | inClass, '\x5c' :: c :: rest =>
    if isLineEnd c then none
    else (splitRegexBody inClass rest).map fun (t, r) => ('\x5c' :: c :: t, r)
  | inClass, c :: rest =>
    if isLineEnd c then none
    else if c == '/' && !inClass then some ([], rest)
    else
      (splitRegexBody (if c == '[' then true else if c == ']' then false else inClass) rest).map
        fun (t, r) => (c :: t, r)

/-- Digits and separators of a number from the start of a text. -/
def splitDigits (isDigit : Char → Bool) (cs : List Char) : List Char × List Char :=
  cs.span fun c => isDigit c || c == '_'

/-- Whether a character is a hexadecimal digit. -/
def isHexDigit (c : Char) : Bool := (hexValue? c).isSome

/-- The exponent of a number, if the text starts with one. -/
def splitExponent : List Char → List Char × List Char
  | e :: s :: d :: rest =>
    if (e == 'e' || e == 'E') && (s == '+' || s == '-') && d.isDigit then
      let (ds, r) := splitDigits Char.isDigit rest
      (e :: s :: d :: ds, r)
    else if (e == 'e' || e == 'E') && s.isDigit then
      let (ds, r) := splitDigits Char.isDigit (d :: rest)
      (e :: s :: ds, r)
    else ([], e :: s :: d :: rest)
  | [e, d] => if (e == 'e' || e == 'E') && d.isDigit then ([e, d], []) else ([], [e, d])
  | cs => ([], cs)

/-- Splits after a number at the start of a text: its characters, whether it is a big integer, and
the rest. -/
def splitNumber (cs : List Char) : List Char × Bool × List Char :=
  let withSuffix := fun (t r : List Char) =>
    match r with
    | 'n' :: r' => (t ++ ['n'], true, r')
    | _ => (t, false, r)
  let radix := fun (z x : Char) (isDigit : Char → Bool) (rest : List Char) =>
    let (ds, r) := splitDigits isDigit rest
    withSuffix (z :: x :: ds) r
  match cs with
  | z :: x :: rest =>
    if z == '0' && (x == 'x' || x == 'X') then radix z x isHexDigit rest
    else if z == '0' && (x == 'o' || x == 'O' || x == 'b' || x == 'B') then
      radix z x Char.isDigit rest
    else decimal withSuffix cs
  | _ => decimal withSuffix cs
where
  decimal (withSuffix : List Char → List Char → List Char × Bool × List Char) (cs : List Char) :
      List Char × Bool × List Char :=
    let (whole, r) := splitDigits Char.isDigit cs
    match r with
    | '.' :: r' =>
      let (fraction, r'') := splitDigits Char.isDigit r'
      let (exponent, r3) := splitExponent r''
      (whole ++ '.' :: fraction ++ exponent, false, r3)
    | _ =>
      let (exponent, r') := splitExponent r
      if exponent.isEmpty then withSuffix whole r else (whole ++ exponent, false, r')

end ServerBoundary.Source
