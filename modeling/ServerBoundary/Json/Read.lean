import ServerBoundary.Json.Value
import ServerBoundary.Text.Utf8

/-!
# Reading JSON

`Json.read` reads bytes as one value or says what is wrong and where. The place of a fault is the
number of bytes up to and including the offending one, counted in its line.
-/

namespace ServerBoundary

/-- What can be wrong with a JSON text. -/
inductive JsonFault where
  | endInValue
  | endInObject
  | endInList
  | endInString
  | colonExpected
  | commaOrBraceExpected
  | commaOrBracketExpected
  | identExpected
  | valueExpected
  | keyNotString
  | trailingComma
  | trailingCharacters
  | invalidNumber
  | numberOutOfRange
  | invalidEscape
  | endOfHexEscape
  | loneSurrogate
  | controlCharacter
  | notUnicode
  | tooDeep
deriving DecidableEq, Repr

/-- The wording of a fault. -/
def JsonFault.message : JsonFault → String
  | endInValue => "EOF while parsing a value"
  | endInObject => "EOF while parsing an object"
  | endInList => "EOF while parsing a list"
  | endInString => "EOF while parsing a string"
  | colonExpected => "expected `:`"
  | commaOrBraceExpected => "expected `,` or `\x7d`"
  | commaOrBracketExpected => "expected `,` or `]`"
  | identExpected => "expected ident"
  | valueExpected => "expected value"
  | keyNotString => "key must be a string"
  | trailingComma => "trailing comma"
  | trailingCharacters => "trailing characters"
  | invalidNumber => "invalid number"
  | numberOutOfRange => "number out of range"
  | invalidEscape => "invalid escape"
  | endOfHexEscape => "unexpected end of hex escape"
  | loneSurrogate => "lone leading surrogate in hex escape"
  | controlCharacter => "control character (\\u0000-\\u001F) found while parsing a string"
  | notUnicode => "invalid unicode code point"
  | tooDeep => "recursion limit exceeded"

/-- What is wrong with a JSON text, and where. -/
structure JsonError where
  fault : JsonFault
  line : Nat
  column : Nat
deriving DecidableEq, Repr

/-- The wording of an error. -/
def JsonError.message (e : JsonError) : String :=
  e.fault.message ++ " at line " ++ Nat.repr e.line ++ " column " ++ Nat.repr e.column

namespace Json

/-- Bytes that are still to be read, and the number of those that have been. -/
structure Input where
  rest : List UInt8
  taken : Nat

namespace Input

/-- The input after its next byte. -/
def drop (i : Input) : Input := ⟨i.rest.tail, i.taken + 1⟩

/-- Whether a byte is white space. -/
def isSpace (b : UInt8) : Bool := b == 32 || b == 9 || b == 10 || b == 13

/-- Passes white space. -/
def skipSpace (i : Input) : Input :=
  let spaces := i.rest.takeWhile isSpace
  ⟨i.rest.drop spaces.length, i.taken + spaces.length⟩

/-- The place of a fault at the next byte, or at the end. -/
def place (i : Input) : Nat := if i.rest.isEmpty then i.taken else i.taken + 1

end Input

/-- What reading a piece gives: the piece and the input after it, or a fault and its place. -/
abbrev Result (α : Type) := Except (JsonFault × Nat) (α × Input)

/-- A fault at the next byte. -/
def faultAt {α : Type} (f : JsonFault) (i : Input) : Result α := .error (f, i.place)

/-- A fault after the bytes that were read. -/
def faultAfter {α : Type} (f : JsonFault) (i : Input) : Result α := .error (f, i.taken)

/-- The value of a byte that is a decimal digit. -/
def digit? (b : UInt8) : Option Nat :=
  if 48 ≤ b && b ≤ 57 then some (b.toNat - 48) else none

/-- The value of a byte that is a hexadecimal digit. -/
def hexDigit? (b : UInt8) : Option Nat :=
  if 48 ≤ b && b ≤ 57 then some (b.toNat - 48)
  else if 97 ≤ b && b ≤ 102 then some (b.toNat - 87)
  else if 65 ≤ b && b ≤ 70 then some (b.toNat - 55)
  else none

/-- The letters of a word after its first. -/
def ident (value : Json) : List UInt8 → Input → Result Json
  | [], i => .ok (value, i)
  | w :: ws, i =>
    match i.rest with
    | [] => faultAfter .endInValue i
    | b :: _ => if b == w then ident value ws i.drop else faultAt .identExpected i

/-- The greatest unsigned number of 64 bits. -/
def maxUnsigned : Nat := UInt64.size - 1

/-- Digits at the start of an input as long as the number they make fits in 64 bits: the number, how
many digits were read, whether one was left because it does not fit, and the input after them. -/
def significantDigits : List UInt8 → Nat → Nat → Nat → Nat × Nat × Bool × Input
  | [], n, count, taken => (n, count, false, ⟨[], taken⟩)
  | b :: rest, n, count, taken =>
    match digit? b with
    | none => (n, count, false, ⟨b :: rest, taken⟩)
    | some d =>
      if n * 10 + d > maxUnsigned then (n, count, true, ⟨b :: rest, taken⟩)
      else significantDigits rest (n * 10 + d) (count + 1) (taken + 1)

/-- Passes digits: how many there were, and the input after them. -/
def skipDigits (i : Input) : Nat × Input :=
  let ds := i.rest.takeWhile fun b => (digit? b).isSome
  (ds.length, ⟨i.rest.drop ds.length, i.taken + ds.length⟩)

/-- A double with its sign. -/
def signed (positive : Bool) (d : Decimal.Double) : Json :=
  .number (.double (if positive then d else d.negate))

/-- A double from its significand and exponent. -/
def fromParts (positive : Bool) (significand : Nat) (exponent : Int) (i : Input) : Result Json :=
  match Decimal.Double.ofParts significand exponent with
  | some d => .ok (signed positive d, i)
  | none => faultAfter .numberOutOfRange i

/-- The exponent of a number, whose letter is next. -/
def exponentPart (positive : Bool) (significand : Nat) (start : Int) (i : Input) : Result Json :=
  let i := i.drop
  let (up, i) := match i.rest with
    | 43 :: _ => (true, i.drop)
    | 45 :: _ => (false, i.drop)
    | _ => (true, i)
  match i.rest with
  | [] => faultAfter .endInValue i
  | b :: _ =>
    if (digit? b).isNone then faultAt .invalidNumber i
    else
      let (value, tooLarge, after) := exponentDigits i.rest 0 i.taken
      if tooLarge then
        if significand != 0 && up then faultAfter .numberOutOfRange after
        else .ok (signed positive (Decimal.Double.zero false), (skipDigits after).2)
      else fromParts positive significand (if up then start + value else start - value) after
where
  /-- The digits of an exponent, up to one that makes it larger than 31 bits. That one is read. -/
  exponentDigits : List UInt8 → Nat → Nat → Nat × Bool × Input
    | [], n, taken => (n, false, ⟨[], taken⟩)
    | b :: rest, n, taken =>
      match digit? b with
      | none => (n, false, ⟨b :: rest, taken⟩)
      | some d =>
        if n * 10 + d > 2147483647 then (n, true, ⟨rest, taken + 1⟩)
        else exponentDigits rest (n * 10 + d) (taken + 1)

/-- What follows the digits of a number that is a double. -/
def exponentOrEnd (positive : Bool) (significand : Nat) (exponent : Int) (i : Input) :
    Result Json :=
  match i.rest with
  | 101 :: _ | 69 :: _ => exponentPart positive significand exponent i
  | _ => fromParts positive significand exponent i

/-- The fraction of a number, whose point is next. Digits that do not fit in 64 bits are dropped. -/
def fractionPart (positive : Bool) (significand : Nat) (exponent : Int) (i : Input) : Result Json :=
  let i := i.drop
  let (n, count, cut, after) := significantDigits i.rest significand 0 i.taken
  if cut then exponentOrEnd positive n (exponent - count) (skipDigits after).2
  else if count == 0 then
    if after.rest.isEmpty then faultAt .endInValue after else faultAt .invalidNumber after
  else exponentOrEnd positive n (exponent - count) after

/-- A number after its sign. -/
def numberAt (positive : Bool) (i : Input) : Result Json :=
  match i.rest with
  | [] => faultAfter .endInValue i
  | b :: rest =>
    match digit? b with
    | none => faultAt .invalidNumber i
    | some 0 =>
      match rest with
      | c :: _ => if (digit? c).isSome then faultAt .invalidNumber i.drop else afterDigits 0 i.drop
      | [] => afterDigits 0 i.drop
    | some _ =>
      let (n, _, cut, after) := significantDigits i.rest 0 0 i.taken
      if cut then
        let (dropped, after) := skipDigits after
        match after.rest with
        | 46 :: _ => fractionPart positive n dropped after
        | _ => exponentOrEnd positive n dropped after
      else afterDigits n after
where
  /-- A number whose digits up to here are read. -/
  afterDigits (n : Nat) (i : Input) : Result Json :=
    match i.rest with
    | 46 :: _ => fractionPart positive n 0 i
    | 101 :: _ | 69 :: _ => exponentPart positive n 0 i
    | _ =>
      if positive then .ok (.number (.integer n), i)
      else if n == 0 || n > UInt64.size / 2 then
        match Decimal.Double.ofNat n with
        | some d => .ok (signed false d, i)
        | none => faultAfter .numberOutOfRange i
      else .ok (.number (.integer (-(n : Int))), i)

/-- The four digits of an escape. -/
def hexEscape (i : Input) : Result Nat :=
  match i.rest with
  | a :: b :: c :: d :: rest =>
    let after : Input := ⟨rest, i.taken + 4⟩
    match hexDigit? a, hexDigit? b, hexDigit? c, hexDigit? d with
    | some w, some x, some y, some z => .ok (((w * 16 + x) * 16 + y) * 16 + z, after)
    | _, _, _, _ => faultAfter .invalidEscape after
  | rest => faultAfter .endInString ⟨[], i.taken + rest.length⟩

/-- The bytes of a character. -/
def charBytes (code : Nat) : List UInt8 := Text.Utf8.encode (Char.ofNat code).toString

/-- An escape by code, after its `u`. -/
def unicodeEscape (i : Input) : Result (List UInt8) :=
  match hexEscape i with
  | .error e => .error e
  | .ok (n, i) =>
    if 0xDC00 ≤ n && n ≤ 0xDFFF then faultAfter .loneSurrogate i
    else if n < 0xD800 || 0xDBFF < n then .ok (charBytes n, i)
    else
      match i.rest with
      | [] => faultAfter .endInString i
      | 92 :: more =>
        match more with
        | [] => faultAfter .endInString i.drop
        | 117 :: _ =>
          match hexEscape i.drop.drop with
          | .error e => .error e
          | .ok (m, i) =>
            if m < 0xDC00 || 0xDFFF < m then faultAfter .loneSurrogate i
            else .ok (charBytes (0x10000 + (n - 0xD800) * 0x400 + (m - 0xDC00)), i)
        | _ => faultAt .endOfHexEscape i.drop
      | _ => faultAt .endOfHexEscape i

/-- An escape, after its backslash. -/
def escapeSequence (i : Input) : Result (List UInt8) :=
  match i.rest with
  | [] => faultAfter .endInString i
  | b :: _ =>
    match b with
    | 34 => .ok ([34], i.drop)
    | 92 => .ok ([92], i.drop)
    | 47 => .ok ([47], i.drop)
    | 98 => .ok ([8], i.drop)
    | 102 => .ok ([12], i.drop)
    | 110 => .ok ([10], i.drop)
    | 114 => .ok ([13], i.drop)
    | 116 => .ok ([9], i.drop)
    | 117 => unicodeEscape i.drop
    | _ => faultAt .invalidEscape i

/-- The bytes of a string up to its closing quote. The first argument bounds their number. -/
def stringBytes : Nat → Input → Result (List UInt8)
  | 0, i => faultAfter .endInString i
  | n + 1, i =>
    match i.rest with
    | [] => faultAfter .endInString i
    | b :: _ =>
      if b == 34 then .ok ([], i.drop)
      else if b == 92 then
        match escapeSequence i.drop with
        | .error e => .error e
        | .ok (bs, i) =>
          match stringBytes n i with
          | .error e => .error e
          | .ok (more, i) => .ok (bs ++ more, i)
      else if b < 32 then faultAt .controlCharacter i
      else
        match stringBytes n i.drop with
        | .error e => .error e
        | .ok (more, i) => .ok (b :: more, i)

/-- A string, after its opening quote. A byte that is not text is the fault. -/
def stringBody (i : Input) : Result String :=
  match stringBytes (i.rest.length + 1) i with
  | .error e => .error e
  | .ok (bs, after) =>
    match Text.Utf8.decode? bs with
    | some s => .ok (s, after)
    | none =>
      let valid := Text.Utf8.validLength i.rest.length i.rest
      faultAt .notUnicode ⟨i.rest.drop valid, i.taken + valid⟩

mutual
/-- A value. The first argument bounds the number of steps, the second the depth. -/
def valueAt : Nat → Nat → Input → Result Json
  | 0, _, i => faultAt .tooDeep i
  | n + 1, depth, i =>
    let i := i.skipSpace
    match i.rest with
    | [] => faultAt .endInValue i
    | b :: _ =>
      match b with
      | 110 => ident .null [117, 108, 108] i.drop
      | 116 => ident (.bool true) [114, 117, 101] i.drop
      | 102 => ident (.bool false) [97, 108, 115, 101] i.drop
      | 45 => numberAt false i.drop
      | 34 =>
        match stringBody i.drop with
        | .error e => .error e
        | .ok (s, i) => .ok (.string s, i)
      | 91 =>
        if depth ≤ 1 then faultAt .tooDeep i
        else
          match itemsAt n (depth - 1) true i.drop with
          | .error e => .error e
          | .ok (items, i) => .ok (.array items, i)
      | 123 =>
        if depth ≤ 1 then faultAt .tooDeep i
        else
          match fieldsAt n (depth - 1) true [] i.drop with
          | .error e => .error e
          | .ok (fields, i) => .ok (.object fields, i)
      | _ => if (digit? b).isSome then numberAt true i else faultAt .valueExpected i
/-- The items of an array up to its closing bracket. -/
def itemsAt : Nat → Nat → Bool → Input → Result (List Json)
  | 0, _, _, i => faultAt .tooDeep i
  | n + 1, depth, first, i =>
    let item (i : Input) : Result (List Json) :=
      match valueAt n depth i with
      | .error e => .error e
      | .ok (v, i) =>
        match itemsAt n depth false i with
        | .error e => .error e
        | .ok (vs, i) => .ok (v :: vs, i)
    let i := i.skipSpace
    match i.rest with
    | [] => faultAt .endInList i
    | b :: _ =>
      if b == 93 then .ok ([], i.drop)
      else if first then item i
      else if b == 44 then
        let i := i.drop.skipSpace
        match i.rest with
        | [] => faultAt .endInValue i
        | c :: _ => if c == 93 then faultAt .trailingComma i else item i
      else faultAt .commaOrBracketExpected i
/-- The fields of an object up to its closing brace, after the given ones. -/
def fieldsAt : Nat → Nat → Bool → List (String × Json) → Input → Result (List (String × Json))
  | 0, _, _, _, i => faultAt .tooDeep i
  | n + 1, depth, first, found, i =>
    let field (i : Input) : Result (List (String × Json)) :=
      match stringBody i.drop with
      | .error e => .error e
      | .ok (key, i) =>
        let i := i.skipSpace
        match i.rest with
        | [] => faultAt .endInObject i
        | b :: _ =>
          if b != 58 then faultAt .colonExpected i
          else
            match valueAt n depth i.drop with
            | .error e => .error e
            | .ok (v, i) => fieldsAt n depth false (setKey key v found) i
    let i := i.skipSpace
    match i.rest with
    | [] => faultAt .endInObject i
    | b :: _ =>
      if b == 125 then .ok (found, i.drop)
      else if first then (if b == 34 then field i else faultAt .keyNotString i)
      else if b == 44 then
        let i := i.drop.skipSpace
        match i.rest with
        | [] => faultAt .endInValue i
        | c :: _ =>
          if c == 34 then field i
          else if c == 125 then faultAt .trailingComma i
          else faultAt .keyNotString i
      else faultAt .commaOrBraceExpected i
end

/-- The line and the column of a place: lines count from one, and a column is the number of bytes
since the last line end. -/
def lineAndColumn (bytes : List UInt8) (place : Nat) : Nat × Nat :=
  (bytes.take place).foldl
    (fun (line, column) (b : UInt8) => if b == 10 then (line + 1, 0) else (line, column + 1)) (1, 0)

/-- One more array or object than this many may not be nested in each other. -/
def maxDepth : Nat := 128

/-- The value that bytes hold, or what is wrong with them. -/
def read (bytes : List UInt8) : Except JsonError Json :=
  let errorAt (f : JsonFault) (place : Nat) : JsonError :=
    let (line, column) := lineAndColumn bytes place
    ⟨f, line, column⟩
  match valueAt (2 * bytes.length + 2) maxDepth ⟨bytes, 0⟩ with
  | .error (f, place) => .error (errorAt f place)
  | .ok (v, i) =>
    let i := i.skipSpace
    if i.rest.isEmpty then .ok v else .error (errorAt .trailingCharacters i.place)

/-- The bytes of a value's text. -/
def toBytes (v : Json) : List UInt8 := Text.Utf8.encode v.text

end Json

end ServerBoundary
