/-!
# UTF-8

Reading bytes as text. `step` reads one character; `decode?` fails on bytes that are not UTF-8,
and `decodeLossy` puts `U+FFFD` in the place of each longest piece that could have begun a character
but does not go on as one.
-/

namespace ServerBoundary.Text.Utf8

/-- Whether a byte continues a character. -/
def isContinuation (b : UInt8) : Bool := 0x80 ≤ b && b < 0xC0

/-- The bytes that may come second in a character after a first byte. -/
def secondRange (first : UInt8) : UInt8 × UInt8 :=
  if first == 0xE0 then (0xA0, 0xBF)
  else if first == 0xED then (0x80, 0x9F)
  else if first == 0xF0 then (0x90, 0xBF)
  else if first == 0xF4 then (0x80, 0x8F)
  else (0x80, 0xBF)

/-- Whether a byte may come second after a first byte. -/
def isSecond (first b : UInt8) : Bool :=
  let (low, high) := secondRange first
  low ≤ b && b ≤ high

/-- The payload bits of a byte that continues a character. -/
def tailBits (b : UInt8) : Nat := b.toNat % 0x40

/-- The result of reading one character. -/
inductive Step where
  | char (c : Char) (rest : List UInt8)
  /-- The bytes up to here do not make a character. -/
  | bad (rest : List UInt8)
  | done

/-- Reads one character. What is not one is dropped up to the first byte that does not fit. -/
def step : List UInt8 → Step
  | [] => .done
  | a :: rest =>
    if a < 0x80 then .char (Char.ofNat a.toNat) rest
    else if 0xC2 ≤ a && a ≤ 0xDF then
      match rest with
      | b :: rest' =>
        if isContinuation b then .char (Char.ofNat ((a.toNat - 0xC0) * 0x40 + tailBits b)) rest'
        else .bad rest
      | [] => .bad []
    else if 0xE0 ≤ a && a ≤ 0xEF then
      match rest with
      | b :: rest' =>
        if isSecond a b then
          match rest' with
          | c :: rest'' =>
            if isContinuation c then
              .char (Char.ofNat ((a.toNat - 0xE0) * 0x1000 + tailBits b * 0x40 + tailBits c)) rest''
            else .bad rest'
          | [] => .bad []
        else .bad rest
      | [] => .bad []
    else if 0xF0 ≤ a && a ≤ 0xF4 then
      match rest with
      | b :: rest' =>
        if isSecond a b then
          match rest' with
          | c :: rest'' =>
            if isContinuation c then
              match rest'' with
              | d :: rest3 =>
                if isContinuation d then
                  .char (Char.ofNat ((a.toNat - 0xF0) * 0x40000 + tailBits b * 0x1000 +
                    tailBits c * 0x40 + tailBits d)) rest3
                else .bad rest''
              | [] => .bad []
            else .bad rest'
          | [] => .bad []
        else .bad rest
      | [] => .bad []
    else .bad rest

/-- The text of bytes, with `U+FFFD` for what is not text. The first argument bounds the number of
characters. -/
def decodeChars : Nat → List UInt8 → List Char
  | 0, _ => []
  | n + 1, bs =>
    match step bs with
    | .char c rest => c :: decodeChars n rest
    | .bad rest => '\uFFFD' :: decodeChars n rest
    | .done => []

/-- The text of bytes, with `U+FFFD` for what is not text. -/
def decodeLossy (bs : List UInt8) : String := String.ofList (decodeChars bs.length bs)

/-- The text of bytes; `none` if some are not text. -/
def decodeStrict : Nat → List UInt8 → Option (List Char)
  | 0, _ => some []
  | n + 1, bs =>
    match step bs with
    | .char c rest => (decodeStrict n rest).map (c :: ·)
    | .bad _ => none
    | .done => some []

/-- The text of bytes; `none` if some are not text. -/
def decode? (bs : List UInt8) : Option String :=
  (decodeStrict bs.length bs).map String.ofList

/-- The number of bytes before the first ones that are not text. The first argument bounds the
number of characters. -/
def validLength : Nat → List UInt8 → Nat
  | 0, _ => 0
  | n + 1, bs =>
    match step bs with
    | .char _ rest => bs.length - rest.length + validLength n rest
    | _ => 0

/-- The bytes of a text. -/
def encode (s : String) : List UInt8 := s.toUTF8.toList

end ServerBoundary.Text.Utf8
