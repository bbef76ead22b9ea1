import ServerBoundary.Json.Value

/-!
# Records in JSON

A `Record σ` says how a structure of type `σ` is read from a JSON value: from an object, whose fields
are taken in the order of the object, or from an array, whose items are the fields in the order in
which the record declares them. `Record.read` gives the structure, or the first thing that is wrong.
-/

namespace ServerBoundary

/-- What can be wrong with a JSON value that is read as a record. -/
inductive RecordFault where
  | invalidType (found : Json) (wanted : String)
  | unknownField (name : String) (declared : List String)
  | missingField (name : String)
  | tooFewItems (count : Nat) (wanted : String) (declared : Nat)
  | tooManyItems (count : Nat)
  | noVariant (wanted : String)

namespace Json

/-- What stands for a character in a quoted text of a message. -/
def quotedChar (c : Char) : List Char :=
  if c == '\x22' || c == '\x5c' then ['\x5c', c]
  else
    match c.toNat with
    | 0 => ['\x5c', '0']
    | 9 => ['\x5c', 't']
    | 10 => ['\x5c', 'n']
    | 13 => ['\x5c', 'r']
    | n =>
      if n < 0x20 || n == 0x7f then
        ['\x5c', 'u', '{'] ++ (if n < 16 then [] else [hexDigit (n / 16)]) ++ [hexDigit (n % 16), '}']
      else [c]

/-- A text in quotes, as a message shows it. -/
def quoted (s : String) : String :=
  String.ofList ('\x22' :: s.toList.flatMap quotedChar ++ ['\x22'])

/-- What a value is, in a message. -/
def described : Json → String
  | null => "null"
  | bool b => "boolean `" ++ (if b then "true" else "false") ++ "`"
  | number (.integer i) => "integer `" ++ numberText (.integer i) ++ "`"
  | number (.double d) => "floating point `" ++ numberText (.double d) ++ "`"
  | string s => "string " ++ quoted s
  | array _ => "sequence"
  | object _ => "map"

end Json

/-- A name in backticks. -/
def ticked (name : String) : String := "`" ++ name ++ "`"

/-- The wording of a fault. -/
def RecordFault.message : RecordFault → String
  | invalidType found wanted => "invalid type: " ++ found.described ++ ", expected " ++ wanted
  | unknownField name declared =>
    "unknown field " ++ ticked name ++ ", expected one of " ++
      ", ".intercalate (declared.map ticked)
  | missingField name => "missing field " ++ ticked name
  | tooFewItems count wanted declared =>
    "invalid length " ++ Nat.repr count ++ ", expected " ++ wanted ++ " with " ++
      Nat.repr declared ++ " elements"
  | tooManyItems count =>
    "invalid length " ++ Nat.repr count ++ ", expected fewer elements in array"
  | noVariant wanted => "data did not match any variant of " ++ wanted

namespace Json

/-- The text that a value has to be. -/
def text? : Json → Except RecordFault String
  | string s => .ok s
  | v => .error (.invalidType v "a string")

/-- The truth value that a value has to be. -/
def flag? : Json → Except RecordFault Bool
  | bool b => .ok b
  | v => .error (.invalidType v "a boolean")

end Json

/-- A field of a record of type `σ`. -/
structure RecordField (σ : Type) where
  name : String
  required : Bool
  /-- Puts a value into the field. -/
  put : σ → Json → Except RecordFault σ

namespace RecordField

variable {σ : Type}

/-- A field that holds a text. -/
def text (name : String) (required : Bool) (set : σ → String → σ) : RecordField σ where
  name := name
  required := required
  put r v := v.text?.map (set r)

/-- A field that holds a truth value. -/
def flag (name : String) (required : Bool) (set : σ → Bool → σ) : RecordField σ where
  name := name
  required := required
  put r v := v.flag?.map (set r)

end RecordField

/-- How a structure of type `σ` is read. -/
structure Record (σ : Type) where
  /-- What the record is called in a message. -/
  name : String
  fields : List (RecordField σ)
  /-- The structure before any field is put in. -/
  blank : σ

namespace Record

variable {σ : Type}

/-- The names of the declared fields. -/
def names (r : Record σ) : List String := r.fields.map RecordField.name

/-- Puts the fields of an object into a structure, in the order of the object. -/
def putFields (r : Record σ) (s : σ) : List (String × Json) → Except RecordFault σ
  | [] => .ok s
  | (k, v) :: rest =>
    match r.fields.find? fun f => f.name == k with
    | none => .error (.unknownField k r.names)
    | some f => do putFields r (← f.put s v) rest

/-- Puts items into the declared fields, in the order of their declaration; `count` items came
before. Fields that are not required may be left out at the end. -/
def putItems (r : Record σ) (s : σ) (count : Nat) :
    List (RecordField σ) → List Json → Except RecordFault σ
  | [], [] => .ok s
  | [], rest => .error (.tooManyItems (count + rest.length))
  | f :: fs, [] =>
    if f.required then .error (.tooFewItems count r.name r.fields.length)
    else putItems r s count fs []
  | f :: fs, v :: vs => do putItems r (← f.put s v) (count + 1) fs vs

/-- Reads a structure. -/
def read (r : Record σ) : Json → Except RecordFault σ
  | .object entries => do
    let s ← r.putFields r.blank entries
    match r.fields.find? fun f => f.required && (lookupKey f.name entries).isNone with
    | some f => .error (.missingField f.name)
    | none => .ok s
  | .array items => r.putItems r.blank 0 r.fields items
  | v => .error (.invalidType v r.name)

end Record

end ServerBoundary
