import SealedLogin.JsonText.Scan

/-!
# Records of fields in JSON text

A shape lists the fields of a record with what each holds. `read` takes a record in either of its
two forms, an object with the fields in any order among members of other names, or an array of the
values in the order of the shape; `readList` takes an array of such records. `print` writes a record
as an object.
-/

namespace SealedLogin.JsonText

/-- What a field holds. -/
inductive Kind where
  | text
  /-- Text, or `null` for none. -/
  | optionalText
  /-- An integer below `2 ^ 64`. -/
  | count
deriving DecidableEq, Repr

/-- A field of a record. -/
structure Field where
  name : String
  kind : Kind
  /-- Whether the field must be there. -/
  required : Bool
deriving DecidableEq, Repr

/-- The fields of a kind of record, in order. -/
abbrev Shape := List Field

/-- The value of a field. -/
inductive Value where
  | text (s : String)
  | count (n : Nat)
  | null
deriving DecidableEq, Repr

/-- The values of some fields, by their names. -/
abbrev Fields := List (String × Value)

namespace Fields

/-- The text of a field; empty if it is not there. -/
def text (fs : Fields) (name : String) : String :=
  match fs.lookup name with
  | some (.text s) => s
  | _ => ""

/-- The text of a field that may be absent. -/
def optionalText (fs : Fields) (name : String) : Option String :=
  match fs.lookup name with
  | some (.text s) => some s
  | _ => none

/-- The integer of a field; zero if it is not there. -/
def count (fs : Fields) (name : String) : Nat :=
  match fs.lookup name with
  | some (.count n) => n
  | _ => 0

def has (fs : Fields) (name : String) : Bool := (fs.lookup name).isSome

end Fields

/-! ### Reading -/

/-- A string, or the fault of what is there instead. -/
def readText (s : List Char) : Except Fault (Value × List Char) :=
  match dropBlank s with
  | '\x22' :: rest => do
      let (text, rest) ← readString rest
      .ok (.text text, rest)
  | s => .error (mismatchAt s)

/-- The value of a field of the given kind. -/
def readValue (kind : Kind) (s : List Char) : Except Fault (Value × List Char) :=
  match kind with
  | .text => readText s
  | .optionalText =>
      match dropBlank s with
      | 'n' :: rest => do
          let rest ← takeLiteral ['u', 'l', 'l'] rest
          .ok (.null, rest)
      | s => readText s
  | .count =>
      match dropBlank s with
      | [] => .error .endOfText
      | c :: rest =>
          if c = '-' || c.isDigit then do
            match ← readNumber (c :: rest) with
            | (.count n, rest) => .ok (.count n, rest)
            | (.other, _) => .error .mismatch
          else .error (mismatchAt (c :: rest))

/-- Whether all fields that must be there are. -/
def isComplete (shape : Shape) (seen : Fields) : Bool :=
  shape.all fun f => !f.required || seen.has f.name

/-- What stands between the key of a member and the next member: a colon and a value, which is kept
if the shape has the key. -/
def readMember (shape : Shape) (seen : Fields) (key : String) (s : List Char) :
    Except Fault (Fields × List Char) :=
  match shape.find? (·.name == key) with
  | none => do
      let rest ← skipValue (← takeColon s)
      .ok (seen, rest)
  | some f =>
      if seen.has key then .error .mismatch
      else do
        let (value, rest) ← readValue f.kind (← takeColon s)
        .ok (seen ++ [(key, value)], rest)

/-- The members of an object up to its closing bracket; `first` says that none was read yet. -/
def readMembers : Nat → Bool → Shape → Fields → Scan Fields
  | 0, _, _, _, _ => .error .malformed
  | fuel + 1, first, shape, seen, s =>
      let member (s : List Char) : Except Fault (Fields × List Char) := do
        let (key, rest) ← readString s
        let (seen, rest) ← readMember shape seen key rest
        readMembers fuel false shape seen rest
      match dropBlank s with
      | [] => .error .endOfText
      | '\x7d' :: rest => if isComplete shape seen then .ok (seen, rest) else .error .mismatch
      | '\x22' :: rest => if first then member rest else .error .malformed
      | ',' :: rest =>
          if first then .error .malformed
          else
            match dropBlank rest with
            | [] => .error .endOfText
            | '\x22' :: rest => member rest
            | _ => .error .malformed
      | _ => .error .malformed

/-- The items of an array up to its closing bracket, as the values of the fields of the shape. -/
def readItems (first : Bool) (shape : Shape) (seen : Fields) (s : List Char) :
    Except Fault (Fields × List Char) :=
  match shape with
  | [] =>
      match dropBlank s with
      | [] => .error .endOfText
      | ']' :: rest => .ok (seen, rest)
      | _ => .error .malformed
  | f :: shape =>
      let item (s : List Char) : Except Fault (Fields × List Char) := do
        let (value, rest) ← readValue f.kind s
        readItems false shape (seen ++ [(f.name, value)]) rest
      match dropBlank s with
      | [] => .error .endOfText
      | ']' :: rest => if isComplete (f :: shape) seen then .ok (seen, rest) else .error .mismatch
      | c :: rest =>
          if first then item (c :: rest)
          else if c != ',' then .error .malformed
          else
            match dropBlank rest with
            | [] => .error .endOfText
            | ']' :: _ => .error .malformed
            | rest => item rest

/-- A record in either form. -/
def readRecord (shape : Shape) (s : List Char) : Except Fault (Fields × List Char) :=
  match dropBlank s with
  | [] => .error .endOfText
  | '[' :: rest => readItems true shape [] rest
  | '\x7b' :: rest => readMembers (rest.length + 1) true shape [] rest
  | s => .error (mismatchAt s)

/-- The records of an array up to its closing bracket, after those in `acc`, which come last one
first. -/
def readRecords : Nat → Bool → Shape → List Fields → Scan (List Fields)
  | 0, _, _, _, _ => .error .malformed
  | fuel + 1, first, shape, acc, s =>
      let record (s : List Char) : Except Fault (List Fields × List Char) := do
        let (fields, rest) ← readRecord shape s
        readRecords fuel false shape (fields :: acc) rest
      match dropBlank s with
      | [] => .error .endOfText
      | ']' :: rest => .ok (acc.reverse, rest)
      | c :: rest =>
          if first then record (c :: rest)
          else if c != ',' then .error .malformed
          else
            match dropBlank rest with
            | [] => .error .endOfText
            | ']' :: _ => .error .malformed
            | rest => record rest

/-- Demands that nothing but blanks follows. -/
def atEnd {α : Type} (result : Except Fault (α × List Char)) : Except Fault α := do
  let (a, rest) ← result
  if (dropBlank rest).isEmpty then .ok a else .error .malformed

/-- The record that a text holds. -/
def read (shape : Shape) (text : String) : Except Fault Fields :=
  atEnd (readRecord shape text.toList)

/-- The array of records that a text holds. -/
def readList (shape : Shape) (text : String) : Except Fault (List Fields) :=
  atEnd (match dropBlank text.toList with
    | [] => .error .endOfText
    | '[' :: rest => readRecords (rest.length + 1) true shape [] rest
    | s => .error (mismatchAt s))

/-! ### Writing -/

/-- A character inside a string: quotes, backslashes and controls are escaped. -/
def escapeChar (c : Char) : List Char :=
  match c with
  | '\x22' => ['\\', '\x22']
  | '\\' => ['\\', '\\']
  | '\x08' => ['\\', 'b']
  | '\x0c' => ['\\', 'f']
  | '\n' => ['\\', 'n']
  | '\r' => ['\\', 'r']
  | '\t' => ['\\', 't']
  | c =>
      if c < ' ' then
        ['\\', 'u', '0', '0', Nat.digitChar (c.toNat / 16), Nat.digitChar (c.toNat % 16)]
      else [c]

/-- A string between quotes. -/
def printString (s : String) : List Char := '\x22' :: s.toList.flatMap escapeChar ++ ['\x22']

/-- A value. -/
def printValue : Value → List Char
  | .text s => printString s
  | .count n => Nat.toDigits 10 n
  | .null => ['n', 'u', 'l', 'l']

/-- The members of an object, separated by commas. -/
def printMembers : Fields → List Char
  | [] => []
  | [(name, value)] => printString name ++ ':' :: printValue value
  | (name, value) :: fs => printString name ++ ':' :: printValue value ++ ',' :: printMembers fs

/-- The object that has the given fields. -/
def print (fs : Fields) : String := String.ofList ('\x7b' :: printMembers fs ++ ['\x7d'])

end SealedLogin.JsonText
