/-!
# Media types

The media type of a request's body: a type, a subtype that may end in a suffix, and parameters. Only
the form of the parameters counts. `MediaType.isJson` is what the endpoints ask for.
-/

namespace SealedLogin.Http

/-- A media type without its parameters. -/
structure MediaType where
  type : String
  subtype : String
  /-- What stands after the last plus sign. -/
  suffix : Option String
deriving DecidableEq, Repr

namespace MediaType

/-- The marks that may stand in a name besides letters and digits. -/
def tokenMarks : List Char :=
  ['!', '#', '$', '%', '&', '\x27', '*', '+', '-', '.', '^', '_', '\x60', '|', '~']

/-- Whether a character may stand in a name or in a value without quotes. -/
def isTokenChar (c : Char) : Bool := c.isAlphanum || tokenMarks.contains c

/-- Whether a character may stand in a value between quotes. -/
def isQuotable (c : Char) : Bool := ' ' ≤ c && c != '\x7f'

/-! ### Parameters -/

/-- Where a reader of parameters is. -/
inductive ParameterState where
  /-- Before a name, where blanks may stand. -/
  | beforeName
  | inName
  | beforeValue
  | inValue
  /-- Behind an opening quote; the next character belongs to the value even if it is a quote. -/
  | quoteOpened
  | inQuotes
  /-- Behind a closing quote, where blanks may stand. -/
  | quoteClosed
deriving DecidableEq, Repr

/-- Where the reader is after one more character, unless that may not stand there. -/
def ParameterState.step (state : ParameterState) (c : Char) : Option ParameterState :=
  match state with
  | .beforeName =>
      if c = ' ' then some .beforeName else if isTokenChar c then some .inName else none
  | .inName => if c = '=' then some .beforeValue else if isTokenChar c then some .inName else none
  | .beforeValue =>
      if c = '\x22' then some .quoteOpened else if isTokenChar c then some .inValue else none
  | .inValue => if c = ';' then some .beforeName else if isTokenChar c then some .inValue else none
  | .quoteOpened => if isQuotable c then some .inQuotes else none
  | .inQuotes =>
      if c = '\x22' then some .quoteClosed else if isQuotable c then some .inQuotes else none
  | .quoteClosed =>
      if c = ';' then some .beforeName else if c = ' ' then some .quoteClosed else none

/-- Whether the parameters may end there. -/
def ParameterState.isFinal : ParameterState → Bool
  | .beforeName | .beforeValue | .inValue | .quoteClosed => true
  | .inName | .quoteOpened | .inQuotes => false

/-- Whether what follows the first semicolon has the form of parameters. -/
def areParameters (s : List Char) : Bool :=
  match s.foldlM ParameterState.step .beforeName with
  | some state => state.isFinal
  | none => false

/-! ### Types -/

/-- Cuts a subtype at its last plus sign; one at its very beginning cuts nothing. -/
def splitSuffix (s : List Char) : List Char × Option (List Char) :=
  let suffix := (s.reverse.takeWhile (· != '+')).reverse
  let subtype := s.take (s.length - suffix.length - 1)
  if subtype.isEmpty then (s, none) else (subtype, some suffix)

/-- The media type that a text spells, in lower case. -/
def parse? (text : String) : Option MediaType :=
  let (type, rest) := text.toList.span isTokenChar
  match type, rest with
  | _ :: _, '/' :: rest =>
      let (name, rest) := rest.span isTokenChar
      let (subtype, suffix) := splitSuffix name
      let lower (s : List Char) : String := String.ofList (s.map Char.toLower)
      let found : MediaType := ⟨lower type, lower subtype, suffix.map lower⟩
      match name, rest with
      | _, [] => some found
      | _ :: _, ';' :: rest => if areParameters rest then some found else none
      | _, _ => none
  | _, _ => none

/-- Whether bodies of this type hold JSON text. -/
def isJson (m : MediaType) : Bool :=
  m.type == "application" && (m.subtype == "json" || m.suffix == some "json")

end MediaType

end SealedLogin.Http
