import SealedLogin.Login.Server
import SealedLogin.Net.SocketAddress

/-!
# Command line options

Each option is a flag followed by its value, whatever the value looks like; of a repeated option the
last value counts, and anything else is skipped. Lengths of time are checked where they stand, the
address only at the end. `Options.parse` reads the arguments of the command line.
-/

namespace SealedLogin

/-- What the command line settles. -/
structure Options where
  /-- Where to listen. -/
  bind : SocketAddress
  /-- The path of the credential file. -/
  users : Option String
  lifetimes : Lifetimes
deriving DecidableEq, Repr

/-- The options. -/
inductive Flag where
  | bind
  | users
  | preKeyTtl
  | sessionTtl
  | envelopeTtl
deriving DecidableEq, Repr

namespace Flag

/-- Every option. -/
def all : List Flag := [.bind, .users, .preKeyTtl, .sessionTtl, .envelopeTtl]

/-- How an option is spelled. -/
def text : Flag → String
  | .bind => "--bind"
  | .users => "--users"
  | .preKeyTtl => "--prekey-ttl-secs"
  | .sessionTtl => "--session-ttl-secs"
  | .envelopeTtl => "--envelope-ttl-secs"

/-- The option of a spelling. -/
def ofText? (text : String) : Option Flag := all.find? (·.text == text)

end Flag

namespace Options

/-- What is wrong with a command line. -/
inductive Fault where
  | missingValue (flag : Flag)
  | notSeconds (flag : Flag) (value : String) (fault : Text.CountFault)
  | zeroSeconds (flag : Flag)
  | badAddress (value : String)
deriving DecidableEq, Repr

def Fault.message : Fault → String
  | .missingValue flag => flag.text ++ " requires a value"
  | .notSeconds flag value fault =>
      flag.text ++ " expects whole seconds, got " ++ Text.quote value ++ ": " ++ fault.message
  | .zeroSeconds flag => flag.text ++ " must be greater than zero"
  | .badAddress value =>
      "invalid " ++ Flag.bind.text ++ " address " ++ Text.quote value
        ++ ": invalid socket address syntax"

/-- Options whose address has not been read yet. -/
structure Draft where
  bind : String
  users : Option String
  lifetimes : Lifetimes
deriving DecidableEq, Repr

/-- What holds for the options that are not given. -/
def Draft.standard : Draft := ⟨"127.0.0.1:15000", none, .standard⟩

/-- A length of time of at least one second. -/
def seconds (flag : Flag) (value : String) : Except Fault Duration :=
  match Text.readCount (Nat.pow 2 64) value with
  | .error fault => .error (.notSeconds flag value fault)
  | .ok 0 => .error (.zeroSeconds flag)
  | .ok n => .ok (Duration.ofSeconds n)

/-- The draft with the value of one option. -/
def Draft.set (d : Draft) (flag : Flag) (value : String) : Except Fault Draft :=
  let { lifetimes, .. } := d
  match flag with
  | .bind => .ok { d with bind := value }
  | .users => .ok { d with users := some value }
  | .preKeyTtl => do .ok { d with lifetimes := { lifetimes with preKey := ← seconds flag value } }
  | .sessionTtl => do .ok { d with lifetimes := { lifetimes with session := ← seconds flag value } }
  | .envelopeTtl => do
      .ok { d with lifetimes := { lifetimes with envelope := ← seconds flag value } }

/-- The draft with the values of all options among some arguments. -/
def Draft.setAll (d : Draft) : List String → Except Fault Draft
  | [] => .ok d
  | arg :: rest =>
      match Flag.ofText? arg, rest with
      | none, rest => d.setAll rest
      | some flag, [] => .error (.missingValue flag)
      | some flag, value :: rest => do (← d.set flag value).setAll rest

/-- The options of a draft. -/
def Draft.finish (d : Draft) : Except Fault Options :=
  match SocketAddress.ofText? d.bind with
  | some bind => .ok ⟨bind, d.users, d.lifetimes⟩
  | none => .error (.badAddress d.bind)

/-- The options that the arguments of a command line give. -/
def parse (args : List String) : Except Fault Options := do (← Draft.standard.setAll args).finish

end Options

end SealedLogin
