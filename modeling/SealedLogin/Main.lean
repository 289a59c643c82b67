import SealedLogin.Options
import SealedLogin.Password.CredentialFile

/-!
# The command line

Reads the options and the credential file and reports what a server with them would do. Requests are
answered by `Http.route`, wherever they come from.
-/

namespace SealedLogin.CommandLine

/-- The users who may log in; none if no file is given. -/
def loadUsers : Option String → IO (Except String CredentialFile)
  | none => return .ok .empty
  | some path => do
      match ← (IO.FS.readBinFile path).toBaseIO with
      | .error _ => return .error ("failed to read credential file " ++ path)
      | .ok content =>
          match CredentialFile.load content.toList with
          | .ok file => return .ok file
          | .error fault =>
              return .error ("invalid credential file " ++ path ++ ": " ++ fault.message)

/-- What is reported about the users. -/
def usersLine (file : CredentialFile) : String :=
  if file.size = 0 then "no users configured, every login will be rejected"
  else "users: " ++ toString file.size

/-- What is reported about the options. -/
def optionLines (o : Options) : List String :=
  ["bind: " ++ o.bind.toText,
    "pre-key lifetime: " ++ toString o.lifetimes.preKey.seconds ++ " s",
    "session lifetime: " ++ toString o.lifetimes.session.seconds ++ " s",
    "envelope window: " ++ toString o.lifetimes.envelope.seconds ++ " s"]

/-- Reports a failure. -/
def fail (reason : String) : IO UInt32 := do
  IO.eprintln ("Error: " ++ reason)
  return 1

/-- The whole command. -/
def run (args : List String) : IO UInt32 := do
  match Options.parse args with
  | .error fault => fail fault.message
  | .ok options =>
      match ← loadUsers options.users with
      | .error reason => fail reason
      | .ok file =>
          (usersLine file :: optionLines options).forM IO.println
          return 0

end SealedLogin.CommandLine

def main (args : List String) : IO UInt32 := SealedLogin.CommandLine.run args
