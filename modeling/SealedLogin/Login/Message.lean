import SealedLogin.JsonText.Fields

/-!
# Messages

The four messages of a login as JSON objects with short names. Every field may be left out and is
empty then, so that a missing field is noticed by the step that needs it. `ofJson` reads a message
and `toJson` writes it.
-/

namespace SealedLogin

open JsonText

/-- A field of text that may be left out. -/
def Message.textField (name : String) : Field := ⟨name, .text, false⟩

/-- The client's public keys in hexadecimal, `a0` for signatures, the others for key exchange. -/
structure PreKeyRequest where
  a0 : String
  a1 : String
  a2 : String
deriving DecidableEq, Repr, Inhabited

/-- The index of a pre-key, the server's public keys `b0` to `b2`, and the seconds the index is good
for. -/
structure PreKeyResponse where
  i : String
  b0 : String
  b1 : String
  b2 : String
  d1 : Nat
deriving DecidableEq, Repr, Inhabited

/-- The index of a pre-key and the envelope with the credentials. -/
structure LoginRequest where
  i : String
  d : String
deriving DecidableEq, Repr, Inhabited

/-- The envelope with the session token. -/
structure LoginResponse where
  d : String
deriving DecidableEq, Repr, Inhabited

namespace PreKeyRequest

/-- What a request holds, in order. -/
def shape : Shape := ["a0", "a1", "a2"].map Message.textField

/-- The fields of a request. -/
def fields (m : PreKeyRequest) : Fields :=
  [("a0", .text m.a0), ("a1", .text m.a1), ("a2", .text m.a2)]

/-- The message with the given fields; those that are missing are empty. -/
def ofFields (fs : Fields) : PreKeyRequest := ⟨fs.text "a0", fs.text "a1", fs.text "a2"⟩

/-- Reads a request. -/
def ofJson (text : String) : Except Fault PreKeyRequest := (read shape text).map ofFields

/-- Writes a request. -/
def toJson (m : PreKeyRequest) : String := print m.fields

end PreKeyRequest

namespace PreKeyResponse

/-- What a response holds, in order. -/
def shape : Shape := ["i", "b0", "b1", "b2"].map Message.textField ++ [⟨"d1", .count, false⟩]

/-- The fields of a response. -/
def fields (m : PreKeyResponse) : Fields :=
  [("i", .text m.i), ("b0", .text m.b0), ("b1", .text m.b1),
    ("b2", .text m.b2), ("d1", .count m.d1)]

/-- The message with the given fields; those that are missing are empty. -/
def ofFields (fs : Fields) : PreKeyResponse :=
  ⟨fs.text "i", fs.text "b0", fs.text "b1", fs.text "b2", fs.count "d1"⟩

/-- Reads a response. -/
def ofJson (text : String) : Except Fault PreKeyResponse := (read shape text).map ofFields

/-- Writes a response. -/
def toJson (m : PreKeyResponse) : String := print m.fields

end PreKeyResponse

namespace LoginRequest

/-- What a login holds, in order. -/
def shape : Shape := ["i", "d"].map Message.textField

/-- The fields of a login. -/
def fields (m : LoginRequest) : Fields := [("i", .text m.i), ("d", .text m.d)]

/-- The message with the given fields; those that are missing are empty. -/
def ofFields (fs : Fields) : LoginRequest := ⟨fs.text "i", fs.text "d"⟩

/-- Reads a login. -/
def ofJson (text : String) : Except Fault LoginRequest := (read shape text).map ofFields

/-- Writes a login. -/
def toJson (m : LoginRequest) : String := print m.fields

end LoginRequest

namespace LoginResponse

/-- What an answer holds, in order. -/
def shape : Shape := [Message.textField "d"]

/-- The fields of an answer. -/
def fields (m : LoginResponse) : Fields := [("d", .text m.d)]

/-- The message with the given fields; those that are missing are empty. -/
def ofFields (fs : Fields) : LoginResponse := ⟨fs.text "d"⟩

/-- Reads an answer. -/
def ofJson (text : String) : Except Fault LoginResponse := (read shape text).map ofFields

/-- Writes an answer. -/
def toJson (m : LoginResponse) : String := print m.fields

end LoginResponse

end SealedLogin
