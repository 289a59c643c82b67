import SealedLogin.Keys.Error
import SealedLogin.Record
import SealedLogin.Text.Quoted
import SealedLogin.Time.Stamp

/-!
# Failures of the protocol

`ProtocolError` is the failure of any step of a login, with a stable code, a wording, and whether it
was caused by what the peer sent (`isAuthenticationFailure`).
-/

namespace SealedLogin

/-- Why something received was not understood. -/
inductive DecodeFault where
  | record (fault : Record.Fault)
  | key (fault : KeyFault)
  | decryption (fault : Chain.Fault)
  /-- A data block has `found` fields instead of five. -/
  | fieldCount (found : Nat)
  /-- The time of a data block is no time stamp. -/
  | time (text : String) (fault : Stamp.Fault)
  /-- A login reply carries `found` payloads instead of one. -/
  | replyCount (found : Nat)
  /-- The reason given by another reader. -/
  | described (reason : String)
deriving DecidableEq, Repr

def DecodeFault.message : DecodeFault → String
  | .record fault => fault.message
  | .key fault => fault.message
  | .decryption fault => (CryptoError.decryption fault).message
  | .fieldCount found => s!"data block must have 5 fields, got {found}"
  | .time text fault => "invalid data block time " ++ Text.quote text ++ ": " ++ fault.message
  | .replyCount found => s!"login reply must carry exactly one payload, got {found}"
  | .described reason => reason

/-- Why something could not be put in the form in which it is sent. -/
inductive EncodeFault where
  | oversize (record : Record.Oversize)
  /-- The reason given by another writer. -/
  | described (reason : String)
deriving DecidableEq, Repr

def EncodeFault.message : EncodeFault → String
  | .oversize record => record.message
  | .described reason => reason

/-- Why a cryptographic operation failed. -/
inductive CryptoFault where
  | failed (error : CryptoError)
  /-- The reason given by another implementation. -/
  | described (reason : String)
deriving DecidableEq, Repr

def CryptoFault.message : CryptoFault → String
  | .failed error => error.message
  | .described reason => reason

/-- A failed step of the protocol. -/
inductive ProtocolError where
  | decode (fault : DecodeFault)
  | encode (fault : EncodeFault)
  /-- An envelope has `parts` parts instead of two. -/
  | invalidData (parts : Nat)
  | invalidSignature
  | timeExpired
  | invalidPreKey
  | invalidDataHash
  | missingParameter (name : String)
  | preKeyNotFound
  | invalidCredential
  | sessionNotFound
  | randomUnavailable (fault : Entropy.Fault)
  | crypto (fault : CryptoFault)
  | store (reason : String)
deriving DecidableEq, Repr

namespace ProtocolError

/-- The stable name of a failure. -/
def code : ProtocolError → String
  | .decode _ => "DECODE_ERROR"
  | .encode _ => "ENCODE_ERROR"
  | .invalidData _ => "INVALID_DATA"
  | .invalidSignature => "INVALID_SIGNATURE"
  | .timeExpired => "TIME_EXPIRED"
  | .invalidPreKey => "INVALID_PREKEY"
  | .invalidDataHash => "INVALID_DATA_HASH"
  | .missingParameter _ => "MISSING_PARAMETER"
  | .preKeyNotFound => "PREKEY_NOT_FOUND"
  | .invalidCredential => "INVALID_CREDENTIAL"
  | .sessionNotFound => "SESSION_NOT_FOUND"
  | .randomUnavailable _ => "RANDOM_UNAVAILABLE"
  | .crypto _ => "CRYPTO_ERROR"
  | .store _ => "STORE_ERROR"

/-- The wording of a failure. -/
def message : ProtocolError → String
  | .decode fault => "decode error: " ++ fault.message
  | .encode fault => "encode error: " ++ fault.message
  | .invalidData parts => s!"envelope does not contain exactly two parts (got {parts})"
  | .invalidSignature => "envelope signature is invalid"
  | .timeExpired => "data block timestamp is outside the freshness window"
  | .invalidPreKey => "data block is bound to a different pre-key index"
  | .invalidDataHash => "data block hash does not match its data"
  | .missingParameter name => "missing parameter: " ++ name
  | .preKeyNotFound => "pre-key index not found or expired"
  | .invalidCredential => "invalid credential"
  | .sessionNotFound => "session not found or expired"
  | .randomUnavailable fault => "secure random source unavailable: " ++ fault.message
  | .crypto fault => "crypto error: " ++ fault.message
  | .store reason => "store error: " ++ reason

/-- Whether the peer caused the failure by what it sent; not so for a parameter it left out. -/
def isAuthenticationFailure : ProtocolError → Bool
  | .encode _ | .randomUnavailable _ | .store _ | .missingParameter _ => false
  | _ => true

/-- A failed cryptographic operation as a failure of the protocol. -/
def ofCrypto : CryptoError → ProtocolError
  | .randomUnavailable fault => .randomUnavailable fault
  | .invalidKey fault => .decode (.key fault)
  | error => .crypto (.failed error)

/-- What was read from a record, or the failure to understand it. -/
def ofRead {α : Type} : Except Record.Fault α → Except ProtocolError α
  | .ok a => .ok a
  | .error fault => .error (.decode (.record fault))

/-- What was written to a record, or the failure to write it. -/
def ofWrite {α : Type} : Except Record.Oversize α → Except ProtocolError α
  | .ok a => .ok a
  | .error record => .error (.encode (.oversize record))

/-- A public key that was read, or the failure to understand it. -/
def ofKey {α : Type} : Except KeyFault α → Except ProtocolError α
  | .ok a => .ok a
  | .error fault => .error (.decode (.key fault))

end ProtocolError

/-- Demands that a parameter is not empty. -/
def requireParameter (value name : String) : Except ProtocolError String :=
  if value.isEmpty then .error (.missingParameter name) else .ok value

end SealedLogin
