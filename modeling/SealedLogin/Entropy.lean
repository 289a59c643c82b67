import SealedLogin.Bytes

/-!
# Entropy

Random bytes come from one stream and are drawn from its front. A draw gets all the bytes it asks
for or fails and takes none (`draw`); a computation that draws, `Drawing`, keeps what is left of the
stream whether it succeeds or not.
-/

namespace SealedLogin

/-- The random bytes that are still to be drawn, the next one first. -/
abbrev Entropy := Bytes

/-- A computation that may draw random bytes and may fail; what was drawn before a failure stays
drawn. -/
abbrev Drawing (ε α : Type) := ExceptT ε (StateM Entropy) α

namespace Entropy

/-- Why no random bytes were to be had. -/
inductive Fault where
  /-- Fewer bytes were left than were asked for. -/
  | exhausted
  /-- The reason given by another source. -/
  | described (reason : String)
deriving DecidableEq, Repr

def Fault.message : Fault → String
  | .exhausted => "entropy exhausted"
  | .described reason => reason

/-- The first `n` bytes of the stream, which leave it, or a fault that takes nothing. -/
def draw (n : Nat) : Drawing Fault Bytes := fun left =>
  if n ≤ left.length then (.ok (left.take n), left.drop n) else (.error .exhausted, left)

end Entropy

end SealedLogin
