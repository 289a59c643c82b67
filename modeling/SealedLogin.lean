import SealedLogin.Main
import SealedLogin.Proofs.Envelope.Tampering
import SealedLogin.Proofs.Http.Opacity
import SealedLogin.Proofs.Login.Agreement
import SealedLogin.Proofs.Login.Atomicity
import SealedLogin.Proofs.Login.Organizations
import SealedLogin.Record.Tree
import SealedLogin.Proofs.Coding.Canonical
import SealedLogin.Proofs.Coding.Trees
import SealedLogin.Proofs.JsonText.Strings
import SealedLogin.Proofs.JsonText.Values
import SealedLogin.Proofs.JsonText.Objects
import SealedLogin.Proofs.Login.Parameters
import SealedLogin.Proofs.Entropy.Plans
import SealedLogin.Proofs.Login.Draws
import SealedLogin.Proofs.Login.OneStream
import SealedLogin.Proofs.Cipher.Ciphertexts
import SealedLogin.Proofs.Envelope.Freshness
import SealedLogin.Proofs.Time.Reading
import SealedLogin.Proofs.DataBlock.Timestamps
import SealedLogin.Proofs.DataBlock.Edits
import SealedLogin.Proofs.Coding.Streams
import SealedLogin.Proofs.Login.Attempts
import SealedLogin.Proofs.Password.Rejections
import SealedLogin.Proofs.Options.Settings
import SealedLogin.Proofs.Store.Overtaking
