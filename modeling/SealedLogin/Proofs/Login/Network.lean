import Mathlib.Logic.Function.Basic
import Mathlib.Logic.Relation
import SealedLogin.Proofs.Envelope.Sealing
import SealedLogin.Proofs.Login.Calls

/-!
# Clients, one server, and a hostile network

A network is any number of clients and one server, with what has been issued and which logins have
succeeded so far. In a step of it (`Network.Step`) a client or the server receives any message at
all: the one sent to it, one that was sent before or to somebody else, or an invented one. Two
things are taken for granted. Fresh signing keys and indices are new. A message that verifies under
the key of a client or of an issue was signed by its owner (`Network.Unforged`).

A network only ever grows (`Network.Grows`), apart from what the server keeps.
-/

namespace SealedLogin

namespace Network

/-- What a client has made of a response. -/
structure Agreement where
  response : PreKeyResponse
  derived : KeysDerived
  /-- The server had given this response by then. -/
  delivered : Prop

/-- The credentials that a client has sealed, and how. -/
structure Sealing where
  now : Instant
  credentials : Credentials
  entropy : Entropy
  waiting : LoginSent
  request : LoginRequest

/-- A client, with what it has come to so far. -/
structure Client where
  sent : PreKeySent
  agreement : Option Agreement
  sealing : Option Sealing
  session : Option EstablishedSession

/-- A pre-key that the server has issued. -/
structure Issue where
  request : PreKeyRequest
  material : SessionKeyMaterial
  response : PreKeyResponse
  /-- A client had sent this request by then. -/
  delivered : Prop

/-- A login that has succeeded, with what the server kept when it came. -/
structure Login where
  state : ServerState
  now : Moment
  request : LoginRequest
  entropy : Entropy

end Network

/-- The clients by number, the state of the server, and its history, latest first. -/
structure Network where
  server : ServerState
  clients : Nat → Option Network.Client
  issues : List Network.Issue
  logins : List Network.Login

namespace Network

/-- Nobody has done anything. -/
def initial : Network := ⟨.empty, fun _ => none, [], []⟩

/-! ### Keys and signatures -/

/-- The public key of a client. -/
def Client.key (x : Client) : VerifyingKey := x.sent.material.signing.publicKey

/-- The client has signed the ciphertext. -/
def Client.Signs (x : Client) (m : Bytes) : Prop :=
  ∃ a z, x.agreement = some a ∧ x.sealing = some z
    ∧ Envelope.ciphertext z.now a.derived.index a.derived.keys.clientToServer z.credentials.payloads
      z.entropy = .ok m

/-- The public key of the server for a pre-key. -/
def Issue.key (i : Issue) : VerifyingKey := i.material.signing.publicKey

def Issue.index (i : Issue) : String := i.response.i

/-- The record that the server keeps for a pre-key. -/
def Issue.Keeps (i : Issue) (record : PreKeyRecord) : Prop :=
  ∃ client keys, i.request.keys = .ok client
    ∧ i.material.derive client.exchange1 client.exchange2 = .ok keys
    ∧ record = LoginServer.recordFor i.index client i.material keys

namespace Login

def index (l : Login) : String := l.request.i

/-- The token that the login draws. -/
def token (l : Login) : String := LoginServer.freshToken l.entropy

/-- The record that the login takes. -/
def record? (l : Login) : Option PreKeyRecord := l.state.preKeys.live? l.request.i l.now.tick

/-- The call succeeds: it gives the response and leaves the state. -/
def Succeeds (server : LoginServer) (l : Login) (response : LoginResponse) (after : ServerState) :
    Prop :=
  ∃ rest, server.login l.now l.request l.state l.entropy = ((.ok response, after), rest)

/-- The authenticator is asked about the attempt. -/
def Asks (server : LoginServer) (l : Login) (attempt : LoginAttempt) : Prop :=
  ∃ record payloads, l.record? = some record
    ∧ Envelope.unpack l.now.wall record.index record.clientSigningKey record.keys.clientToServer
      server.lifetimes.envelope l.request.d = .ok payloads
    ∧ LoginAttempt.ofPayloads payloads = .ok attempt

/-- The ciphertext of the answer is signed, with the key. -/
def SignsWith (l : Login) (key : VerifyingKey) (m : Bytes) : Prop :=
  ∃ record, l.record? = some record ∧ record.serverSigning.publicKey = key
    ∧ Envelope.ciphertext l.now.wall record.index record.keys.serverToClient
      [Record.ofString l.token] (l.entropy.drop LoginServer.tokenLength) = .ok m

end Login

/-- A client has sent the request. -/
def HasSent (n : Network) (request : PreKeyRequest) : Prop :=
  ∃ c x, n.clients c = some x ∧ x.sent.request = request

/-- The server has given the response. -/
def HasGiven (n : Network) (response : PreKeyResponse) : Prop :=
  ∃ i ∈ n.issues, i.response = response

/-- The key belongs to a client or to the server. -/
def IsHonest (n : Network) (key : VerifyingKey) : Prop :=
  (∃ c x, n.clients c = some x ∧ x.key = key) ∨ ∃ i ∈ n.issues, i.key = key

/-- The owner of the key has signed the ciphertext. -/
def SignedBy (n : Network) (key : VerifyingKey) (m : Bytes) : Prop :=
  (∃ c x, n.clients c = some x ∧ x.key = key ∧ x.Signs m) ∨ ∃ l ∈ n.logins, l.SignsWith key m

/-- What verifies in the text under an honest key was signed by the owner of the key. -/
def Unforged (n : Network) (text : String) : Prop :=
  ∀ key m, n.IsHonest key → Envelope.Verified key text m → n.SignedBy key m

/-! ### Steps -/

/-- The network with a client as it is now. -/
def put (n : Network) (c : Nat) (x : Client) : Network :=
  { n with clients := Function.update n.clients c (some x) }

/-- The call issues a pre-key or lets somebody log in. -/
def Grants (server : LoginServer) (s : ServerState) (c : ServerCall) : Prop :=
  match c.request with
  | .issue identifier request => ∃ response after rest,
      server.issuePreKey c.now.tick identifier request s c.entropy = ((.ok response, after), rest)
  | .login request => ∃ response after rest,
      server.login c.now request s c.entropy = ((.ok response, after), rest)
  | .logout _ | .resolve _ | .purge => False

/-- What may happen next. A step of a client that fails changes nothing here. -/
inductive Step (server : LoginServer) (n : Network) : Network → Prop where
  | start {c : Nat} {entropy rest : Entropy} {sent : PreKeySent} :
      n.clients c = none → PreKeySent.start entropy = (.ok sent, rest) →
      ¬n.IsHonest sent.material.signing.publicKey →
      Step server n (n.put c ⟨sent, none, none, none⟩)
  | derive {c : Nat} {x : Client} {response : PreKeyResponse} {derived : KeysDerived} :
      n.clients c = some x → x.agreement = none →
      x.sent.deriveKeys response = .ok derived →
      Step server n
        (n.put c { x with agreement := some ⟨response, derived, n.HasGiven response⟩ })
  | submit {c : Nat} {x : Client} {a : Agreement} {now : Instant} {credentials : Credentials}
      {entropy rest : Entropy} {waiting : LoginSent} {request : LoginRequest} :
      n.clients c = some x → x.agreement = some a → x.sealing = none →
      a.derived.login now credentials entropy = (.ok (waiting, request), rest) →
      Step server n
        (n.put c { x with sealing := some ⟨now, credentials, entropy, waiting, request⟩ })
  | finish {c : Nat} {x : Client} {z : Sealing} {now : Instant} {response : LoginResponse}
      {ttl : Duration} {session : EstablishedSession} :
      n.clients c = some x → x.sealing = some z → x.session = none → n.Unforged response.d →
      z.waiting.finish now response ttl = .ok session →
      Step server n (n.put c { x with session := some session })
  | issue {now : Tick} {identifier : String} {request : PreKeyRequest} {entropy rest : Entropy}
      {response : PreKeyResponse} {after : ServerState} :
      server.issuePreKey now identifier request n.server entropy = ((.ok response, after), rest) →
      ¬n.IsHonest (SessionKeyMaterial.ofEntropy entropy).signing.publicKey →
      (∀ i ∈ n.issues, i.index ≠ LoginServer.indexHead ++ identifier) →
      Step server n { n with
        server := after
        issues := ⟨request, .ofEntropy entropy, response, n.HasSent request⟩ :: n.issues }
  | login {now : Moment} {request : LoginRequest} {entropy rest : Entropy}
      {response : LoginResponse} {after : ServerState} :
      n.Unforged request.d →
      server.login now request n.server entropy = ((.ok response, after), rest) →
      Step server n { n with
        server := after
        logins := ⟨n.server, now, request, entropy⟩ :: n.logins }
  | other {c : ServerCall} : ¬Grants server n.server c →
      Step server n { n with server := server.after n.server c }

/-- The network can come about. -/
def Reachable (server : LoginServer) (n : Network) : Prop :=
  Relation.ReflTransGen (Step server) initial n

/-! ### Growth -/

/-- The client has gone on from where it was. -/
structure Client.Extends (x x' : Client) : Prop where
  sent : x'.sent = x.sent
  agreement : ∀ a, x.agreement = some a → x'.agreement = some a
  sealing : ∀ z, x.sealing = some z → x'.sealing = some z

/-- Everything that has happened in one network has happened in the other. -/
structure Grows (n n' : Network) : Prop where
  clients : ∀ c x, n.clients c = some x → ∃ x', n'.clients c = some x' ∧ x.Extends x'
  issues : ∀ i ∈ n.issues, i ∈ n'.issues
  logins : ∀ l ∈ n.logins, l ∈ n'.logins

theorem Client.Extends.refl (x : Client) : x.Extends x := ⟨rfl, fun _ h => h, fun _ h => h⟩

theorem Client.Extends.signs {x x' : Client} {m : Bytes} (h : x.Extends x') (hm : x.Signs m) :
    x'.Signs m := by
  obtain ⟨a, z, ha, hz, hm⟩ := hm
  exact ⟨a, z, h.agreement a ha, h.sealing z hz, hm⟩

theorem Client.Extends.key {x x' : Client} (h : x.Extends x') : x'.key = x.key := by
  rw [Client.key, Client.key, h.sent]

section

variable {n n' : Network} {c c' : Nat} {x x' : Client}

theorem not_clients_initial : initial.clients c ≠ some x := (Option.some_ne_none x).symm

theorem clients_put_self (n : Network) (c : Nat) (x : Client) : (n.put c x).clients c = some x :=
  Function.update_self ..

theorem clients_put_of_ne (h : c' ≠ c) : (n.put c x).clients c' = n.clients c' :=
  Function.update_of_ne h ..

/-- A client after one was put is that one, or another one as it was. -/
theorem clients_put_eq_some (h : (n.put c x).clients c' = some x') :
    c' = c ∧ x' = x ∨ c' ≠ c ∧ n.clients c' = some x' := by
  by_cases hc : c' = c
  · subst hc
    rw [clients_put_self] at h
    exact .inl ⟨rfl, (Option.some.inj h).symm⟩
  · rw [clients_put_of_ne hc] at h
    exact .inr ⟨hc, h⟩

theorem Grows.put (hx : ∀ y, n.clients c = some y → y.Extends x) : n.Grows (n.put c x) := by
  refine ⟨fun c' y hy => ?_, fun _ h => h, fun _ h => h⟩
  by_cases hc : c' = c
  · subst hc
    exact ⟨x, clients_put_self n c' x, hx y hy⟩
  · exact ⟨y, (clients_put_of_ne hc).trans hy, .refl y⟩

/-- A client that goes on leaves the network larger. -/
theorem Grows.put_of_extends (hx : n.clients c = some x) (h : x.Extends x') :
    n.Grows (n.put c x') := by
  refine .put fun y hy => ?_
  rw [hx] at hy
  cases hy
  exact h

theorem Step.grows {server : LoginServer} (h : Step server n n') : n.Grows n' := by
  cases h with
  | start hc _ _ =>
    refine .put fun y hy => ?_
    rw [hc] at hy
    cases hy
  | derive hx hnone _ =>
    refine .put_of_extends hx ⟨rfl, fun a ha => ?_, fun _ h => h⟩
    rw [hnone] at ha
    cases ha
  | submit hx _ hnone _ =>
    refine .put_of_extends hx ⟨rfl, fun _ h => h, fun z hz => ?_⟩
    rw [hnone] at hz
    cases hz
  | finish hx _ _ _ _ => exact .put_of_extends hx ⟨rfl, fun _ h => h, fun _ h => h⟩
  | issue _ _ _ => exact ⟨fun _ x h => ⟨x, h, .refl x⟩, fun _ h => .tail _ h, fun _ h => h⟩
  | login _ _ => exact ⟨fun _ x h => ⟨x, h, .refl x⟩, fun _ h => h, fun _ h => .tail _ h⟩
  | other _ => exact ⟨fun _ x h => ⟨x, h, .refl x⟩, fun _ h => h, fun _ h => h⟩

theorem Grows.hasSent {request : PreKeyRequest} (h : n.Grows n') (hs : n.HasSent request) :
    n'.HasSent request := by
  obtain ⟨c, x, hx, rfl⟩ := hs
  obtain ⟨x', hx', hext⟩ := h.clients c x hx
  exact ⟨c, x', hx', by rw [hext.sent]⟩

theorem Grows.hasGiven {response : PreKeyResponse} (h : n.Grows n') (hg : n.HasGiven response) :
    n'.HasGiven response := by
  obtain ⟨i, hi, hresponse⟩ := hg
  exact ⟨i, h.issues i hi, hresponse⟩

theorem Grows.signedBy {key : VerifyingKey} {m : Bytes} (h : n.Grows n') (hs : n.SignedBy key m) :
    n'.SignedBy key m := by
  obtain ⟨c, x, hx, rfl, hm⟩ | ⟨l, hl, hm⟩ := hs
  · obtain ⟨x', hx', hext⟩ := h.clients c x hx
    exact .inl ⟨c, x', hx', hext.key, hext.signs hm⟩
  · exact .inr ⟨l, h.logins l hl, hm⟩

end

end Network

end SealedLogin
