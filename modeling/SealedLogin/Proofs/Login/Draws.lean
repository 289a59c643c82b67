import SealedLogin.Proofs.Entropy.Plans
import SealedLogin.Proofs.Envelope.Sealing
import SealedLogin.Proofs.Login.Calls

/-!
# What the steps of a login draw

Clients and the server draw from one stream. Every operation of theirs follows a plan
(`operate_eq`), from which it can be read what it draws and what becomes of it: `Makes` lists the
operations that draw, each with the secrets that come of the bytes.
-/

namespace SealedLogin

open Drawing

/-! ### Plans -/

/-- The failure of a draw that finds too few bytes. -/
def ProtocolError.exhausted : ProtocolError := .randomUnavailable .exhausted

/-- Fresh secrets. -/
def SessionKeyMaterial.plan {ε : Type} : Plan (Except ε SessionKeyMaterial) :=
  .draw .signingSeed fun seed => .draw .exchangeSecret fun secret1 =>
    .draw .exchangeSecret fun secret2 => .done (.ok ⟨⟨seed⟩, ⟨secret1⟩, ⟨secret2⟩⟩)

theorem SessionKeyMaterial.follows_generate :
    Follows .exhausted (generate.adapt ProtocolError.ofCrypto) plan := by
  have hsigning : Follows (.randomUnavailable .exhausted) SigningIdentity.generate
      (.draw .signingSeed fun seed => .done (.ok ⟨seed⟩)) :=
    (follows_drawKeyBytes .signingSeed).bind fun _ => follows_pure _
  have hexchange : Follows (.randomUnavailable .exhausted) ExchangeKeyPair.generate
      (.draw .exchangeSecret fun secret => .done (.ok ⟨secret⟩)) :=
    (follows_drawKeyBytes .exchangeSecret).bind fun _ => follows_pure _
  have hgenerate : Follows (.randomUnavailable .exhausted) generate plan :=
    hsigning.bind fun _ => hexchange.bind fun _ => hexchange.bind fun _ => follows_pure _
  exact hgenerate.adapt ProtocolError.ofCrypto

/-- A login that begins. -/
def PreKeySent.plan : Plan (Except ProtocolError PreKeySent) :=
  SessionKeyMaterial.plan.andThen fun material => .done (.ok ⟨material⟩)

theorem PreKeySent.follows_start : Follows .exhausted start plan :=
  SessionKeyMaterial.follows_generate.bind fun _ => follows_pure _

namespace Envelope

/-- The text of an envelope, given its nonce and its initialization vector. -/
def sealed (now : Instant) (index : String) (signer : SigningIdentity) (key : SymmetricKey)
    (payloads : List Record) (nonce initVector : Bytes) : Except Record.Oversize String := do
  let data ← (Record.combine payloads).bind Record.marshal
  let plaintext ← (packedBlock now index nonce data).toRecord.bind Record.marshal
  let encrypted := key.encryptFrom initVector plaintext
  (Record.combine [⟨encrypted⟩, ⟨signer.sign encrypted⟩]).bind Record.toHex

/-- A block is sealed in two steps, before and after the draw. -/
def sealPlan (block : DataBlock) (signer : SigningIdentity) (key : SymmetricKey) :
    Plan (Except ProtocolError String) :=
  (Plan.done (ProtocolError.ofWrite (block.toRecord.bind Record.marshal))).andThen
    fun plaintext => .draw .initVector fun initVector =>
      let encrypted := key.encryptFrom initVector plaintext
      .done (ProtocolError.ofWrite
        ((Record.combine [⟨encrypted⟩, ⟨signer.sign encrypted⟩]).bind Record.toHex))

/-- An envelope is made of its data, then a block around them with a nonce, which is sealed. -/
def plan (now : Instant) (index : String) (signer : SigningIdentity) (key : SymmetricKey)
    (payloads : List Record) : Plan (Except ProtocolError String) :=
  (Plan.done (ProtocolError.ofWrite ((Record.combine payloads).bind Record.marshal))).andThen
    fun data => .draw .nonce fun nonce => sealPlan (packedBlock now index nonce data) signer key

theorem follows_create (data : Bytes) (now : Instant) :
    Follows .exhausted (DataBlock.create data now) (.draw .nonce fun nonce =>
      .done (.ok (({ (default : DataBlock).setTime now with nonce := nonce }).setData data))) := by
  have hnonce : Follows .exhausted ((default : DataBlock).setTime now).generateNonce
      (.draw .nonce fun nonce =>
        .done (.ok { (default : DataBlock).setTime now with nonce := nonce })) :=
    ((follows_draw .nonce).adapt ProtocolError.randomUnavailable).bind fun _ => follows_pure _
  exact hnonce.bind fun _ => follows_pure _

theorem follows_sealBlock (block : DataBlock) (signer : SigningIdentity) (key : SymmetricKey) :
    Follows .exhausted (sealBlock block signer key) (sealPlan block signer key) := by
  have hencrypt (m : Bytes) : Follows (.randomUnavailable .exhausted) (key.encrypt m)
      (.draw .initVector fun initVector => .done (.ok (key.encryptFrom initVector m))) :=
    (follows_drawKeyBytes .initVector).bind fun _ => follows_pure _
  exact (follows_ofExcept _).bind fun plaintext =>
    ((hencrypt plaintext).adapt ProtocolError.ofCrypto).bind fun _ => follows_ofExcept _

theorem follows_pack (now : Instant) (index : String) (signer : SigningIdentity)
    (key : SymmetricKey) (payloads : List Record) :
    Follows .exhausted (pack now index signer key payloads)
      (plan now index signer key payloads) := by
  refine (follows_ofExcept _).bind fun data => ?_
  have hblock := (follows_create data now).bind fun block =>
    follows_sealBlock (block.setPreKey index) signer key
  simp only [Plan.andThen, setPreKey_setData] at hblock
  exact hblock

end Envelope

/-- A login is the envelope with the credentials, under the index. -/
def KeysDerived.plan (derived : KeysDerived) (now : Instant) (credentials : Credentials) :
    Plan (Except ProtocolError (LoginSent × LoginRequest)) :=
  (Envelope.plan now derived.index derived.signing derived.keys.clientToServer
    credentials.payloads).andThen fun envelope =>
      .done (.ok (⟨derived.index, derived.serverSigningKey, derived.keys.serverToClient⟩,
        ⟨derived.index, envelope⟩))

theorem KeysDerived.follows_login (derived : KeysDerived) (now : Instant)
    (credentials : Credentials) :
    Follows .exhausted (derived.login now credentials) (derived.plan now credentials) :=
  (Envelope.follows_pack _ _ _ _ _).bind fun _ => follows_pure _

namespace LoginServer

/-- The answer to a client's keys. -/
def answerPlan (server : LoginServer) (index : String) (client : ClientKeys) :
    Plan (Except ProtocolError (PreKeyRecord × PreKeyResponse)) :=
  SessionKeyMaterial.plan.andThen fun material =>
    (Plan.done ((material.derive client.exchange1 client.exchange2).mapError
      fun fault => ProtocolError.ofCrypto (.keyAgreement fault))).andThen fun keys =>
      .done (.ok (recordFor index client material keys, server.responseFor index material))

theorem follows_answerPreKey (server : LoginServer) (index : String) (client : ClientKeys) :
    Follows .exhausted (server.answerPreKey index client) (server.answerPlan index client) :=
  SessionKeyMaterial.follows_generate.bind fun _ => (follows_ofExcept _).bind fun _ =>
    follows_pure _

/-- A session: its token, and the envelope around it. -/
def sessionPlan (now : Instant) (record : PreKeyRecord) (user : AuthenticatedUser) :
    Plan (Except ProtocolError (SessionRecord × LoginResponse)) :=
  .draw .token fun secret =>
    (Envelope.plan now record.index record.serverSigning record.keys.serverToClient
      [Record.ofString (Hex.encode secret)]).andThen fun reply =>
        .done (.ok (⟨Hex.encode secret, user, now⟩, ⟨reply⟩))

theorem follows_openSession (now : Instant) (record : PreKeyRecord) (user : AuthenticatedUser) :
    Follows .exhausted (openSession now record user) (sessionPlan now record user) :=
  ((follows_draw .token).adapt ProtocolError.randomUnavailable).bind fun _ =>
    (Envelope.follows_pack _ _ _ _ _).bind fun _ => follows_pure _

end LoginServer

/-! ### Operations -/

/-- What a client does, or has a server do. -/
inductive Operation where
  | start
  | deriveKeys (sent : PreKeySent) (response : PreKeyResponse)
  | sendLogin (derived : KeysDerived) (now : Instant) (credentials : Credentials)
  | finish (waiting : LoginSent) (now : Instant) (response : LoginResponse) (ttl : Duration)
  | pack (now : Instant) (index : String) (signer : SigningIdentity) (key : SymmetricKey)
      (payloads : List Record)
  | serve (request : ServerRequest) (now : Moment)

/-- What comes of an operation. -/
inductive Outcome where
  | started (result : Except ProtocolError PreKeySent)
  | derived (result : Except ProtocolError KeysDerived)
  | loginSent (result : Except ProtocolError (LoginSent × LoginRequest))
  | finished (result : Except ProtocolError EstablishedSession)
  | packed (result : Except ProtocolError String)
  | issued (result : Except ProtocolError PreKeyResponse)
  | loggedIn (result : Except ProtocolError LoginResponse)
  | loggedOut (result : Except ProtocolError Unit)
  | resolved (result : Except ProtocolError SessionRecord)
  | purged (result : Except ProtocolError (Nat × Nat))

/-- The failure of a result. -/
def failureOf {α : Type} : Except ProtocolError α → Option ProtocolError
  | .ok _ => none
  | .error e => some e

/-- The failure of an operation. -/
def Outcome.failure : Outcome → Option ProtocolError
  | .started result => failureOf result
  | .derived result => failureOf result
  | .loginSent result => failureOf result
  | .finished result => failureOf result
  | .packed result => failureOf result
  | .issued result => failureOf result
  | .loggedIn result => failureOf result
  | .loggedOut result => failureOf result
  | .resolved result => failureOf result
  | .purged result => failureOf result

/-- A computation that leaves the server alone, as an operation. -/
def Drawing.operate {α : Type} (d : Drawing ProtocolError α)
    (report : Except ProtocolError α → Outcome) (s : ServerState) (left : Entropy) :
    (Outcome × ServerState) × Entropy :=
  ((report (d left).1, s), (d left).2)

/-- A call to the server, as an operation. -/
def ServerStep.operate {α : Type} (step : ServerStep α)
    (report : Except ProtocolError α → Outcome) (s : ServerState) (left : Entropy) :
    (Outcome × ServerState) × Entropy :=
  ((report (step s left).1.1, (step s left).1.2), (step s left).2)

namespace LoginServer

/-- What comes of an operation, with what the server keeps then and what is left of the stream. -/
def operate (server : LoginServer) : Operation → ServerState → Entropy →
    (Outcome × ServerState) × Entropy
  | .start => PreKeySent.start.operate .started
  | .deriveKeys sent response => (Drawing.ofExcept (sent.deriveKeys response)).operate .derived
  | .sendLogin derived now credentials => (derived.login now credentials).operate .loginSent
  | .finish waiting now response ttl =>
      (Drawing.ofExcept (waiting.finish now response ttl)).operate .finished
  | .pack now index signer key payloads =>
      (Envelope.pack now index signer key payloads).operate .packed
  | .serve (.issue identifier request) now =>
      (server.issuePreKey now.tick identifier request).operate .issued
  | .serve (.login request) now => (server.login now request).operate .loggedIn
  | .serve (.logout token) now => (logout now.tick token).operate .loggedOut
  | .serve (.resolve token) now => (server.resolve now.tick token).operate .resolved
  | .serve .purge now => (purge now.tick).operate .purged

/-- What comes of an issue, once its keys are made. -/
def settleIssue (server : LoginServer) (s : ServerState) (now : Tick) :
    Except ProtocolError (PreKeyRecord × PreKeyResponse) → Outcome × ServerState
  | .ok (record, response) =>
      (.issued (.ok response), ⟨s.preKeys.put record now server.lifetimes.preKey, s.sessions⟩)
  | .error e => (.issued (.error e), s)

/-- What comes of a login, once its session is made. -/
def settleLogin (server : LoginServer) (s : ServerState) (now : Tick) :
    Except ProtocolError (SessionRecord × LoginResponse) → Outcome × ServerState
  | .ok (session, response) =>
      (.loggedIn (.ok response), ⟨s.preKeys, s.sessions.put session now server.lifetimes.session⟩)
  | .error e => (.loggedIn (.error e), s)

/-- What a login goes on with: the record of its index, if there is one, and the user whose
credentials the envelope carries. -/
def readRequest (server : LoginServer) (now : Moment) (request : LoginRequest) (s : ServerState) :
    Except ProtocolError (PreKeyRecord × AuthenticatedUser) := do
  let index ← requireParameter request.i "i"
  let envelope ← requireParameter request.d "d"
  match s.preKeys.live? index now.tick with
  | none => .error .preKeyNotFound
  | some record => (server.readLogin now.wall record envelope).map fun user => (record, user)

/-- What the server keeps once a login has named its index. -/
def taken (request : LoginRequest) (s : ServerState) : ServerState :=
  if request.i = "" ∨ request.d = "" then s else ⟨s.preKeys.erase request.i, s.sessions⟩

/-- The plan of an operation. -/
def plan (server : LoginServer) : Operation → ServerState → Plan (Outcome × ServerState)
  | .start, s => PreKeySent.plan.map fun result => (.started result, s)
  | .deriveKeys sent response, s => .done (.derived (sent.deriveKeys response), s)
  | .sendLogin derived now credentials, s =>
      (derived.plan now credentials).map fun result => (.loginSent result, s)
  | .finish waiting now response ttl, s => .done (.finished (waiting.finish now response ttl), s)
  | .pack now index signer key payloads, s =>
      (Envelope.plan now index signer key payloads).map fun result => (.packed result, s)
  | .serve (.issue identifier request) now, s =>
      ((Plan.done request.keys).andThen fun client =>
        server.answerPlan (indexHead ++ identifier) client).map (server.settleIssue s now.tick)
  | .serve (.login request) now, s =>
      ((Plan.done (server.readRequest now request s)).andThen fun (record, user) =>
        sessionPlan now.wall record user).map (server.settleLogin (taken request s) now.tick)
  | .serve request now, s => .done (server.operate (.serve request now) s []).1

/-- What comes of an operation when a draw finds too few bytes. -/
def short : Operation → ServerState → Outcome × ServerState
  | .start, s => (.started (.error .exhausted), s)
  | .deriveKeys _ _, s => (.derived (.error .exhausted), s)
  | .sendLogin _ _ _, s => (.loginSent (.error .exhausted), s)
  | .finish _ _ _ _, s => (.finished (.error .exhausted), s)
  | .pack _ _ _ _ _, s => (.packed (.error .exhausted), s)
  | .serve (.issue _ _) _, s => (.issued (.error .exhausted), s)
  | .serve (.login request) _, s => (.loggedIn (.error .exhausted), taken request s)
  | .serve (.logout _) _, s => (.loggedOut (.error .exhausted), s)
  | .serve (.resolve _) _, s => (.resolved (.error .exhausted), s)
  | .serve .purge _, s => (.purged (.error .exhausted), s)

theorem failure_short (op : Operation) (s : ServerState) :
    (short op s).1.failure = some .exhausted := by
  cases op with
  | serve request now => cases request <;> rfl
  | _ => rfl

theorem operate_of_follows {α : Type} {d : Drawing ProtocolError α}
    {p : Plan (Except ProtocolError α)} (h : Follows .exhausted d p)
    (report : Except ProtocolError α → Outcome) (s : ServerState) (left : Entropy) :
    d.operate report s left
      = (p.map fun result => (report result, s)).run (report (.error .exhausted), s) left := by
  rw [Drawing.operate, h left]
  exact (Plan.run_map fun result => (report result, s)).symm

variable {server : LoginServer} {s : ServerState} {left : Entropy}

/-- An issue draws for the secrets of the server once the keys of the client are read. -/
theorem operate_issue (server : LoginServer) (identifier : String) (request : PreKeyRequest)
    (now : Moment) (s : ServerState) (left : Entropy) :
    server.operate (.serve (.issue identifier request) now) s left
      = (server.plan (.serve (.issue identifier request) now) s).run
          (server.settleIssue s now.tick (.error .exhausted)) left := by
  have hdraw := ((follows_ofExcept request.keys).bind fun client =>
    server.follows_answerPreKey (indexHead ++ identifier) client) left
  rw [plan, Plan.run_map, ← hdraw, operate, ServerStep.operate, issuePreKey,
    ServerStep.bind_apply, ServerStep.ofExcept_apply, Drawing.bind_apply, Drawing.ofExcept_apply]
  cases request.keys with
  | error e => rfl
  | ok client =>
    dsimp only
    rw [ServerStep.bind_apply, ServerStep.ofDrawing]
    rcases server.answerPreKey (indexHead ++ identifier) client left with
      ⟨e | ⟨record, response⟩, rest⟩
    · rfl
    · rfl

theorem answerLogin_apply {now : Moment} {envelope : String} {record : PreKeyRecord} :
    server.answerLogin now envelope record s left =
      let (result, rest) := (Drawing.ofExcept (server.readLogin now.wall record envelope) >>=
        fun user => openSession now.wall record user) left
      match result with
      | .ok (session, response) => ((.ok response,
          ⟨s.preKeys, s.sessions.put session now.tick server.lifetimes.session⟩), rest)
      | .error e => ((.error e, s), rest) := by
  rw [answerLogin, ServerStep.bind_apply, ServerStep.ofExcept_apply, Drawing.bind_apply,
    Drawing.ofExcept_apply]
  cases server.readLogin now.wall record envelope with
  | error e => rfl
  | ok user =>
    dsimp only
    rw [ServerStep.bind_apply, ServerStep.ofDrawing]
    rcases openSession now.wall record user left with ⟨e | ⟨session, response⟩, rest⟩
    · rfl
    · rfl

/-- A login that lacks a parameter ends where its request is read. -/
theorem readRequest_of_missing (server : LoginServer) {request : LoginRequest} (now : Moment)
    (s : ServerState) (left : Entropy) (h : request.i = "" ∨ request.d = "") :
    ∃ e, server.readRequest now request s = .error e
      ∧ server.login now request s left = ((.error e, s), left) := by
  by_cases hi : request.i = ""
  · have hindex : requireParameter request.i "i" = .error (.missingParameter "i") := by
      rw [hi]
      rfl
    refine ⟨.missingParameter "i", by rw [readRequest, hindex]; rfl, ?_⟩
    rw [login, ServerStep.bind_apply, ServerStep.ofExcept_apply, hindex]
  · have hindex := (requireParameter_eq_ok_iff.2 ⟨hi, rfl⟩ : requireParameter _ "i" = _)
    have henvelope : requireParameter request.d "d" = .error (.missingParameter "d") := by
      rw [h.resolve_left hi]
      rfl
    refine ⟨.missingParameter "d", by rw [readRequest, hindex, henvelope]; rfl, ?_⟩
    rw [login, ServerStep.bind_apply, ServerStep.ofExcept_apply, hindex]
    dsimp only
    rw [ServerStep.bind_apply, ServerStep.ofExcept_apply, henvelope]

/-- A login draws once it has its record and its user. -/
theorem operate_login (server : LoginServer) (request : LoginRequest) (now : Moment)
    (s : ServerState) (left : Entropy) :
    server.operate (.serve (.login request) now) s left
      = (server.plan (.serve (.login request) now) s).run
          (server.settleLogin (taken request s) now.tick (.error .exhausted)) left := by
  have hdraw := ((follows_ofExcept (server.readRequest now request s)).bind fun found =>
    follows_openSession now.wall found.1 found.2) left
  rw [plan, Plan.run_map, ← hdraw, operate, ServerStep.operate, Drawing.bind_apply,
    Drawing.ofExcept_apply]
  by_cases hmissing : request.i = "" ∨ request.d = ""
  · obtain ⟨e, hread, hlogin⟩ := server.readRequest_of_missing now s left hmissing
    rw [hlogin, hread, taken, if_pos hmissing]
    rfl
  · obtain ⟨hi, hd⟩ := not_or.1 hmissing
    have hindex := (requireParameter_eq_ok_iff.2 ⟨hi, rfl⟩ : requireParameter _ "i" = _)
    have henvelope := (requireParameter_eq_ok_iff.2 ⟨hd, rfl⟩ : requireParameter _ "d" = _)
    rw [login_apply hi hd, readRequest, hindex, henvelope, taken, if_neg hmissing]
    dsimp only [bind, Except.bind]
    cases s.preKeys.live? request.i now.tick with
    | none => rfl
    | some record =>
      dsimp only
      rw [answerLogin_apply, Drawing.bind_apply, Drawing.ofExcept_apply]
      cases server.readLogin now.wall record request.d with
      | error e => rfl
      | ok user =>
        dsimp only [Except.map]
        rcases openSession now.wall record user left with ⟨e | ⟨session, response⟩, rest⟩
        · rfl
        · rfl

/-- A call that draws nothing comes to the same on every stream. -/
theorem operate_silent (server : LoginServer) {request : ServerRequest} (now : Moment)
    (s : ServerState) (left : Entropy)
    (hissue : ∀ identifier keys, request ≠ .issue identifier keys)
    (hlogin : ∀ login, request ≠ .login login) :
    server.operate (.serve request now) s left
      = ((server.operate (.serve request now) s []).1, left) := by
  cases request with
  | issue identifier keys => exact absurd rfl (hissue identifier keys)
  | login login => exact absurd rfl (hlogin login)
  | logout token =>
    by_cases htoken : token = ""
    · subst htoken
      rfl
    · rw [operate, ServerStep.operate, ServerStep.operate, logout_apply htoken,
        logout_apply htoken]
  | resolve token =>
    by_cases htoken : token = ""
    · subst htoken
      rfl
    · rw [operate, ServerStep.operate, ServerStep.operate, resolve_apply htoken,
        resolve_apply htoken]
      cases (s.sessions.lookup token).filter (·.isLive now.tick) <;> rfl
  | purge => rfl

/-- Every operation follows its plan. -/
theorem operate_eq (server : LoginServer) (op : Operation) (s : ServerState) (left : Entropy) :
    server.operate op s left = (server.plan op s).run (short op s) left := by
  cases op with
  | start => exact operate_of_follows PreKeySent.follows_start .started s left
  | deriveKeys => rfl
  | sendLogin derived now credentials =>
    exact operate_of_follows (derived.follows_login now credentials) .loginSent s left
  | finish => rfl
  | pack => exact operate_of_follows (Envelope.follows_pack _ _ _ _ _) .packed s left
  | serve request now =>
    cases request with
    | issue identifier request => exact server.operate_issue identifier request now s left
    | login request => exact server.operate_login request now s left
    | logout => exact server.operate_silent now s left nofun nofun
    | resolve => exact server.operate_silent now s left nofun nofun
    | purge => exact server.operate_silent now s left nofun nofun

end LoginServer

end SealedLogin
