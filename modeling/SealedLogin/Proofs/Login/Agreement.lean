import SealedLogin.Proofs.Login.Handshake
import SealedLogin.Proofs.Login.Invariants

/-!
# Agreement of client and server

A client whose first round was not tampered with agrees with the server on the outcome of the
second one, whatever the network does (`agreement`): if it accepts an answer, the server has let
somebody in once under its index, with the credentials of this client, and with the token that the
client read.
-/

namespace SealedLogin.Network

variable {server : LoginServer} {n : Network} {c : Nat} {x : Client} {a : Agreement} {z : Sealing}
  {i : Issue} {session : EstablishedSession}

/-- Request and response of the issue went between the client and the server as they were sent. -/
structure Delivered (x : Client) (a : Agreement) (i : Issue) : Prop where
  sent : i.delivered
  request : i.request = x.sent.request
  given : a.delivered
  response : a.response = i.response

/-- Both sides of a first round have the same keys. -/
theorem Inv.keys_eq {record : PreKeyRecord} (h : n.Inv server) (hx : n.clients c = some x)
    (ha : x.agreement = some a) (hi : i ∈ n.issues) (hdelivered : Delivered x a i)
    (hcommutes : x.sent.material.Commutes i.material) (hkeeps : i.Keeps record) :
    a.derived.keys = record.keys := by
  obtain ⟨hderive, -⟩ := (h.sound c x hx).agreement a ha
  rw [hdelivered.response, (h.issued i hi).1] at hderive
  obtain ⟨-, -, -, -, -, ⟨peer1, peer2, hpeer1, hpeer2, hclient⟩, -⟩ :=
    PreKeySent.deriveKeys_eq_ok_iff.1 hderive
  cases (ExchangeKeyPair.ofHex_publicHex _).symm.trans hpeer1
  cases (ExchangeKeyPair.ofHex_publicHex _).symm.trans hpeer2
  obtain ⟨peer, keys, hpeer, hserver, rfl⟩ := hkeeps
  rw [hdelivered.request] at hpeer
  obtain ⟨-, -, -, -, hexchange1, hexchange2⟩ := PreKeyRequest.keys_eq_ok_iff.1 hpeer
  have h1 := Except.ok.inj ((ExchangeKeyPair.ofHex_publicHex _).symm.trans hexchange1)
  have h2 := Except.ok.inj ((ExchangeKeyPair.ofHex_publicHex _).symm.trans hexchange2)
  rw [← h1, ← h2] at hserver
  have hboth : x.sent.material.deriveWith i.material = .ok keys :=
    (SessionKeyMaterial.deriveWith_comm hcommutes).trans hserver
  exact Except.ok.inj (hclient.symm.trans hboth)

theorem Delivered.serverSigningKey (h : n.Inv server) (hx : n.clients c = some x)
    (ha : x.agreement = some a) (hi : i ∈ n.issues) (hdelivered : Delivered x a i) :
    a.derived.serverSigningKey = i.key := by
  obtain ⟨hderive, -⟩ := (h.sound c x hx).agreement a ha
  rw [hdelivered.response] at hderive
  exact (h.issued i hi).serverSigningKey hderive

theorem Delivered.index_eq (h : n.Inv server) (hx : n.clients c = some x)
    (ha : x.agreement = some a) (hdelivered : Delivered x a i) : a.derived.index = i.index := by
  obtain ⟨hderive, -⟩ := (h.sound c x hx).agreement a ha
  obtain ⟨-, -, -, -, -, -, hindex, -⟩ := PreKeySent.deriveKeys_eq_ok_iff.1 hderive
  rw [hindex, hdelivered.response, Issue.index]

/-! ### The login -/

/-- A login with the index of an issue took up the record of this issue. -/
theorem Inv.exists_record (h : n.Inv server) (hi : i ∈ n.issues) {l : Login} (hl : l ∈ n.logins)
    (hindex : l.index = i.index) : ∃ record response after, l.record? = some record
      ∧ i.Keeps record ∧ l.Succeeds server response after
      ∧ (i.delivered → ∃ c x m, n.clients c = some x ∧ x.sent.request = i.request
        ∧ Envelope.Verified x.key l.request.d m ∧ x.Signs m) := by
  obtain ⟨⟨response, after, hsucceeds⟩, j, hj, record, hjindex, hrecord, hkeeps, hsigned⟩ :=
    h.logged l hl
  obtain rfl := h.indices j hj i hi (hjindex.trans hindex)
  exact ⟨record, response, after, hrecord, hkeeps, hsucceeds, hsigned⟩

/-- What the server opens in a login with the index of a client is what the client has signed. -/
theorem Inv.exists_signed (h : n.Inv server) (hx : n.clients c = some x) (hi : i ∈ n.issues)
    (hdelivered : Delivered x a i) {l : Login} (hl : l ∈ n.logins) (hindex : l.index = i.index) :
    ∃ m, Envelope.Verified x.key l.request.d m ∧ x.Signs m := by
  obtain ⟨record, -, -, -, hkeeps, -, hsigned⟩ := h.exists_record hi hl hindex
  obtain ⟨c', y, m, hy, hrequest, hverified, hm⟩ := hsigned hdelivered.sent
  -- both have sent the request that the record was made for, which has one signing key
  have hkey : y.key = x.key := by
    rw [← hkeeps.clientSigningKey hrequest, hkeeps.clientSigningKey hdelivered.request.symm]
  obtain rfl := h.keys.clients c' c y x hy hx hkey
  cases hx.symm.trans hy
  exact ⟨m, hverified, hm⟩

/-! ### The answer -/

/-- The answer that a client accepts is the one of a login with its index, and its token that of
the login. -/
theorem Inv.exists_login (h : n.Inv server) (hx : n.clients c = some x) (ha : x.agreement = some a)
    (hsession : x.session = some session) (hi : i ∈ n.issues) (hdelivered : Delivered x a i)
    (hcommutes : x.sent.material.Commutes i.material) :
    session.index = i.index ∧ ∃ l ∈ n.logins, l.index = i.index ∧ session.token = l.token := by
  obtain ⟨z, now, answer, ttl, hz, hfinish, hsigned⟩ := (h.sound c x hx).session session hsession
  obtain ⟨a', rest, ha', hlogin⟩ := (h.sound c x hx).sealing z hz
  cases ha.symm.trans ha'
  obtain ⟨-, hwaiting, -⟩ := KeysDerived.login_eq_ok_iff.1 hlogin
  obtain ⟨-, hunpack, -, hindex⟩ := LoginSent.finish_eq_ok_iff.1 hfinish
  obtain ⟨m, -, hverified, -⟩ := Envelope.exists_verified_of_unpack hunpack
  have hkey : z.waiting.serverSigningKey = i.key := by
    rw [hwaiting]
    exact hdelivered.serverSigningKey h hx ha hi
  have hsigned := hsigned a ha hdelivered.given m hverified
  rw [hkey] at hsigned
  obtain ⟨l, hl, hlindex, record, hrecord, -, hm⟩ := h.exists_login_of_signedBy hi hsigned
  obtain ⟨record', response, after, hrecord', hkeeps, ⟨rest', hsucceeds⟩, -⟩ :=
    h.exists_record hi hl hlindex
  cases hrecord.symm.trans hrecord'
  obtain ⟨-, -, record'', user, opened, hlive, -, hopen, -⟩ :=
    LoginServer.login_eq_ok_iff.1 hsucceeds
  cases hrecord.symm.trans hlive
  obtain ⟨-, -, hpack⟩ := LoginServer.openSession_eq_ok_iff.1 hopen
  obtain ⟨-, -, -, hleft, -⟩ := Envelope.pack_eq_ok_iff.1 hpack
  rw [hwaiting, h.keys_eq hx ha hi hdelivered hcommutes hkeeps] at hunpack
  have hpayloads := Envelope.payloads_eq_of_unpack hleft hm hverified hunpack
  refine ⟨?_, l, hl, hlindex, ?_⟩
  · rw [hindex, hwaiting]
    exact hdelivered.index_eq h hx ha
  · simp only [List.cons.injEq, Record.ofString, Record.mk.injEq, and_true] at hpayloads
    exact Utf8.encode_injective hpayloads

/-! ### The credentials -/

/-- A login with the index of a client is about the credentials that the client has sealed. -/
theorem Inv.asks (h : n.Inv server) (hx : n.clients c = some x) (ha : x.agreement = some a)
    (hz : x.sealing = some z) (hi : i ∈ n.issues) (hdelivered : Delivered x a i)
    (hcommutes : x.sent.material.Commutes i.material) {l : Login} (hl : l ∈ n.logins)
    (hindex : l.index = i.index) : ∃ user response after, l.Succeeds server response after
      ∧ l.Asks server z.credentials.attempt
      ∧ server.authenticate z.credentials.attempt = .ok (some user)
      ∧ after.sessions = l.state.sessions.put ⟨l.token, user, l.now.wall⟩ l.now.tick
        server.lifetimes.session := by
  obtain ⟨record, response, after, hrecord, hkeeps, ⟨rest, hsucceeds⟩, -⟩ :=
    h.exists_record hi hl hindex
  obtain ⟨-, -, record', user, opened, hlive, huser, hopen, hafter⟩ :=
    LoginServer.login_eq_ok_iff.1 hsucceeds
  cases hrecord.symm.trans hlive
  obtain ⟨-, rfl, -⟩ := LoginServer.openSession_eq_ok_iff.1 hopen
  obtain ⟨payloads, attempt, hunpack, hattempt, haccepted⟩ :=
    LoginServer.readLogin_eq_ok_iff.1 huser
  obtain ⟨m, hverified, a', z', ha', hz', hm⟩ := h.exists_signed hx hi hdelivered hl hindex
  cases ha.symm.trans ha'
  cases hz.symm.trans hz'
  obtain ⟨a', rest', ha', hlogin⟩ := (h.sound c x hx).sealing z hz
  cases ha.symm.trans ha'
  obtain ⟨hpack, -, -⟩ := KeysDerived.login_eq_ok_iff.1 hlogin
  obtain ⟨-, -, -, hleft, -⟩ := Envelope.pack_eq_ok_iff.1 hpack
  -- what the server opened is what the client has signed, so that its payloads are the credentials
  have hopened := hunpack
  rw [← h.keys_eq hx ha hi hdelivered hcommutes hkeeps] at hopened
  obtain rfl := Envelope.payloads_eq_of_unpack hleft hm hverified hopened
  have hown : attempt = z.credentials.attempt := by
    rw [LoginAttempt.ofPayloads_payloads] at hattempt
    split at hattempt
    · cases hattempt
    · exact (Except.ok.inj hattempt).symm
  subst hown
  refine ⟨user, response, after, ⟨rest, hsucceeds⟩, ⟨record, _, hrecord, hunpack, hattempt⟩,
    haccepted, ?_⟩
  rw [hafter]
  rfl

/-! ### Agreement -/

/-- A login is the only one with its index, if there are no two with the same. -/
theorem filter_index_eq {logins : List Login} {l : Login} {index : String}
    (hsingle : (logins.map Login.index).Nodup) (hl : l ∈ logins) (hindex : l.index = index) :
    logins.filter (·.index = index) = [l] := by
  induction logins with
  | nil => cases hl
  | cons l' logins ih =>
    rw [List.map_cons, List.nodup_cons] at hsingle
    obtain rfl | hl := List.mem_cons.1 hl
    · rw [List.filter_cons_of_pos (by simpa using hindex)]
      have hrest : logins.filter (·.index = index) = [] := by
        refine List.filter_eq_nil_iff.2 fun l' hl' heq => hsingle.1 ?_
        rw [hindex, ← of_decide_eq_true heq]
        exact List.mem_map_of_mem hl'
      rw [hrest]
    · have hne : l'.index ≠ index := by
        rintro rfl
        exact hsingle.1 (hindex ▸ List.mem_map_of_mem hl)
      rw [List.filter_cons_of_neg (by simpa using hne)]
      exact ih hsingle.2 hl

/-- If a client accepts an answer under an index, then exactly one login with this index has
succeeded; in it the authenticator was asked about the credentials of this client and nobody
else's, and the server has put into its store a session under the token that the client has. -/
theorem agreement (server : LoginServer) (n : Network) (c : Nat) (x : Client) (a : Agreement)
    (z : Sealing) (i : Issue) (session : EstablishedSession) (hrun : Reachable server n)
    (hx : n.clients c = some x) (ha : x.agreement = some a) (hz : x.sealing = some z)
    (hsession : x.session = some session) (hi : i ∈ n.issues) (hdelivered : Delivered x a i)
    (hcommutes : x.sent.material.Commutes i.material) :
    ∃ l user response after, n.logins.filter (·.index = session.index) = [l]
      ∧ l.Succeeds server response after ∧ l.Asks server z.credentials.attempt
      ∧ server.authenticate z.credentials.attempt = .ok (some user)
      ∧ after.sessions = l.state.sessions.put ⟨session.token, user, l.now.wall⟩ l.now.tick
        server.lifetimes.session := by
  have h := inv_of_reachable hrun
  obtain ⟨hindex, l, hl, hlindex, htoken⟩ :=
    h.exists_login hx ha hsession hi hdelivered hcommutes
  obtain ⟨user, response, after, hsucceeds, hasks, haccepted, hafter⟩ :=
    h.asks hx ha hz hi hdelivered hcommutes hl hlindex
  refine ⟨l, user, response, after, ?_, hsucceeds, hasks, haccepted, ?_⟩
  · exact filter_index_eq h.single hl (hlindex.trans hindex.symm)
  · rw [htoken]
    exact hafter

/-! ### Runs that nobody disturbs -/

section

variable (e : Encounter) (keys : DirectionalKeys) (user : AuthenticatedUser) (text : String)

/-- The client has begun. -/
def begun : Network := initial.put 0 ⟨⟨e.client⟩, none, none, none⟩

/-- What the server issues to the client. -/
def issueFor : Issue :=
  ⟨(PreKeySent.mk e.client).request, .ofEntropy e.issueEntropy,
    e.server.responseFor e.index e.host, (begun e).HasSent (PreKeySent.mk e.client).request⟩

/-- The server has answered the client's request. -/
def answered : Network :=
  { begun e with server := e.issued keys, issues := issueFor e :: (begun e).issues }

/-- What the client makes of the answer. -/
def agreementOf : Agreement :=
  ⟨e.server.responseFor e.index e.host, e.derived keys,
    (answered e keys).HasGiven (e.server.responseFor e.index e.host)⟩

/-- The client has the keys. -/
def agreed : Network :=
  (answered e keys).put 0 ⟨⟨e.client⟩, some (agreementOf e keys), none, none⟩

/-- The credentials as the client seals them. -/
def sealingOf : Sealing :=
  ⟨e.sealedAt, e.credentials, e.clientLeft, e.waiting keys, ⟨e.index, text⟩⟩

/-- The client has sent its credentials. -/
def submitted : Network :=
  (agreed e keys).put 0
    ⟨⟨e.client⟩, some (agreementOf e keys), some (sealingOf e keys text), none⟩

/-- The server has let the client in. -/
def admitted : Network :=
  { submitted e keys text with
    server := e.closed keys user
    logins := ⟨(submitted e keys text).server, e.loginAt, ⟨e.index, text⟩, e.loginEntropy⟩
      :: (submitted e keys text).logins }

/-- The client has the token. -/
def finished : Network :=
  (admitted e keys user text).put 0 ⟨⟨e.client⟩, some (agreementOf e keys),
    some (sealingOf e keys text), some ⟨e.index, e.token⟩⟩

end

section

variable {e : Encounter} {keys : DirectionalKeys} {user : AuthenticatedUser} {text : String}

theorem reachable_begun (h : e.Honest keys user) : Reachable e.server (begun e) := by
  refine .single (.start rfl (Encounter.start_eq h) ?_)
  rintro (⟨_, _, hx, -⟩ | ⟨_, hi, -⟩)
  · cases hx
  · cases hi

theorem reachable_answered (h : e.Honest keys user) (hstate : e.state = .empty)
    (hapart : e.client.signing.publicKey ≠ e.host.signing.publicKey) :
    Reachable e.server (answered e keys) := by
  have hissue := Encounter.issue_eq h
  rw [hstate] at hissue
  refine (reachable_begun h).tail (.issue hissue ?_ (fun _ hi => nomatch hi))
  rintro (⟨c, y, hy, hkey⟩ | ⟨_, hi, -⟩)
  · obtain ⟨-, rfl⟩ | ⟨-, hy⟩ := clients_put_eq_some hy
    · exact hapart hkey
    · cases hy
  · cases hi

theorem reachable_agreed (h : e.Honest keys user) (hstate : e.state = .empty)
    (hapart : e.client.signing.publicKey ≠ e.host.signing.publicKey) :
    Reachable e.server (agreed e keys) := by
  have hx : (answered e keys).clients 0 = some ⟨⟨e.client⟩, none, none, none⟩ :=
    clients_put_self initial 0 _
  exact (reachable_answered h hstate hapart).tail (.derive hx rfl (Encounter.derive_eq h))

theorem reachable_submitted {rest : Entropy} (hagreed : Reachable e.server (agreed e keys))
    (hseal : (e.derived keys).login e.sealedAt e.credentials e.clientLeft
      = (.ok (e.waiting keys, ⟨e.index, text⟩), rest)) :
    Reachable e.server (submitted e keys text) := by
  have hx : (agreed e keys).clients 0 = some ⟨⟨e.client⟩, some (agreementOf e keys), none, none⟩ :=
    clients_put_self ..
  exact hagreed.tail (.submit hx rfl rfl hseal)

theorem client_of_submitted {c : Nat} {y : Client}
    (hy : (submitted e keys text).clients c = some y) :
    c = 0 ∧ y.key = e.client.signing.publicKey := by
  obtain ⟨rfl, rfl⟩ | ⟨hc, hy⟩ := clients_put_eq_some hy
  · exact ⟨rfl, rfl⟩
  · obtain ⟨rfl, -⟩ | ⟨-, hy⟩ := clients_put_eq_some hy
    · exact absurd rfl hc
    · obtain ⟨rfl, -⟩ | ⟨-, hy⟩ := clients_put_eq_some (n := initial) hy
      · exact absurd rfl hc
      · cases hy

/-- Only the keys of the two sides are honest. -/
theorem isHonest_submitted {key : VerifyingKey} (h : (submitted e keys text).IsHonest key) :
    key = e.client.signing.publicKey ∨ key = e.host.signing.publicKey := by
  obtain ⟨c, y, hy, rfl⟩ | ⟨i, hi, rfl⟩ := h
  · exact .inl (client_of_submitted hy).2
  · rw [List.mem_singleton.1 (hi : i ∈ [issueFor e])]
    exact .inr rfl

theorem unforged_submitted {rest : Entropy} {m : Bytes}
    (hseal : (e.derived keys).login e.sealedAt e.credentials e.clientLeft
      = (.ok (e.waiting keys, ⟨e.index, text⟩), rest))
    (hm : Envelope.ciphertext e.sealedAt e.index keys.clientToServer e.credentials.payloads
      e.clientLeft = .ok m)
    (hrefused : e.host.signing.publicKey.verify m (e.client.signing.sign m) ≠ .ok ()) :
    (submitted e keys text).Unforged text := by
  intro key m' hhonest hverified
  obtain ⟨hpack, -, -⟩ := KeysDerived.login_eq_ok_iff.1 hseal
  obtain ⟨rfl, hverify⟩ := (Envelope.verified_pack_iff hpack hm).1 hverified
  obtain rfl | rfl := isHonest_submitted hhonest
  · exact .inl ⟨0, _, clients_put_self .., rfl, agreementOf e keys, sealingOf e keys text, rfl, rfl,
      hm⟩
  · exact absurd hverify hrefused

theorem reachable_admitted {request answer : String} {rest : Entropy} (h : e.Honest keys user)
    (hbetween : e.between = []) (hsubmitted : Reachable e.server (submitted e keys request))
    (hunforged : (submitted e keys request).Unforged request) (hseals : e.Seals keys request)
    (hopen : LoginServer.openSession e.loginAt.wall (e.preKey keys) user e.loginEntropy
      = (.ok (e.record user, ⟨answer⟩), rest)) :
    Reachable e.server (admitted e keys user request) := by
  have hlogin := Encounter.login_eq h hseals hopen
  rw [hbetween] at hlogin
  exact hsubmitted.tail (.login hunforged hlogin)

theorem unforged_admitted {request answer : String} {rest : Entropy} {m : Bytes}
    (h : e.Honest keys user) (hbetween : e.between = [])
    (hopen : LoginServer.openSession e.loginAt.wall (e.preKey keys) user e.loginEntropy
      = (.ok (e.record user, ⟨answer⟩), rest))
    (hm : Envelope.ciphertext e.loginAt.wall e.index keys.serverToClient
      [Record.ofString e.token] e.hostLeft = .ok m)
    (hrefused : e.client.signing.publicKey.verify m (e.host.signing.sign m) ≠ .ok ()) :
    (admitted e keys user request).Unforged answer := by
  intro key m' hhonest hverified
  obtain ⟨-, -, hpack⟩ := LoginServer.openSession_eq_ok_iff.1 hopen
  obtain ⟨rfl, hverify⟩ := (Envelope.verified_pack_iff hpack hm).1 hverified
  have hlive := Encounter.live_preKey h
  rw [hbetween] at hlive
  obtain rfl | rfl := @isHonest_submitted e keys request key hhonest
  · exact absurd hverify hrefused
  · exact .inr ⟨_, .head _, e.preKey keys, hlive, rfl, hm⟩

/-- A login that nobody disturbs is a run of the network, if neither side's signature verifies under
the key of the other one. -/
theorem exists_run (h : e.Honest keys user) (hstate : e.state = .empty) (hbetween : e.between = [])
    (hapart : e.client.signing.publicKey ≠ e.host.signing.publicKey)
    (hrequest : ∀ m, Envelope.ciphertext e.sealedAt e.index keys.clientToServer
      e.credentials.payloads e.clientLeft = .ok m →
        e.host.signing.publicKey.verify m (e.client.signing.sign m) ≠ .ok ())
    (hanswer : ∀ m, Envelope.ciphertext e.loginAt.wall e.index keys.serverToClient
      [Record.ofString e.token] e.hostLeft = .ok m →
        e.client.signing.publicKey.verify m (e.host.signing.sign m) ≠ .ok ()) :
    ∃ text, Reachable e.server (finished e keys user text) := by
  obtain ⟨request, hseals⟩ := Encounter.exists_seals h
  obtain ⟨answer, hopen, hfinish⟩ := Encounter.exists_answer h
  obtain ⟨hpack, -, -⟩ := KeysDerived.login_eq_ok_iff.1 hseals.sent
  obtain ⟨-, -, hpack'⟩ := LoginServer.openSession_eq_ok_iff.1 hopen
  obtain ⟨m, -, hm, -⟩ := Envelope.pack_eq_ok_iff.1 hpack
  obtain ⟨m', -, hm', -⟩ := Envelope.pack_eq_ok_iff.1 hpack'
  have hsubmitted := reachable_submitted (reachable_agreed h hstate hapart) hseals.sent
  have hadmitted := reachable_admitted h hbetween hsubmitted
    (unforged_submitted hseals.sent hm (hrequest m hm)) hseals hopen
  have hx : (admitted e keys user request).clients 0
      = some ⟨⟨e.client⟩, some (agreementOf e keys), some (sealingOf e keys request), none⟩ :=
    clients_put_self (agreed e keys) 0 _
  have hunforged : (admitted e keys user request).Unforged answer :=
    unforged_admitted h hbetween hopen hm' (hanswer m' hm')
  exact ⟨request, hadmitted.tail (.finish hx rfl rfl hunforged hfinish)⟩

end

/-- The login of the leap second, with nobody else there. -/
def leap : Encounter := { Encounter.leap with between := [] }

theorem publicKey_leap : leap.client.signing.publicKey ≠ leap.host.signing.publicKey := by
  have key : SigningIdentity.keyOfDigest (Sha512.digestNat leap.client.signing.seed)
      ≠ SigningIdentity.keyOfDigest (Sha512.digestNat leap.host.signing.seed) := by decide +kernel
  rw [SigningIdentity.publicKey_eq, SigningIdentity.publicKey_eq]
  exact fun h => key (VerifyingKey.mk.inj h)

theorem host_refuses_leap : leap.host.signing.publicKey.verify Envelope.leapCiphertext
    (leap.client.signing.sign Envelope.leapCiphertext) ≠ .ok () := by
  rw [ne_eq, SigningIdentity.verify_sign_iff_acceptsNat, SigningIdentity.publicKey_eq]
  decide +kernel

theorem client_refuses_leap : leap.client.signing.publicKey.verify Encounter.leapAnswer
    (leap.host.signing.sign Encounter.leapAnswer) ≠ .ok () := by
  rw [ne_eq, SigningIdentity.verify_sign_iff_acceptsNat, SigningIdentity.publicKey_eq]
  decide +kernel

theorem exists_run_leap :
    ∃ text, Reachable leap.server (finished leap Encounter.leapKeys ⟨"user", none⟩ text) := by
  refine exists_run Encounter.honest_leap.alone rfl rfl publicKey_leap (fun m hm => ?_)
    fun m hm => ?_
  · cases Encounter.ciphertext_leapRequest.symm.trans hm
    exact host_refuses_leap
  · cases Encounter.ciphertext_leapAnswer.symm.trans hm
    exact client_refuses_leap

/-- In this run the client and the server agree. -/
theorem agreement_leap : ∃ n l user response after, Reachable leap.server n
    ∧ n.logins.filter (·.index = "PREKEY_0") = [l] ∧ l.Succeeds leap.server response after
    ∧ l.Asks leap.server ⟨"a", "", none⟩
    ∧ leap.server.authenticate ⟨"a", "", none⟩ = .ok (some user)
    ∧ after.sessions = l.state.sessions.put ⟨leap.token, user, l.now.wall⟩ l.now.tick
      leap.server.lifetimes.session := by
  obtain ⟨text, hrun⟩ := exists_run_leap
  have hdelivered : Delivered ⟨⟨leap.client⟩, some (agreementOf leap Encounter.leapKeys),
      some (sealingOf leap Encounter.leapKeys text), some ⟨leap.index, leap.token⟩⟩
      (agreementOf leap Encounter.leapKeys) (issueFor leap) :=
    ⟨⟨0, _, clients_put_self .., rfl⟩, rfl, ⟨issueFor leap, .head _, rfl⟩, rfl⟩
  have h := agreement leap.server _ 0 _ _ _ (issueFor leap) ⟨leap.index, leap.token⟩ hrun
    (clients_put_self ..) rfl rfl rfl (.head _) hdelivered Encounter.commutes_leap
  obtain ⟨l, user, response, after, hsingle, hsucceeds, hasks, haccepted, hafter⟩ := h
  exact ⟨_, l, user, response, after, hrun, hsingle, hsucceeds, hasks, haccepted, hafter⟩

end SealedLogin.Network
