import SealedLogin.Proofs.Http.Visits
import SealedLogin.Proofs.Login.Messages
import SealedLogin.Proofs.Login.Organizations
import SealedLogin.Proofs.Login.Refusals
import SealedLogin.Proofs.Login.SessionLifetime

/-!
# What a refused caller is told

Whoever is refused gets the same response (`denied`), whatever the reason is. A refused login leaves
the same behind, too (`route_of_submits`), and a token that is not live is like any other
(`route_of_offers`). Only requests in a form that their endpoint does not read are told apart, by
that form (`route_of_misformed`). No request is answered as if the server had failed
(`status_route_lt`), as long as there are random bytes for it.
-/

namespace SealedLogin.Http

/-- The response to a caller who is refused. -/
def denied : Response := ⟨401, .object [("error", .text "AUTHENTICATION_FAILED")]⟩

theorem ofError_of_isAuthenticationFailure {e : ProtocolError}
    (h : e.isAuthenticationFailure = true) : Response.ofError e = denied := by
  cases e <;> first | rfl | cases h

theorem status_ofError_lt {e : ProtocolError} (h : e.blamesCaller = true) :
    (Response.ofError e).status < 500 := by
  cases e <;> first | exact (by decide : 400 < 500) | exact (by decide : 401 < 500) | cases h

variable {r : Request} {identifier token : String} {m : LoginRequest} {server : LoginServer}
  {now : Moment} {s : ServerState} {left : Entropy} {endpoint : Endpoint} {status : Nat}

/-! ### Requests -/

/-- The request goes to the endpoint for logins, and its body is read as the message. -/
structure Request.Submits (r : Request) (m : LoginRequest) : Prop where
  method : r.method = "POST"
  path : r.path = "/self/login"
  isJson : ∃ t, r.mediaType? = some t ∧ t.isJson = true
  size : r.body.utf8ByteSize ≤ bodyLimit
  message : LoginRequest.ofJson r.body = .ok m

/-- The request goes with the token to the endpoint that ends sessions, or to the one that tells
about them. -/
structure Request.Offers (r : Request) (token : String) : Prop where
  method : r.method = "POST"
  path : r.path = "/self/logout" ∨ r.path = "/self/detail"
  token : r.bearerToken? = some token

/-- The request goes to an endpoint, but not in a form that is read there. The status tells what is
wrong with the form. -/
inductive Request.Misformed (r : Request) : Nat → Prop where
  | method {endpoint : Endpoint} (path : r.path = endpoint.path)
      (noOptions : (r.method == "OPTIONS") = false)
      (notAllowed : endpoint.allows r.method = false) : Misformed r 405
  | mediaType {endpoint : Endpoint} (path : r.path = endpoint.path) (post : r.method = "POST")
      (takesBody : endpoint = .preKey ∨ endpoint = .login)
      (notJson : r.mediaType?.any MediaType.isJson = false) : Misformed r 415
  | size {endpoint : Endpoint} (path : r.path = endpoint.path) (post : r.method = "POST")
      (takesBody : endpoint = .preKey ∨ endpoint = .login)
      (isJson : r.mediaType?.any MediaType.isJson = true)
      (tooLong : bodyLimit < r.body.utf8ByteSize) : Misformed r 413

theorem readBody_eq_ok {α : Type} {read : String → Except JsonText.Fault α} {a : α}
    (hjson : r.mediaType?.any MediaType.isJson = true) (hsize : r.body.utf8ByteSize ≤ bodyLimit)
    (hread : read r.body = .ok a) : readBody read r = .ok a := by
  unfold readBody
  rw [hjson, if_neg (by decide), if_neg (Nat.not_lt.2 hsize), hread]

theorem Endpoint.ofPath?_path (endpoint : Endpoint) :
    Endpoint.ofPath? endpoint.path = some endpoint := by
  cases endpoint <;> decide

theorem Request.Submits.call? (h : r.Submits m) (identifier : String) :
    r.call? identifier = some (.login m) := by
  obtain ⟨t, htype, hjson⟩ := h.isJson
  have hbody : readBody LoginRequest.ofJson r = .ok m :=
    readBody_eq_ok (by rw [htype, Option.any_some, hjson]) h.size h.message
  unfold Request.call?
  rw [h.method, h.path]
  show (readBody LoginRequest.ofJson r).toOption.map ServerRequest.login = _
  rw [hbody]
  rfl

theorem Request.call?_of_readBody_preKey {m : PreKeyRequest} (hmethod : r.method = "POST")
    (hpath : r.path = "/self/prekey") (hbody : readBody PreKeyRequest.ofJson r = .ok m)
    (identifier : String) : r.call? identifier = some (.issue identifier m) := by
  unfold Request.call?
  rw [hmethod, hpath]
  show (readBody PreKeyRequest.ofJson r).toOption.map (ServerRequest.issue identifier) = _
  rw [hbody]
  rfl

theorem Request.Offers.call? (h : r.Offers token) (identifier : String) :
    r.call? identifier = some (.logout token) ∨ r.call? identifier = some (.resolve token) := by
  unfold Request.call?
  rw [h.method]
  rcases h.path with hpath | hpath
  · left
    rw [hpath]
    show r.bearerToken?.map ServerRequest.logout = _
    rw [h.token]
    rfl
  · right
    rw [hpath]
    show r.bearerToken?.map ServerRequest.resolve = _
    rw [h.token]
    rfl

theorem Request.ne_empty_of_bearerToken? (h : r.bearerToken? = some token) : token ≠ "" := by
  unfold bearerToken? at h
  split at h
  · cases h
  · dsimp only at h
    split_ifs at h with hhead hempty
    cases h
    intro heq
    exact hempty (List.isEmpty_iff.2 (String.ofList_eq_empty_iff.1 heq))

/-! ### Responses -/

/-- A body that is refused is refused before anything is asked of the server. -/
theorem handle_of_readBody {refusal : Response} (htakes : endpoint = .preKey ∨ endpoint = .login)
    (hbody : ∀ {α : Type} (read : String → Except JsonText.Fault α),
      readBody read r = .error refusal) :
    endpoint.handle server now identifier r = return refusal := by
  rcases htakes with rfl | rfl
  · rw [Endpoint.handle, withBody, hbody]
  · rw [Endpoint.handle, withBody, hbody]

theorem route_of_path (hpath : r.path = endpoint.path)
    (hoptions : (r.method == "OPTIONS") = false) :
    route server now identifier r = if endpoint.allows r.method
      then endpoint.handle server now identifier r else return .bare 405 := by
  unfold route
  rw [hoptions, hpath, Endpoint.ofPath?_path, if_neg Bool.false_ne_true]

theorem route_of_post (hpath : r.path = endpoint.path) (hpost : r.method = "POST")
    (htakes : endpoint = .preKey ∨ endpoint = .login) :
    route server now identifier r = endpoint.handle server now identifier r := by
  rw [route_of_path hpath (by rw [hpost]; decide), hpost]
  rcases htakes with rfl | rfl <;> exact if_pos (by decide)

/-- A request that is not in the form of its endpoint is refused without the server. -/
theorem route_of_misformed (h : r.Misformed status) :
    route server now identifier r = return .bare status := by
  cases h with
  | method path noOptions notAllowed =>
    rw [route_of_path path noOptions, notAllowed, if_neg Bool.false_ne_true]
  | mediaType path post takesBody notJson =>
    rw [route_of_post path post takesBody]
    refine handle_of_readBody takesBody fun read => ?_
    unfold readBody
    rw [notJson]
    exact if_pos rfl
  | size path post takesBody isJson tooLong =>
    rw [route_of_post path post takesBody]
    refine handle_of_readBody takesBody fun read => ?_
    unfold readBody
    rw [isJson, if_neg (by decide)]
    exact if_pos tooLong

/-- A login that is refused is told no more than that. -/
theorem response_of_submits {e : ProtocolError} (h : r.Submits m)
    (he : e.isAuthenticationFailure = true)
    (hlogin : (server.login now m s left).1.1 = .error e) :
    (route server now identifier r s left).1.1 = denied := by
  rw [route_of_call server now s left (h.call? identifier)]
  show (ServerAnswer.loggedIn (server.login now m s left).1.1).response = denied
  rw [hlogin]
  exact ofError_of_isAuthenticationFailure he

theorem status_ne_ok_of_submits {e : ProtocolError} (h : r.Submits m)
    (he : e.isAuthenticationFailure = true)
    (hlogin : (server.login now m s left).1.1 = .error e) :
    (route server now identifier r s left).1.1.status ≠ 200 := by
  rw [response_of_submits h he hlogin]
  decide

section

variable (hanswers : ∀ attempt, ∃ answer, server.authenticate attempt = .ok answer)
  (hindex : ∀ index record, s.preKeys.live? index now.tick = some record →
    record.index.length ≤ LoginServer.indexHead.length + LoginServer.identifierLength)
  (hnow : now.wall.IsRepresentable) (hleft : LoginServer.loginEntropyLength ≤ left.length)
include hanswers hindex hnow hleft

/-- A login that does not succeed is refused, and takes what is kept under its index. -/
theorem route_of_submits (h : r.Submits m) (hi : m.i ≠ "") (hd : m.d ≠ "")
    (hstatus : (route server now identifier r s left).1.1.status ≠ 200) :
    route server now identifier r s left
      = ((denied, ⟨s.preKeys.erase m.i, s.sessions⟩), left) := by
  have hroute := route_of_call server now s left (h.call? identifier)
  have hperform : server.perform (.login m) now s left
      = ((.loggedIn (server.login now m s left).1.1, (server.login now m s left).1.2),
        (server.login now m s left).2) := rfl
  rw [hperform] at hroute
  rcases LoginServer.login_eq_ok_or_refused hanswers (hindex m.i) hnow hleft hi hd with
    ⟨response, hlogin⟩ | ⟨e, he, hlogin⟩
  · rw [hroute, hlogin] at hstatus
    exact absurd rfl hstatus
  · rw [hroute, hlogin]
    show ((Response.ofError e, _), _) = _
    rw [ofError_of_isAuthenticationFailure he]

theorem status_response_lt (request : ServerRequest) :
    (server.perform request now s left).1.1.response.status < 500 := by
  have hok : ∀ body, (Response.ok body).status < 500 := fun _ => (by decide : 200 < 500)
  cases request with
  | issue name message =>
    have hissue : SessionKeyMaterial.entropyLength ≤ left.length :=
      Nat.le_trans (by decide) hleft
    show (ServerAnswer.issued (server.issuePreKey now.tick name message s left).1.1).response.status
      < 500
    cases h : (server.issuePreKey now.tick name message s left).1.1 with
    | ok _ => exact hok _
    | error e => exact status_ofError_lt (LoginServer.blamesCaller_of_issuePreKey hissue h)
  | login message =>
    show (ServerAnswer.loggedIn (server.login now message s left).1.1).response.status < 500
    cases h : (server.login now message s left).1.1 with
    | ok _ => exact hok _
    | error e =>
      exact status_ofError_lt
        (LoginServer.blamesCaller_of_login hanswers (hindex message.i) hnow hleft h)
  | logout token =>
    show (ServerAnswer.loggedOut (LoginServer.logout now.tick token s left).1.1).response.status
      < 500
    cases h : (LoginServer.logout now.tick token s left).1.1 with
    | ok _ => exact hok _
    | error e => exact status_ofError_lt (LoginServer.blamesCaller_of_logout h)
  | resolve token =>
    show (ServerAnswer.resolved (server.resolve now.tick token s left).1.1).response.status < 500
    cases h : (server.resolve now.tick token s left).1.1 with
    | ok _ => exact hok _
    | error e => exact status_ofError_lt (LoginServer.blamesCaller_of_resolve h)
  | purge => exact hok _

/-- No request makes the server fail. -/
theorem status_route_lt (r : Request) (identifier : String) :
    (route server now identifier r s left).1.1.status < 500 := by
  cases hcall : r.call? identifier with
  | none =>
    obtain ⟨answer, hstatus, hroute⟩ := route_of_none hcall
    rw [hroute]
    exact hstatus
  | some request =>
    rw [route_of_call server now s left hcall]
    exact status_response_lt hanswers hindex hnow hleft request

end

/-- A token that is not live is refused, wherever it is offered. -/
theorem route_of_offers (h : r.Offers token) (hlive : s.sessions.live? token now.tick = none) :
    (route server now identifier r s left).1.1 = denied := by
  have htoken := Request.ne_empty_of_bearerToken? h.token
  rcases h.call? identifier with hcall | hcall
  · rw [route_of_call server now s left hcall]
    show (ServerAnswer.loggedOut (LoginServer.logout now.tick token s left).1.1).response = denied
    rw [LoginServer.result_of_logout now.tick s left htoken, hlive]
    rfl
  · rw [route_of_call server now s left hcall]
    show (ServerAnswer.resolved (server.resolve now.tick token s left).1.1).response = denied
    rw [LoginServer.result_of_resolve server now.tick s left htoken, hlive]
    rfl

/-! ### Visits -/

/-- The visit is no request that comes with a longer identifier. -/
def Visit.NamesShortly (v : Visit) : Prop :=
  ∀ r identifier, v.event = .request r identifier →
    identifier.length ≤ LoginServer.identifierLength

theorem namesShortly_of_mem_calls {visits : List Visit} (hvisits : ∀ v ∈ visits, v.NamesShortly)
    {c : ServerCall} (hc : c ∈ calls visits) : LoginServer.NamesShortly c := by
  obtain ⟨⟨event, now, left⟩, hmem, hcall⟩ := List.mem_filterMap.1 hc
  rintro name message hissue
  cases event with
  | timer =>
    cases hcall
    cases hissue
  | request r identifier =>
    obtain ⟨request, hrequest, rfl⟩ := Option.map_eq_some_iff.1 hcall
    obtain rfl : request = .issue name message := hissue
    rw [Request.eq_identifier_of_call? hrequest]
    exact hvisits _ hmem r identifier rfl

theorem length_index_of_attended {visits : List Visit} (hvisits : ∀ v ∈ visits, v.NamesShortly)
    (index : String) (record : PreKeyRecord)
    (h : (attended server visits).preKeys.live? index now.tick = some record) :
    record.index.length ≤ LoginServer.indexHead.length + LoginServer.identifierLength := by
  rw [attended_eq_run] at h
  exact LoginServer.length_index_of_live (fun c => namesShortly_of_mem_calls hvisits) h

/-- In a run whose clock has shown no later time, a token is dead if none of its sessions stands. -/
theorem live?_attended_eq_none_iff {visits : List Visit} {now : Tick}
    (hclock : ClockReads (calls visits) now) :
    (attended server visits).sessions.live? token now = none ↔
      ∀ session, session.token = token → ¬server.Stands (calls visits) session now := by
  rw [attended_eq_run, Option.eq_none_iff_forall_ne_some]
  simp only [ne_eq, LoginServer.live_session_iff hclock, not_and]

/-! ### Requests as they are sent -/

/-- A login of the given media type. -/
def Request.ofLogin (mediaType : String) (m : LoginRequest) : Request :=
  ⟨"POST", "/self/login", [("content-type", mediaType)], m.toJson⟩

theorem Request.mediaType?_json (method target body : String) :
    (Request.mk method target [("content-type", "application/json")] body).mediaType?
      = some ⟨"application", "json", none⟩ := by
  have hparse : MediaType.parse? "application/json" = some ⟨"application", "json", none⟩ := by
    decide +kernel
  exact hparse

theorem Request.path_ofLogin (mediaType : String) (m : LoginRequest) :
    (ofLogin mediaType m).path = "/self/login" := by
  have hpath : (Target.ofText "/self/login").path = "/self/login" := by decide +kernel
  exact hpath

theorem Request.submits_ofLogin (hsize : m.toJson.utf8ByteSize ≤ bodyLimit) :
    (ofLogin "application/json" m).Submits m :=
  ⟨rfl, path_ofLogin _ m, ⟨_, mediaType?_json _ _ _, rfl⟩, hsize, m.ofJson_toJson⟩

/-- A client's request for a pre-key. -/
def Request.ofPreKey (m : PreKeyRequest) : Request :=
  ⟨"POST", "/self/prekey", [("content-type", "application/json")], m.toJson⟩

theorem Request.path_ofPreKey (m : PreKeyRequest) : (ofPreKey m).path = "/self/prekey" := by
  have hpath : (Target.ofText "/self/prekey").path = "/self/prekey" := by decide +kernel
  exact hpath

theorem Request.call?_ofPreKey {m : PreKeyRequest} (hsize : m.toJson.utf8ByteSize ≤ bodyLimit)
    (identifier : String) : (ofPreKey m).call? identifier = some (.issue identifier m) :=
  call?_of_readBody_preKey rfl (path_ofPreKey m)
    (readBody_eq_ok (by rw [ofPreKey, mediaType?_json]; rfl) hsize m.ofJson_toJson) identifier

/-- A request to end the session of a token. -/
def Request.ofLogout (method token : String) : Request :=
  ⟨method, "/self/logout", [("authorization", "Bearer " ++ token)], ""⟩

theorem Request.path_ofLogout (method token : String) :
    (ofLogout method token).path = "/self/logout" := by
  have hpath : (Target.ofText "/self/logout").path = "/self/logout" := by decide +kernel
  exact hpath

theorem Request.offers_ofLogout (htoken : (ofLogout "POST" token).bearerToken? = some token) :
    (ofLogout "POST" token).Offers token :=
  ⟨rfl, .inl (path_ofLogout _ _), htoken⟩

/-- A login with an envelope of so many zeros. -/
def zeros (n : Nat) : LoginRequest := ⟨"x", String.ofList (List.replicate n '0')⟩

theorem zeros_d_ne_empty {n : Nat} (h : 0 < n) : (zeros n).d ≠ "" := by
  intro hempty
  have hnil := (List.replicate_eq_nil_iff _).1 (String.ofList_eq_empty_iff.1 hempty)
  omega

theorem lt_utf8ByteSize_zeros (n : Nat) : n < (zeros n).toJson.utf8ByteSize := by
  refine Nat.lt_of_lt_of_le ?_ (Utf8.length_le_utf8ByteSize _)
  have hzeros : ((List.replicate n '0').flatMap JsonText.escapeChar).length = n := by
    rw [List.length_flatMap, List.map_replicate, List.sum_replicate_nat]
    exact Nat.mul_one _
  rw [zeros, LoginRequest.fields]
  simp only [JsonText.printMembers, JsonText.printValue, JsonText.printString, String.toList_ofList,
    List.length_append, List.length_cons, hzeros]
  omega

theorem Request.misformed_ofLogin (hsize : bodyLimit < m.toJson.utf8ByteSize) :
    (ofLogin "application/json" m).Misformed 413 :=
  .size (path_ofLogin _ m) rfl (.inr rfl) (by rw [ofLogin, mediaType?_json]; rfl) hsize

/-! ### The outcome -/

/-- Let the users be those of an accepted file, whoever has visited the router so far, and let there
be random bytes for one more request. All logins with an index that are read and do not succeed have
the same response and leave the same, whatever is wrong with them. All requests with tokens that are
not live have the same response; such a token was never issued, or its session has ended or expired.
No request is answered as if the server had failed. A request in a form that its endpoint does not
read has a response of its own, which tells about that form only, and leaves everything. -/
theorem refusals_indistinguishable (text : String) (file : CredentialFile) (server : LoginServer)
    (visits : List Visit) (s : ServerState) (left : Entropy)
    (hfile : CredentialFile.parse text = .ok file)
    (hserver : server.authenticate = file.authenticate)
    (hvisits : ∀ v ∈ visits, v.NamesShortly) (hs : s = attended server visits)
    (hleft : 112 ≤ left.length) :
    (∀ r r' m m' now now' identifier identifier', Request.Submits r m → Request.Submits r' m' →
      m.i = m'.i → m.i ≠ "" → m.d ≠ "" → m'.d ≠ "" →
      now.wall.IsRepresentable → now'.wall.IsRepresentable →
      (route server now identifier r s left).1.1.status ≠ 200 →
      (route server now' identifier' r' s left).1.1.status ≠ 200 →
      route server now identifier r s left = ((denied, ⟨s.preKeys.erase m.i, s.sessions⟩), left)
        ∧ route server now' identifier' r' s left = route server now identifier r s left)
    ∧ (∀ r r' token token' now now' identifier identifier' rest rest',
      Request.Offers r token → Request.Offers r' token' →
      s.sessions.live? token now.tick = none → s.sessions.live? token' now'.tick = none →
      (route server now identifier r s rest).1.1 = denied
        ∧ (route server now' identifier' r' s rest').1.1
          = (route server now identifier r s rest).1.1)
    ∧ (∀ token now, ClockReads (calls visits) now → (s.sessions.live? token now = none ↔
      ∀ session, session.token = token → ¬server.Stands (calls visits) session now))
    ∧ (∀ r now identifier, now.wall.IsRepresentable →
      (route server now identifier r s left).1.1.status < 500)
    ∧ ∀ r status now identifier rest, Request.Misformed r status →
      route server now identifier r s rest = ((.bare status, s), rest) := by
  subst hs
  obtain ⟨-, -, -, haccepted⟩ := CredentialFile.parse_eq_ok_iff.1 hfile
  have hanswers : ∀ attempt, ∃ answer, server.authenticate attempt = .ok answer := by
    rw [hserver]
    exact haccepted.exists_answer
  refine ⟨?_, ?_, ?_, ?_, ?_⟩
  · intro r r' m m' now now' identifier identifier' hr hr' hi hne hd hd' hnow hnow' hstatus hstatus'
    have hroute := route_of_submits hanswers (length_index_of_attended hvisits) hnow hleft hr hne hd
      hstatus
    have hroute' := route_of_submits hanswers (length_index_of_attended hvisits) hnow' hleft hr'
      (hi ▸ hne) hd' hstatus'
    rw [hroute, hroute', hi]
    exact ⟨rfl, rfl⟩
  · intro r r' token token' now now' identifier identifier' rest rest' hr hr' hlive hlive'
    rw [route_of_offers hr hlive, route_of_offers hr' hlive']
    exact ⟨rfl, rfl⟩
  · exact fun token now hclock => live?_attended_eq_none_iff hclock
  · intro r now identifier hnow
    exact status_route_lt hanswers (length_index_of_attended hvisits) hnow hleft r identifier
  · intro r status now identifier rest hr
    rw [route_of_misformed hr]
    rfl

open Encounter

/-- The user of the login after the leap second, under another login id. -/
def otherUser : UserEntry := { boundUser with loginId := "b" }

theorem accepted_otherUser : CredentialFile.Accepted [otherUser] :=
  ⟨by simpa using ⟨_, parse?_boundUser⟩, List.nodup_singleton _⟩

/-- The server of that login, if it knows only this user. -/
def otherServer : LoginServer :=
  ⟨(CredentialFile.mk [otherUser]).authenticate, leap.server.lifetimes⟩

/-- The client of that login comes for its pre-key. -/
def leapVisit : Visit :=
  ⟨.request (.ofPreKey (PreKeySent.mk leap.client).request) leap.identifier,
    ⟨leap.sealedAt, leap.issuedAt⟩, leap.issueEntropy⟩

theorem namesShortly_leapVisit : leapVisit.NamesShortly := by
  rintro _ _ ⟨⟩
  decide

theorem attended_leapVisit : attended otherServer [leapVisit] = leap.issued leapKeys := by
  have hsize : (PreKeySent.mk leap.client).request.toJson.utf8ByteSize ≤ bodyLimit := by
    refine Nat.le_trans (PreKeyRequest.utf8ByteSize_toJson_le _) ?_
    simp only [PreKeySent.request, SessionKeyMaterial.bundle, SigningIdentity.length_publicHex,
      ExchangeKeyPair.length_publicHex]
    decide
  have hcall : leapVisit.call? = some leap.issueCall :=
    congrArg (Option.map _) (Request.call?_ofPreKey hsize _)
  rw [attended_eq_run, calls, List.filterMap_cons, hcall]
  exact run_issueCall honest_leap rfl rfl

theorem live_preKey_leapVisit :
    (attended otherServer [leapVisit]).preKeys.live? leap.index leap.loginAt.tick
      = some (leap.preKey leapKeys) := by
  rw [attended_leapVisit]
  exact ExpiringTable.live?_insert_start _ _ _ honest_leap.in_time

theorem live_session_leapVisit (token : String) (now : Tick) :
    (attended otherServer [leapVisit]).sessions.live? token now = none := by
  rw [attended_leapVisit]
  rfl

/-- The letter z is no hexadecimal digit. -/
theorem readLogin_notHex (server : LoginServer) (now : Instant) (record : PreKeyRecord) :
    server.readLogin now record "zz" = .error (.decode (.record (.notHex (.badDigit 122 0)))) :=
  rfl

theorem readLogin_otherServer {envelope : String} (hseals : leap.Seals leapKeys envelope) :
    otherServer.readLogin leap.loginAt.wall (leap.preKey leapKeys) envelope
      = .error .invalidCredential := by
  have hnone : (CredentialFile.mk [otherUser]).lookup leap.credentials.attempt.loginId = none := by
    decide
  exact LoginServer.readLogin_of_authenticate_eq_none hseals.opens (ofPayloads_eq honest_leap)
    (CredentialFile.authenticate_of_lookup_eq_none hnone)

theorem result_of_readLogin_leapVisit {d : String} {e : ProtocolError} (hd : d ≠ "")
    (h : otherServer.readLogin leap.loginAt.wall (leap.preKey leapKeys) d = .error e) :
    (otherServer.login leap.loginAt ⟨leap.index, d⟩ (attended otherServer [leapVisit]) left).1.1
      = .error e := by
  have hlogin := @LoginServer.login_of_readLogin_eq_error otherServer
    (attended otherServer [leapVisit]) left _ e leap.loginAt ⟨leap.index, d⟩ leap.index_ne_empty hd
    live_preKey_leapVisit h
  rw [hlogin]

theorem submits_leap {envelope : String} (hseals : leap.Seals leapKeys envelope) :
    (Request.ofLogin "application/json" ⟨leap.index, envelope⟩).Submits
      ⟨leap.index, envelope⟩ := by
  obtain ⟨hpack, -, -⟩ := KeysDerived.login_eq_ok_iff.1 hseals.sent
  have hlength := Envelope.length_of_pack hpack ciphertext_leapRequest (by decide +kernel)
  have hciphertext : Envelope.leapCiphertext.length = 192 := by decide +kernel
  have hindex : leap.index.length = 8 := by decide +kernel
  refine Request.submits_ofLogin (Nat.le_trans (LoginRequest.utf8ByteSize_toJson_le _) ?_)
  rw [hindex, hlength, hciphertext]
  decide

/-- A client has a pre-key from a server that does not know its user. Whether it sends an envelope
that is as it should be or one that is none, the two failures look the same, and leave the same. So
do two tokens that were never issued. -/
theorem refusals_indistinguishable_leap :
    ∃ envelope s, ∃ answer : Request → (Response × ServerState) × Entropy,
    leap.Seals leapKeys envelope ∧ attended otherServer [leapVisit] = s
    ∧ (∀ r, route otherServer leap.loginAt "" r s leap.loginEntropy = answer r)
    ∧ s.preKeys.live? leap.index leap.loginAt.tick = some (leap.preKey leapKeys)
    ∧ (otherServer.login leap.loginAt ⟨leap.index, envelope⟩ s leap.loginEntropy).1.1
      = .error .invalidCredential
    ∧ (otherServer.login leap.loginAt ⟨leap.index, "zz"⟩ s leap.loginEntropy).1.1
      = .error (.decode (.record (.notHex (.badDigit 122 0))))
    ∧ answer (.ofLogin "application/json" ⟨leap.index, "zz"⟩)
      = answer (.ofLogin "application/json" ⟨leap.index, envelope⟩)
    ∧ (answer (.ofLogout "POST" "1")).1.1 = (answer (.ofLogout "POST" "0")).1.1
    ∧ (answer (.ofLogin "application/json" ⟨leap.index, envelope⟩)).1.1.status < 500
    ∧ answer (.ofLogout "GET" "0") = ((.bare 405, s), leap.loginEntropy) := by
  obtain ⟨envelope, hseals⟩ := exists_seals honest_leap
  -- The state and the answers get names of their own, so that nothing below computes them.
  obtain ⟨s, hs⟩ : ∃ s, attended otherServer [leapVisit] = s := ⟨_, rfl⟩
  obtain ⟨answer, hanswer⟩ : ∃ answer : Request → (Response × ServerState) × Entropy,
      ∀ r, route otherServer leap.loginAt "" r s leap.loginEntropy = answer r := ⟨_, fun _ => rfl⟩
  have hnow : leap.loginAt.wall.IsRepresentable := honest_leap.login_utc.toIsRepresentable
  have hunknown : (otherServer.login leap.loginAt ⟨leap.index, envelope⟩ s leap.loginEntropy).1.1
      = .error .invalidCredential := by
    rw [← hs]
    exact result_of_readLogin_leapVisit hseals.ne_empty (readLogin_otherServer hseals)
  have hgarbled : (otherServer.login leap.loginAt ⟨leap.index, "zz"⟩ s leap.loginEntropy).1.1
      = .error (.decode (.record (.notHex (.badDigit 122 0)))) := by
    rw [← hs]
    exact result_of_readLogin_leapVisit (by decide) (readLogin_notHex _ _ _)
  have hsubmits := submits_leap hseals
  have hsubmits' : (Request.ofLogin "application/json" ⟨leap.index, "zz"⟩).Submits
      ⟨leap.index, "zz"⟩ := Request.submits_ofLogin (by decide +kernel)
  obtain ⟨hlogins, htokens, -, hnone, hforms⟩ := refusals_indistinguishable _ _ otherServer
    [leapVisit] s leap.loginEntropy (CredentialFile.parse_printList accepted_otherUser) rfl
    (by simpa using namesShortly_leapVisit) hs.symm honest_leap.login_entropy
  have hdead : ∀ token, s.sessions.live? token leap.loginAt.tick = none := by
    intro token
    rw [← hs]
    exact live_session_leapVisit token _
  refine ⟨envelope, s, answer, hseals, hs, hanswer, hs ▸ live_preKey_leapVisit, hunknown, hgarbled,
    ?_, ?_, ?_, ?_⟩
  · rw [← hanswer, ← hanswer]
    exact (hlogins _ _ _ _ _ _ _ _ hsubmits hsubmits' rfl leap.index_ne_empty hseals.ne_empty
      (by decide) hnow hnow (status_ne_ok_of_submits hsubmits rfl hunknown)
      (status_ne_ok_of_submits hsubmits' rfl hgarbled)).2
  · rw [← hanswer, ← hanswer]
    exact (htokens _ _ "0" "1" _ _ _ _ _ _ (Request.offers_ofLogout (by decide +kernel))
      (Request.offers_ofLogout (by decide +kernel)) (hdead "0") (hdead "1")).2
  · rw [← hanswer]
    exact hnone _ _ _ hnow
  · have hpath : (Request.ofLogout "GET" "0").path = Endpoint.path .logout :=
      Request.path_ofLogout _ _
    rw [← hanswer]
    exact hforms _ _ _ _ _ (.method hpath (by decide) (by decide))

/-- What is not read is told apart by its form: a login by the length of its envelope or by its
media type, a token by the method it is sent with. -/
theorem refusals_told_apart_by_form :
    let server : LoginServer := ⟨CredentialFile.empty.authenticate, .standard⟩
    let status (r : Request) : Nat :=
      (route server default "" r (attended server []) (List.replicate 112 0)).1.1.status
    CredentialFile.parse "[]" = .ok .empty
      ∧ (zeros 2).i = "x" ∧ (zeros bodyLimit).i = "x" ∧ (zeros 2).d ≠ ""
      ∧ (zeros bodyLimit).d ≠ ""
      ∧ LoginRequest.ofJson (Request.ofLogin "application/json" (zeros 2)).body = .ok (zeros 2)
      ∧ LoginRequest.ofJson (Request.ofLogin "application/json" (zeros bodyLimit)).body
        = .ok (zeros bodyLimit)
      ∧ status (.ofLogin "application/json" (zeros 2)) = 401
      ∧ status (.ofLogin "application/json" (zeros bodyLimit)) = 413
      ∧ status (.ofLogin "text/plain" (zeros 2)) = 415
      ∧ Request.bearerToken? (.ofLogout "POST" "0") = some "0"
      ∧ Request.bearerToken? (.ofLogout "GET" "0") = some "0"
      ∧ status (.ofLogout "POST" "0") = 401 ∧ status (.ofLogout "GET" "0") = 405 := by
  intro server status
  have hlong : (route server default "" (.ofLogin "application/json" (zeros bodyLimit))
      (attended server []) (List.replicate 112 0)).1.1.status = 413 := by
    rw [route_of_misformed (Request.misformed_ofLogin (lt_utf8ByteSize_zeros bodyLimit))]
    rfl
  exact ⟨by decide +kernel, rfl, rfl, zeros_d_ne_empty (by decide), zeros_d_ne_empty (by decide),
    (zeros 2).ofJson_toJson, (zeros bodyLimit).ofJson_toJson, by decide +kernel, hlong,
    by decide +kernel, by decide +kernel, by decide +kernel, by decide +kernel,
    by decide +kernel⟩

end SealedLogin.Http
