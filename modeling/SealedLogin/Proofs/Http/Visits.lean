import SealedLogin.Http.Router
import SealedLogin.Proofs.Login.Purging

/-!
# What comes through the router

A request either asks for a call to the server (`Request.call?`), and then its response renders what
the server answers and nothing else happens (`route_of_call`), or it is answered without the server,
by a response that depends on nothing but the request (`route_of_none`). So what the visits
of a router leave is what the calls among them leave (`attended_eq_run`), and all that is known of
runs of a server is known of them.
-/

namespace SealedLogin

/-- The response to what the server answers. -/
def ServerAnswer.response : ServerAnswer → Http.Response
  | .issued (.ok m) => .ok (.object m.fields)
  | .loggedIn (.ok m) => .ok (.object m.fields)
  | .loggedOut (.ok _) => .ok (.object [])
  | .resolved (.ok session) => .ok (.object (Http.detailFields session))
  | .purged (.ok _) => .ok .empty
  | .issued (.error e) | .loggedIn (.error e) | .loggedOut (.error e) | .resolved (.error e)
  | .purged (.error e) => .ofError e

namespace Http

variable {r : Request} {identifier : String} {request : ServerRequest}

/-! ### Requests -/

/-- What the endpoint asks of the server. -/
def Endpoint.call? (identifier : String) (r : Request) : Endpoint → Option ServerRequest
  | .preKey => (readBody PreKeyRequest.ofJson r).toOption.map (.issue identifier)
  | .login => (readBody LoginRequest.ofJson r).toOption.map .login
  | .logout => r.bearerToken?.map .logout
  | .detail => r.bearerToken?.map .resolve
  | .health => none

/-- What a request asks of the server; nothing if it goes to no endpoint, or is not in the form that
its endpoint wants. -/
def Request.call? (r : Request) (identifier : String) : Option ServerRequest :=
  if r.method == "OPTIONS" then none
  else
    (Endpoint.ofPath? r.path).bind fun endpoint =>
      if endpoint.allows r.method then endpoint.call? identifier r else none

/-- A pre-key is asked for under the identifier that came with the request. -/
theorem Request.eq_identifier_of_call? {name : String} {message : PreKeyRequest}
    (h : r.call? identifier = some (.issue name message)) : name = identifier := by
  unfold Request.call? at h
  split_ifs at h
  obtain ⟨endpoint, -, h⟩ := Option.bind_eq_some_iff.1 h
  split_ifs at h
  cases endpoint <;> simp only [Endpoint.call?, Option.map_eq_some_iff, reduceCtorEq, and_false,
    exists_false] at h
  obtain ⟨_, -, h⟩ := h
  cases h
  rfl

theorem respond_apply {α : Type} {call : ServerStep α} {success : α → Body} {s : ServerState}
    {left : Entropy} (wrap : Except ProtocolError α → ServerAnswer)
    (hok : ∀ a, (wrap (.ok a)).response = .ok (success a))
    (herror : ∀ e, (wrap (.error e)).response = .ofError e) :
    respond call success s left =
      (((wrap (call s left).1.1).response, (call s left).1.2), (call s left).2) := by
  unfold respond
  dsimp only [bind, StateT.bind, ExceptT.run]
  rcases call s left with ⟨⟨e | a, mid⟩, rest⟩
  · rw [herror]
    rfl
  · rw [hok]
    rfl

section

variable {α : Type} {read : String → Except JsonText.Fault α} {ask : α → ServerRequest}
  {askToken : String → ServerRequest} {refusal : Response}

theorem withBody_of_call (h : (readBody read r).toOption.map ask = some request) :
    ∃ a, ask a = request ∧ ∀ call, withBody read r call = call a := by
  unfold withBody
  cases hbody : readBody read r with
  | error refusal =>
    rw [hbody] at h
    cases h
  | ok a =>
    rw [hbody] at h
    exact ⟨a, Option.some.inj h, fun _ => rfl⟩

theorem withToken_of_call (h : r.bearerToken?.map askToken = some request) :
    ∃ token, askToken token = request ∧ ∀ call, withToken r call = call token := by
  obtain ⟨token, htoken, hrequest⟩ := Option.map_eq_some_iff.1 h
  unfold withToken
  rw [htoken]
  exact ⟨token, hrequest, fun _ => rfl⟩

theorem status_of_readBody (h : readBody read r = .error refusal) : refusal.status < 500 := by
  unfold readBody at h
  split_ifs at h
  · cases h
    decide
  · cases h
    decide
  · split at h <;> cases h <;> decide

theorem withBody_of_none (h : (readBody read r).toOption.map ask = none) :
    ∃ refusal : Response, refusal.status < 500 ∧ ∀ call, withBody read r call = return refusal := by
  unfold withBody
  cases hbody : readBody read r with
  | error refusal => exact ⟨refusal, status_of_readBody hbody, fun _ => rfl⟩
  | ok a =>
    rw [hbody] at h
    cases h

theorem withToken_of_none (h : r.bearerToken?.map askToken = none) (call : String → Handler) :
    withToken r call = return .ofError (.missingParameter "authorization") := by
  unfold withToken
  rw [Option.map_eq_none_iff.1 h]

end

theorem handle_of_call {endpoint : Endpoint} (server : LoginServer) (now : Moment)
    (s : ServerState) (left : Entropy) (h : endpoint.call? identifier r = some request) :
    endpoint.handle server now identifier r s left =
      (((server.perform request now s left).1.1.response, (server.perform request now s left).1.2),
        (server.perform request now s left).2) := by
  cases endpoint with
  | preKey =>
    obtain ⟨message, rfl, hbody⟩ := withBody_of_call h
    rw [Endpoint.handle, hbody]
    exact respond_apply .issued (fun _ => rfl) (fun _ => rfl)
  | login =>
    obtain ⟨message, rfl, hbody⟩ := withBody_of_call h
    rw [Endpoint.handle, hbody]
    exact respond_apply .loggedIn (fun _ => rfl) (fun _ => rfl)
  | logout =>
    obtain ⟨token, rfl, htoken⟩ := withToken_of_call h
    rw [Endpoint.handle, htoken]
    exact respond_apply .loggedOut (fun _ => rfl) (fun _ => rfl)
  | detail =>
    obtain ⟨token, rfl, htoken⟩ := withToken_of_call h
    rw [Endpoint.handle, htoken]
    exact respond_apply .resolved (fun _ => rfl) (fun _ => rfl)
  | health => cases h

/-- A request that asks for a call is answered by what comes of the call. -/
theorem route_of_call (server : LoginServer) (now : Moment) (s : ServerState) (left : Entropy)
    (h : r.call? identifier = some request) : route server now identifier r s left =
      (((server.perform request now s left).1.1.response, (server.perform request now s left).1.2),
        (server.perform request now s left).2) := by
  unfold Request.call? at h
  unfold route
  split_ifs at h ⊢ with hoptions
  obtain ⟨endpoint, hpath, h⟩ := Option.bind_eq_some_iff.1 h
  rw [hpath]
  dsimp only
  split_ifs at h ⊢ with hallows
  exact handle_of_call server now s left h

theorem handle_of_none {endpoint : Endpoint} (h : endpoint.call? identifier r = none) :
    ∃ answer : Response, answer.status < 500 ∧ ∀ server now,
      endpoint.handle server now identifier r = return answer := by
  cases endpoint with
  | preKey =>
    obtain ⟨refusal, hstatus, hbody⟩ := withBody_of_none h
    exact ⟨refusal, hstatus, fun _ _ => hbody _⟩
  | login =>
    obtain ⟨refusal, hstatus, hbody⟩ := withBody_of_none h
    exact ⟨refusal, hstatus, fun _ _ => hbody _⟩
  | logout => exact ⟨_, (by decide : 400 < 500), fun _ _ => withToken_of_none h _⟩
  | detail => exact ⟨_, (by decide : 400 < 500), fun _ _ => withToken_of_none h _⟩
  | health => exact ⟨_, (by decide : 200 < 500), fun _ _ => rfl⟩

/-- A request that asks for no call is answered without the server, and not as if it had failed. -/
theorem route_of_none (h : r.call? identifier = none) : ∃ answer : Response,
    answer.status < 500 ∧ ∀ server now, route server now identifier r = return answer := by
  unfold Request.call? at h
  unfold route
  split_ifs at h ⊢ with hoptions
  · exact ⟨.ok .empty, by decide, fun _ _ => rfl⟩
  · cases hpath : Endpoint.ofPath? r.path with
    | none => exact ⟨.bare 404, by decide, fun _ _ => rfl⟩
    | some endpoint =>
      rw [hpath, Option.bind_some] at h
      dsimp only
      split_ifs at h ⊢ with hallows
      · exact handle_of_none h
      · exact ⟨.bare 405, by decide, fun _ _ => rfl⟩

/-! ### One visit after another -/

/-- What comes to a router: a request, with the identifier for the pre-key that it may ask for, or
the time to purge. -/
inductive Event where
  | request (r : Request) (identifier : String)
  | timer

/-- An event at a moment, with the random bytes that are there for it. -/
structure Visit where
  event : Event
  now : Moment
  entropy : Entropy

/-- What the visit asks of the server. -/
def Visit.call? (v : Visit) : Option ServerCall :=
  match v.event with
  | .request r identifier => (r.call? identifier).map (⟨·, v.now, v.entropy⟩)
  | .timer => some ⟨.purge, v.now, v.entropy⟩

/-- What the server keeps after a visit. -/
def afterVisit (server : LoginServer) (s : ServerState) (v : Visit) : ServerState :=
  match v.event with
  | .request r identifier => (route server v.now identifier r s v.entropy).1.2
  | .timer => s.purge v.now.tick

/-- What the server keeps after visits one after another, from the beginning. -/
def attended (server : LoginServer) (visits : List Visit) : ServerState :=
  visits.foldl (afterVisit server) .empty

/-- The calls among the visits. -/
def calls (visits : List Visit) : List ServerCall := visits.filterMap Visit.call?

theorem afterVisit_eq (server : LoginServer) (s : ServerState) (v : Visit) :
    afterVisit server s v = (v.call?.elim s (server.after s)) := by
  obtain ⟨event, now, left⟩ := v
  cases event with
  | timer => rfl
  | request r identifier =>
    show (route server now identifier r s left).1.2 = _
    rw [Visit.call?]
    dsimp only
    cases hcall : r.call? identifier with
    | none =>
      obtain ⟨answer, -, hroute⟩ := route_of_none hcall
      rw [hroute]
      rfl
    | some request =>
      rw [route_of_call server now s left hcall]
      exact LoginServer.state_of_perform server request now s left

/-- What a router leaves is what the calls that come through it leave. -/
theorem attended_eq_run (server : LoginServer) (visits : List Visit) :
    attended server visits = server.run .empty (calls visits) := by
  unfold attended LoginServer.run calls
  generalize ServerState.empty = s
  induction visits generalizing s with
  | nil => rfl
  | cons v visits ih =>
    rw [List.foldl_cons, ih, afterVisit_eq, List.filterMap_cons]
    cases v.call? with
    | none => rfl
    | some c => rfl

end Http

end SealedLogin
