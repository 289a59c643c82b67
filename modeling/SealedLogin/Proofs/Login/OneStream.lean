import SealedLogin.Proofs.Login.Draws

/-!
# Operations on one stream

Clients and a server draw from one stream, operation after operation. What each secret is made from
is told by `LoginServer.Makes`, and where in the stream it stands by `segmentsFrom`.
-/

namespace SealedLogin

/-! ### What a plan makes of its draws -/

theorem SessionKeyMaterial.yields_plan_iff {ε : Type} {ds : List Drawn}
    {material : SessionKeyMaterial} :
    (plan : Plan (Except ε SessionKeyMaterial)).Yields ds (.ok material) ↔
      ∃ seed secret1 secret2, ds
          = [(.signingSeed, seed), (.exchangeSecret, secret1), (.exchangeSecret, secret2)]
        ∧ material = ⟨⟨seed⟩, ⟨secret1⟩, ⟨secret2⟩⟩ := by
  simp only [plan, Plan.yields_draw_iff, Plan.yields_done_iff]
  constructor
  · rintro ⟨seed, _, rfl, secret1, _, rfl, secret2, _, rfl, h, rfl⟩
    cases h
    exact ⟨seed, secret1, secret2, rfl, rfl⟩
  · rintro ⟨seed, secret1, secret2, rfl, rfl⟩
    exact ⟨seed, _, rfl, secret1, _, rfl, secret2, _, rfl, rfl, rfl⟩

theorem Envelope.yields_plan_iff {now : Instant} {index : String} {signer : SigningIdentity}
    {key : SymmetricKey} {payloads : List Record} {ds : List Drawn} {text : String} :
    (plan now index signer key payloads).Yields ds (.ok text) ↔
      ∃ nonce initVector, ds = [(.nonce, nonce), (.initVector, initVector)]
        ∧ sealed now index signer key payloads nonce initVector = .ok text := by
  simp only [plan, sealPlan, sealed, Plan.yields_check_iff, Plan.yields_draw_iff,
    Plan.yields_done_iff, bind_eq_ok_iff, ofWrite_eq_ok_iff]
  constructor
  · rintro ⟨data, hdata, nonce, _, rfl, plaintext, hplaintext, initVector, _, rfl, htext, rfl⟩
    exact ⟨nonce, initVector, rfl, data, hdata, plaintext, hplaintext,
      ofWrite_eq_ok_iff.1 htext.symm⟩
  · rintro ⟨nonce, initVector, rfl, data, hdata, plaintext, hplaintext, htext⟩
    exact ⟨data, hdata, nonce, _, rfl, plaintext, hplaintext, initVector, [], rfl,
      (ofWrite_eq_ok_iff.2 htext).symm, rfl⟩

namespace LoginServer

variable {server : LoginServer} {s : ServerState} {left : Entropy}

/-- The number of bytes that an operation takes when it succeeds. -/
def demand : Operation → Nat
  | .start => 96
  | .sendLogin _ _ _ => 48
  | .pack _ _ _ _ _ => 48
  | .serve (.issue _ _) _ => 96
  | .serve (.login _) _ => 112
  | .deriveKeys _ _ | .finish _ _ _ _ | .serve (.logout _) _ | .serve (.resolve _) _
  | .serve .purge _ => 0

/-- The operations that draw, when they succeed: the secrets in what they give and keep are made
from the bytes that were drawn for them. Other operations draw nothing. -/
inductive Makes (server : LoginServer) (s : ServerState) :
    Operation → List Drawn → Outcome × ServerState → Prop where
  | start (seed secret1 secret2 : Bytes) :
      Makes server s .start
        [(.signingSeed, seed), (.exchangeSecret, secret1), (.exchangeSecret, secret2)]
        (.started (.ok ⟨⟨⟨seed⟩, ⟨secret1⟩, ⟨secret2⟩⟩⟩), s)
  | sendLogin {derived : KeysDerived} {now : Instant} {credentials : Credentials}
      {nonce initVector : Bytes} {text : String}
      (h : Envelope.sealed now derived.index derived.signing derived.keys.clientToServer
        credentials.payloads nonce initVector = .ok text) :
      Makes server s (.sendLogin derived now credentials)
        [(.nonce, nonce), (.initVector, initVector)]
        (.loginSent (.ok (⟨derived.index, derived.serverSigningKey, derived.keys.serverToClient⟩,
          ⟨derived.index, text⟩)), s)
  | pack {now : Instant} {index : String} {signer : SigningIdentity} {key : SymmetricKey}
      {payloads : List Record} {nonce initVector : Bytes} {text : String}
      (h : Envelope.sealed now index signer key payloads nonce initVector = .ok text) :
      Makes server s (.pack now index signer key payloads)
        [(.nonce, nonce), (.initVector, initVector)] (.packed (.ok text), s)
  | issue {identifier : String} {request : PreKeyRequest} {now : Moment} {client : ClientKeys}
      {seed secret1 secret2 : Bytes} {keys : DirectionalKeys} (hclient : request.keys = .ok client)
      (hkeys : (SessionKeyMaterial.mk ⟨seed⟩ ⟨secret1⟩ ⟨secret2⟩).derive client.exchange1
        client.exchange2 = .ok keys) :
      Makes server s (.serve (.issue identifier request) now)
        [(.signingSeed, seed), (.exchangeSecret, secret1), (.exchangeSecret, secret2)]
        (.issued (.ok (server.responseFor (indexHead ++ identifier)
            ⟨⟨seed⟩, ⟨secret1⟩, ⟨secret2⟩⟩)),
          ⟨s.preKeys.put (recordFor (indexHead ++ identifier) client
            ⟨⟨seed⟩, ⟨secret1⟩, ⟨secret2⟩⟩ keys) now.tick server.lifetimes.preKey, s.sessions⟩)
  | login {request : LoginRequest} {now : Moment} {record : PreKeyRecord}
      {user : AuthenticatedUser} {secret nonce initVector : Bytes} {text : String}
      (hread : server.readRequest now request s = .ok (record, user))
      (h : Envelope.sealed now.wall record.index record.serverSigning record.keys.serverToClient
        [Record.ofString (Hex.encode secret)] nonce initVector = .ok text) :
      Makes server s (.serve (.login request) now)
        [(.token, secret), (.nonce, nonce), (.initVector, initVector)]
        (.loggedIn (.ok ⟨text⟩), ⟨(taken request s).preKeys, (taken request s).sessions.put
          ⟨Hex.encode secret, user, now.wall⟩ now.tick server.lifetimes.session⟩)
  | silent {op : Operation} {result : Outcome × ServerState} (hop : demand op = 0)
      (h : server.plan op s = .done result) : Makes server s op [] result

theorem exists_ok_of_failure {α : Type} {result : Except ProtocolError α}
    (h : failureOf result = none) : ∃ a, result = .ok a := by
  cases result with
  | ok a => exact ⟨a, rfl⟩
  | error e => cases h

theorem makes_of_yields_issue {identifier : String} {request : PreKeyRequest} {now : Moment}
    {ds : List Drawn} {result : Outcome × ServerState}
    (h : (server.plan (.serve (.issue identifier request) now) s).Yields ds result)
    (hok : result.1.failure = none) :
    server.Makes s (.serve (.issue identifier request) now) ds result := by
  obtain ⟨_ | ⟨record, response⟩, hplan, rfl⟩ := Plan.yields_map_iff.1 h
  · cases hok
  obtain ⟨client, hclient, hanswer⟩ := Plan.yields_check_iff.1 hplan
  obtain ⟨material, front, _, hmaterial, hagreed, rfl⟩ := Plan.yields_andThen_iff.1 hanswer
  obtain ⟨seed, secret1, secret2, rfl, rfl⟩ := SessionKeyMaterial.yields_plan_iff.1 hmaterial
  obtain ⟨keys, hkeys, hdone⟩ := Plan.yields_check_iff.1 hagreed
  obtain ⟨hrecord, rfl⟩ := Plan.yields_done_iff.1 hdone
  cases hrecord
  exact .issue hclient (mapError_eq_ok_iff.1 hkeys)

theorem makes_of_yields_login {request : LoginRequest} {now : Moment} {ds : List Drawn}
    {result : Outcome × ServerState}
    (h : (server.plan (.serve (.login request) now) s).Yields ds result)
    (hok : result.1.failure = none) : server.Makes s (.serve (.login request) now) ds result := by
  obtain ⟨_ | ⟨session, response⟩, hplan, rfl⟩ := Plan.yields_map_iff.1 h
  · cases hok
  obtain ⟨⟨record, user⟩, hread, hsession⟩ := Plan.yields_check_iff.1 hplan
  obtain ⟨secret, _, rfl, hreply⟩ := Plan.yields_draw_iff.1 hsession
  obtain ⟨text, htext, hanswer⟩ := Plan.yields_andThen_done_iff.1 hreply
  obtain ⟨nonce, initVector, rfl, hsealed⟩ := Envelope.yields_plan_iff.1 htext
  cases hanswer
  exact .login hread hsealed

/-- What a plan comes to when it succeeds is what is listed. -/
theorem makes_of_yields {op : Operation} {ds : List Drawn} {result : Outcome × ServerState}
    (h : (server.plan op s).Yields ds result) (hok : result.1.failure = none) :
    server.Makes s op ds result := by
  cases op with
  | start =>
    obtain ⟨_, hplan, rfl⟩ := Plan.yields_map_iff.1 h
    obtain ⟨sent, rfl⟩ := exists_ok_of_failure hok
    obtain ⟨material, hmaterial, rfl⟩ := Plan.yields_andThen_done_iff.1 hplan
    obtain ⟨seed, secret1, secret2, rfl, rfl⟩ := SessionKeyMaterial.yields_plan_iff.1 hmaterial
    exact .start seed secret1 secret2
  | deriveKeys =>
    obtain ⟨rfl, rfl⟩ := Plan.yields_done_iff.1 h
    exact .silent rfl rfl
  | sendLogin derived now credentials =>
    obtain ⟨_, hplan, rfl⟩ := Plan.yields_map_iff.1 h
    obtain ⟨sent, rfl⟩ := exists_ok_of_failure hok
    obtain ⟨text, htext, rfl⟩ := Plan.yields_andThen_done_iff.1 hplan
    obtain ⟨nonce, initVector, rfl, hsealed⟩ := Envelope.yields_plan_iff.1 htext
    exact .sendLogin hsealed
  | finish =>
    obtain ⟨rfl, rfl⟩ := Plan.yields_done_iff.1 h
    exact .silent rfl rfl
  | pack =>
    obtain ⟨_, hplan, rfl⟩ := Plan.yields_map_iff.1 h
    obtain ⟨text, rfl⟩ := exists_ok_of_failure hok
    obtain ⟨nonce, initVector, rfl, hsealed⟩ := Envelope.yields_plan_iff.1 hplan
    exact .pack hsealed
  | serve request now =>
    cases request with
    | issue => exact makes_of_yields_issue h hok
    | login => exact makes_of_yields_login h hok
    | logout =>
      obtain ⟨rfl, rfl⟩ := Plan.yields_done_iff.1 h
      exact .silent rfl rfl
    | resolve =>
      obtain ⟨rfl, rfl⟩ := Plan.yields_done_iff.1 h
      exact .silent rfl rfl
    | purge =>
      obtain ⟨rfl, rfl⟩ := Plan.yields_done_iff.1 h
      exact .silent rfl rfl

/-- An operation that succeeds makes its secrets from what it drew. -/
theorem makes_of_ok {op : Operation} (h : (server.operate op s left).1.1.failure = none) :
    server.Makes s op ((server.plan op s).drawn left) (server.operate op s left).1 := by
  rw [operate_eq] at h ⊢
  have hlacking : (server.plan op s).lacking left = none := by
    cases hlack : (server.plan op s).lacking left with
    | none => rfl
    | some use =>
      have hshort := (Plan.run_of_lacking (short op s) hlack).1
      rw [hshort, failure_short] at h
      cases h
  exact makes_of_yields (Plan.yields_of_lacking_eq_none _ hlacking) h

theorem sum_of_makes {op : Operation} {ds : List Drawn} {result : Outcome × ServerState}
    (h : server.Makes s op ds result) : ((ds.map (·.1)).map Use.length).sum = demand op := by
  cases h with
  | silent hop _ => exact hop.symm
  | _ => rfl

theorem length_bytesOf {ds : List Drawn} (h : ∀ d ∈ ds, d.2.length = d.1.length) :
    (Plan.bytesOf ds).length = ((ds.map (·.1)).map Use.length).sum := by
  rw [Plan.bytesOf, List.length_flatMap, List.map_map]
  congr 1
  exact List.map_congr_left h

/-- An operation that succeeds takes exactly the bytes that it needs. -/
theorem left_of_ok {op : Operation} (h : (server.operate op s left).1.1.failure = none) :
    demand op ≤ left.length ∧ (server.operate op s left).2 = left.drop (demand op) := by
  have hleft := Plan.eq_append_run (short op s) (server.plan op s) left
  have hlength := length_bytesOf fun d hd =>
    @Plan.length_of_mem_drawn _ (server.plan op s) left d hd
  rw [sum_of_makes (makes_of_ok h)] at hlength
  rw [← operate_eq] at hleft
  constructor
  · rw [hleft, List.length_append]
    omega
  · exact (List.drop_left' hlength ▸ congrArg (List.drop (demand op)) hleft).symm

/-! ### Operations that are rejected -/

theorem failsOnly_answerPreKey (server : LoginServer) (index : String) (client : ClientKeys) :
    (server.answerPreKey index client).FailsOnly
      fun e => e.code ≠ "MISSING_PARAMETER" ∧ e.code ≠ "DECODE_ERROR" := by
  have hgenerate : SessionKeyMaterial.generate.FailsOnly (· = .randomUnavailable .exhausted) := by
    refine Drawing.FailsOnly.bind ?_ fun _ => Drawing.FailsOnly.bind ?_ fun _ =>
      Drawing.FailsOnly.bind ?_ fun _ => Drawing.failsOnly_pure _
    all_goals exact (Entropy.failsOnly_drawKeyBytes 32).bind fun _ => Drawing.failsOnly_pure _
  refine (Drawing.failsOnly_adapt hgenerate ?_).bind fun material =>
    (Drawing.failsOnly_ofExcept ?_).bind fun _ => Drawing.failsOnly_pure _
  · rintro _ rfl
    exact ⟨by decide, by decide⟩
  · intro e h
    cases hagreed : material.derive client.exchange1 client.exchange2 with
    | ok keys =>
      rw [hagreed] at h
      cases h
    | error fault =>
      rw [hagreed] at h
      cases h
      simp [ProtocolError.ofCrypto, ProtocolError.code]

/-- An issue that is rejected while its request is read draws nothing. -/
theorem left_of_issuePreKey {now : Tick} {identifier : String} {request : PreKeyRequest}
    {e : ProtocolError} (h : (server.issuePreKey now identifier request s left).1.1 = .error e)
    (he : e.code = "MISSING_PARAMETER" ∨ e.code = "DECODE_ERROR") :
    (server.issuePreKey now identifier request s left).2 = left := by
  rw [issuePreKey, ServerStep.bind_apply, ServerStep.ofExcept_apply] at h ⊢
  cases hkeys : request.keys with
  | error _ => rfl
  | ok client =>
    rw [hkeys] at h
    dsimp only at h
    rw [ServerStep.bind_apply, ServerStep.ofDrawing] at h
    have hfails := server.failsOnly_answerPreKey (indexHead ++ identifier) client left e
    rcases hanswer : server.answerPreKey (indexHead ++ identifier) client left with
      ⟨e' | ⟨record, response⟩, rest⟩
    · rw [hanswer] at h hfails
      cases h
      obtain ⟨hmissing, hdecode⟩ := hfails rfl
      exact (he.elim hmissing hdecode).elim
    · rw [hanswer] at h
      cases h

/-- A login that is rejected before it has a user draws nothing. -/
theorem login_of_readRequest {now : Moment} {request : LoginRequest} {e : ProtocolError}
    (h : server.readRequest now request s = .error e) :
    server.login now request s left = ((.error e, taken request s), left) := by
  have hoperate := server.operate_login request now s left
  rw [plan, h] at hoperate
  rw [operate, ServerStep.operate] at hoperate
  rcases hlogin : server.login now request s left with ⟨⟨result, s'⟩, rest⟩
  rw [hlogin] at hoperate
  cases hoperate
  rfl

end LoginServer

/-! ### Runs -/

/-- Where clients and their server stand: what the server keeps, what is left of the stream, what
came of the operations so far, what they drew, and the draws that found too few bytes. -/
structure Progress where
  state : ServerState
  left : Entropy
  outcomes : List Outcome
  drawn : List Drawn
  lacked : List Use

namespace Progress

/-- Before the first operation. -/
def start (s : ServerState) (stream : Entropy) : Progress := ⟨s, stream, [], [], []⟩

variable (server : LoginServer) (choose : List Outcome → Operation)

/-- One more operation, which may be chosen by what came of those before. -/
def step (p : Progress) : Progress :=
  let op := choose p.outcomes
  let result := server.operate op p.state p.left
  let plan := server.plan op p.state
  ⟨result.1.2, result.2, p.outcomes ++ [result.1.1], p.drawn ++ plan.drawn p.left,
    p.lacked ++ (plan.lacking p.left).toList⟩

/-- Some number of operations one after another. -/
def run : Nat → Progress → Progress
  | 0, p => p
  | n + 1, p => run n (p.step server choose)

/-- The same with another rest of the stream. -/
def withLeft (p : Progress) (more : Entropy) : Progress := { p with left := more }

variable {server choose} {p : Progress} {stream : Entropy}

/-- What was drawn stands at the front of the stream, and every draw got what it asked for. -/
structure Consumes (p : Progress) (stream : Entropy) : Prop where
  eq_append : stream = Plan.bytesOf p.drawn ++ p.left
  length_eq : ∀ d ∈ p.drawn, d.2.length = d.1.length

theorem drawn_step : (p.step server choose).drawn
    = p.drawn ++ (server.plan (choose p.outcomes) p.state).drawn p.left := rfl

theorem left_step (server : LoginServer) (choose : List Outcome → Operation) (p : Progress) :
    p.left = Plan.bytesOf ((server.plan (choose p.outcomes) p.state).drawn p.left)
      ++ (p.step server choose).left := by
  have h := Plan.eq_append_run (LoginServer.short (choose p.outcomes) p.state)
    (server.plan (choose p.outcomes) p.state) p.left
  rwa [← LoginServer.operate_eq] at h

theorem Consumes.step (h : p.Consumes stream) : (p.step server choose).Consumes stream where
  eq_append := by
    rw [drawn_step, Plan.bytesOf_append, List.append_assoc, ← left_step, ← h.eq_append]
  length_eq := by
    intro d hd
    rcases List.mem_append.1 hd with hd | hd
    · exact h.length_eq d hd
    · exact Plan.length_of_mem_drawn hd

theorem Consumes.run (h : p.Consumes stream) (n : Nat) :
    (p.run server choose n).Consumes stream := by
  induction n generalizing p with
  | zero => exact h
  | succ n ih => exact ih h.step

/-- Nothing that was found lacking is forgotten. -/
theorem lacked_prefix_run (n : Nat) (p : Progress) :
    p.lacked <+: (p.run server choose n).lacked := by
  induction n generalizing p with
  | zero => exact List.prefix_rfl
  | succ n ih => exact (List.prefix_append _ _).trans (ih (p.step server choose))

/-- An operation that lacks nothing does the same whatever stands behind what it draws. -/
theorem step_withLeft (h : (p.step server choose).lacked = []) (more : Entropy) :
    (p.withLeft (Plan.bytesOf ((server.plan (choose p.outcomes) p.state).drawn p.left)
      ++ more)).step server choose = (p.step server choose).withLeft more := by
  have hlacking : (server.plan (choose p.outcomes) p.state).lacking p.left = none := by
    have := (List.append_eq_nil_iff.1 h).2
    rwa [Option.toList_eq_nil_iff] at this
  obtain ⟨hrun, hdrawn, hnone⟩ := Plan.append_of_lacking_eq_none
    (LoginServer.short (choose p.outcomes) p.state) hlacking more
  simp only [step, withLeft, LoginServer.operate_eq, hrun, hdrawn, hnone, hlacking]

theorem exists_left_run (n : Nat) (p : Progress) :
    ∃ front, p.left = front ++ (p.run server choose n).left := by
  induction n generalizing p with
  | zero => exact ⟨[], rfl⟩
  | succ n ih =>
    obtain ⟨back, hback⟩ := ih (p.step server choose)
    have hstep := left_step server choose p
    rw [hback, ← List.append_assoc] at hstep
    exact ⟨_, hstep⟩

/-- A run that lacks nothing does the same whatever stands behind what it draws. -/
theorem run_withLeft (n : Nat) {front : Bytes}
    (hp : p.left = front ++ (p.run server choose n).left)
    (h : (p.run server choose n).lacked = []) (more : Entropy) :
    (p.withLeft (front ++ more)).run server choose n = (p.run server choose n).withLeft more := by
  induction n generalizing p front with
  | zero =>
    rw [List.self_eq_append_left.1 hp]
    rfl
  | succ n ih =>
    obtain ⟨back, hback⟩ := @exists_left_run server choose n (p.step server choose)
    have hlacked : (p.step server choose).lacked = [] :=
      List.prefix_nil.1 (h ▸ lacked_prefix_run n (p.step server choose))
    have hfront : front
        = Plan.bytesOf ((server.plan (choose p.outcomes) p.state).drawn p.left) ++ back := by
      refine List.append_cancel_right (hp.symm.trans ((left_step server choose p).trans ?_))
      rw [List.append_assoc, hback]
      rfl
    rw [hfront, List.append_assoc, run, step_withLeft hlacked, ih hback h]
    rfl

end Progress

/-! ### No byte twice -/

namespace LoginServer

/-- The draw that finds too few bytes takes none of them, and the operation fails for it. -/
theorem operate_of_lacking (server : LoginServer) {op : Operation} {s : ServerState}
    {left : Entropy} {use : Use} (h : (server.plan op s).lacking left = some use) :
    (server.operate op s left).1.1.failure = some (.randomUnavailable .exhausted)
      ∧ left = Plan.bytesOf ((server.plan op s).drawn left) ++ (server.operate op s left).2
      ∧ (server.operate op s left).2.length < use.length := by
  obtain ⟨houtcome, hlength⟩ := Plan.run_of_lacking (short op s) h
  rw [operate_eq, houtcome, failure_short]
  exact ⟨rfl, Plan.eq_append_run _ _ _, hlength⟩

/-- However clients and a server go on, each operation chosen by what came of those before, what is
drawn for their secrets are segments of the stream, from its start on, one right behind the other in
the order of the draws, so that no two of them share a byte; and unless a draw finds too few bytes,
the run does the same on every stream that begins with them. Every operation follows its plan. One
that succeeds makes its secrets from what it drew, and takes exactly the bytes that it needs; an
issue that is rejected for its request takes none, nor does a login that is rejected before it has a
user. A draw that finds too few bytes takes none of them, and the operation fails for it. -/
theorem no_byte_drawn_twice (server : LoginServer) :
    (∀ (choose : List Outcome → Operation) (n : Nat) (s : ServerState) (stream : Entropy),
      let p := (Progress.start s stream).run server choose n
      stream = Plan.bytesOf p.drawn ++ p.left
        ∧ (∀ x ∈ segmentsFrom 0 p.drawn, x.bytes.length = x.use.length
          ∧ x.bytes = (stream.drop x.start).take x.use.length)
        ∧ (∀ x ∈ (segmentsFrom 0 p.drawn).head?, x.start = 0)
        ∧ (segmentsFrom 0 p.drawn).IsChain (fun x y => x.stop = y.start)
        ∧ (segmentsFrom 0 p.drawn).Pairwise (fun x y => x.stop ≤ y.start)
        ∧ (p.lacked = [] → ∀ more,
          (Progress.start s (Plan.bytesOf p.drawn ++ more)).run server choose n = p.withLeft more))
    ∧ (∀ op s left, server.operate op s left = (server.plan op s).run (short op s) left)
    ∧ (∀ op s left, (server.operate op s left).1.1.failure = none →
      server.Makes s op ((server.plan op s).drawn left) (server.operate op s left).1
        ∧ demand op ≤ left.length ∧ (server.operate op s left).2 = left.drop (demand op))
    ∧ (∀ now identifier request s left e,
      (server.issuePreKey now identifier request s left).1.1 = .error e →
      e.code = "MISSING_PARAMETER" ∨ e.code = "DECODE_ERROR" →
      (server.issuePreKey now identifier request s left).2 = left)
    ∧ (∀ now request s left e, server.readRequest now request s = .error e →
      server.login now request s left = ((.error e, taken request s), left))
    ∧ ∀ op s left use, (server.plan op s).lacking left = some use →
      (server.operate op s left).1.1.failure = some (.randomUnavailable .exhausted)
        ∧ left = Plan.bytesOf ((server.plan op s).drawn left) ++ (server.operate op s left).2
        ∧ (server.operate op s left).2.length < use.length := by
  refine ⟨fun choose n s stream => ?_, server.operate_eq,
    fun _ _ _ h => ⟨makes_of_ok h, left_of_ok h⟩, fun _ _ _ _ _ _ => left_of_issuePreKey,
    fun _ _ _ _ _ => login_of_readRequest, fun _ _ _ _ => server.operate_of_lacking⟩
  have hstart : (Progress.start s stream).Consumes stream := ⟨rfl, nofun⟩
  obtain ⟨hstream, hlength⟩ := @Progress.Consumes.run server choose _ _ hstart n
  refine ⟨hstream, fun x hx => ?_, fun x hx => ?_, isChain_segmentsFrom _ _,
    pairwise_segmentsFrom _ _, fun hlacked more => ?_⟩
  · have hmem := List.mem_map_of_mem (f := fun x : Segment => (x.use, x.bytes)) hx
    rw [map_segmentsFrom] at hmem
    have hfull := hlength _ hmem
    refine ⟨hfull, ?_⟩
    rw [← hfull, hstream]
    exact @bytes_of_mem [] _ _ _ hx
  · cases hdrawn : ((Progress.start s stream).run server choose n).drawn with
    | nil =>
      rw [hdrawn] at hx
      cases hx
    | cons d ds =>
      rw [hdrawn] at hx
      cases hx
      rfl
  · exact Progress.run_withLeft n hstream hlacked more

/-- With one byte too few for its secrets, a client has drawn for two of them when it fails. -/
example (server : LoginServer) (s : ServerState) :
    (server.plan .start s).lacking (List.replicate 95 0) = some .exchangeSecret := rfl

end LoginServer

end SealedLogin
