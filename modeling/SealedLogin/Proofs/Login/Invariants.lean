import SealedLogin.Proofs.Login.Effects
import SealedLogin.Proofs.Login.Network

/-!
# What holds of every network that can come about

The records that the server keeps belong to issues, each to the one of its index, and none of them
has served a login; every login took such a record (`Network.Inv`). Each step keeps this
(`Inv.step`), so that it holds after every run (`inv_of_reachable`). Where a login or a client
relies on a signature, the invariants name the one who made it.
-/

namespace SealedLogin.Network

variable {server : LoginServer} {n n' : Network}

/-! ### Invariants -/

/-- Honest signing keys tell their owners apart. -/
structure KeysApart (n : Network) : Prop where
  clients : ∀ c c' x x', n.clients c = some x → n.clients c' = some x' → x.key = x'.key → c = c'
  issues : ∀ i ∈ n.issues, ∀ j ∈ n.issues, i.key = j.key → i = j
  apart : ∀ c x, n.clients c = some x → ∀ i ∈ n.issues, x.key ≠ i.key

/-- The pre-key is what the server answers, and its request was sent if it counts as delivered. -/
def Issued (server : LoginServer) (n : Network) (i : Issue) : Prop :=
  i.response = server.responseFor i.index i.material ∧ (i.delivered → n.HasSent i.request)

/-- The login took the record of a pre-key. If the request for that was a client's, the envelope is
signed by the client. -/
def Logged (server : LoginServer) (n : Network) (l : Login) : Prop :=
  (∃ response after, l.Succeeds server response after)
    ∧ ∃ i ∈ n.issues, ∃ record, i.index = l.index ∧ l.record? = some record ∧ i.Keeps record
      ∧ (i.delivered → ∃ c x m, n.clients c = some x ∧ x.sent.request = i.request
        ∧ Envelope.Verified x.key l.request.d m ∧ x.Signs m)

/-- The client has what it has from the steps of a login, and took the answer of the owner of the
key that it was to be signed with. -/
structure Sound (n : Network) (x : Client) : Prop where
  agreement : ∀ a, x.agreement = some a → x.sent.deriveKeys a.response = .ok a.derived
    ∧ (a.delivered → n.HasGiven a.response)
  sealing : ∀ z, x.sealing = some z → ∃ a rest, x.agreement = some a
    ∧ a.derived.login z.now z.credentials z.entropy = (.ok (z.waiting, z.request), rest)
  session : ∀ e, x.session = some e → ∃ z now response ttl, x.sealing = some z
    ∧ z.waiting.finish now response ttl = .ok e
    ∧ ∀ a, x.agreement = some a → a.delivered →
      ∀ m, Envelope.Verified z.waiting.serverSigningKey response.d m →
        n.SignedBy z.waiting.serverSigningKey m

/-- What holds of every network that can come about. -/
structure Inv (server : LoginServer) (n : Network) : Prop where
  keys : n.KeysApart
  indices : ∀ i ∈ n.issues, ∀ j ∈ n.issues, i.index = j.index → i = j
  issued : ∀ i ∈ n.issues, n.Issued server i
  kept : ∀ index record, n.server.preKeys.Contains index record →
    (∃ i ∈ n.issues, i.index = index ∧ i.Keeps record) ∧ ∀ l ∈ n.logins, l.index ≠ index
  single : (n.logins.map Login.index).Nodup
  logged : ∀ l ∈ n.logins, n.Logged server l
  sound : ∀ c x, n.clients c = some x → n.Sound x

theorem Grows.issued {i : Issue} (h : n.Grows n') (hi : n.Issued server i) : n'.Issued server i :=
  ⟨hi.1, fun hdelivered => h.hasSent (hi.2 hdelivered)⟩

theorem Grows.logged {l : Login} (h : n.Grows n') (hl : n.Logged server l) :
    n'.Logged server l := by
  obtain ⟨hsucceeds, i, hi, record, hindex, hrecord, hkeeps, hsigned⟩ := hl
  refine ⟨hsucceeds, i, h.issues i hi, record, hindex, hrecord, hkeeps, fun hdelivered => ?_⟩
  obtain ⟨c, x, m, hx, hrequest, hverified, hm⟩ := hsigned hdelivered
  obtain ⟨x', hx', hext⟩ := h.clients c x hx
  refine ⟨c, x', m, hx', by rw [hext.sent, hrequest], ?_, hext.signs hm⟩
  rw [hext.key]
  exact hverified

theorem Grows.sound {x : Client} (h : n.Grows n') (hx : n.Sound x) : n'.Sound x := by
  refine ⟨fun a ha => ?_, hx.sealing, fun e he => ?_⟩
  · obtain ⟨hderive, hgiven⟩ := hx.agreement a ha
    exact ⟨hderive, fun hdelivered => h.hasGiven (hgiven hdelivered)⟩
  · obtain ⟨z, now, response, ttl, hz, hfinish, hsigned⟩ := hx.session e he
    refine ⟨z, now, response, ttl, hz, hfinish, fun a ha hdelivered m hm => ?_⟩
    exact h.signedBy (hsigned a ha hdelivered m hm)

/-! ### Keys -/

/-- If no key is new, the keys stay apart. -/
theorem KeysApart.of_keys (h : n.KeysApart)
    (hclients : ∀ c y, n'.clients c = some y → ∃ x, n.clients c = some x ∧ x.key = y.key)
    (hissues : n'.issues = n.issues) : n'.KeysApart := by
  refine ⟨fun c c' y y' hy hy' hkey => ?_, hissues ▸ h.issues, fun c y hy i hi => ?_⟩
  · obtain ⟨x, hx, hxy⟩ := hclients c y hy
    obtain ⟨x', hx', hxy'⟩ := hclients c' y' hy'
    exact h.clients c c' x x' hx hx' (hxy.trans (hkey.trans hxy'.symm))
  · obtain ⟨x, hx, hxy⟩ := hclients c y hy
    rw [← hxy]
    exact h.apart c x hx i (hissues ▸ hi)

theorem KeysApart.put {c : Nat} {x x' : Client} (h : n.KeysApart) (hx : n.clients c = some x)
    (hkey : x'.key = x.key) : (n.put c x').KeysApart := by
  refine h.of_keys (fun c' y hy => ?_) rfl
  obtain ⟨rfl, rfl⟩ | ⟨-, hy⟩ := clients_put_eq_some hy
  · exact ⟨x, hx, hkey.symm⟩
  · exact ⟨y, hy, rfl⟩

theorem KeysApart.start {c : Nat} {x : Client} (h : n.KeysApart) (hfresh : ¬n.IsHonest x.key) :
    (n.put c x).KeysApart := by
  refine ⟨fun c₁ c₂ y y' hy hy' hkey => ?_, h.issues, fun c₁ y hy i hi => ?_⟩
  · obtain ⟨rfl, rfl⟩ | ⟨-, hold⟩ := clients_put_eq_some hy
    · obtain ⟨rfl, -⟩ | ⟨-, hold'⟩ := clients_put_eq_some hy'
      · rfl
      · exact absurd (.inl ⟨c₂, y', hold', hkey.symm⟩) hfresh
    · obtain ⟨rfl, rfl⟩ | ⟨-, hold'⟩ := clients_put_eq_some hy'
      · exact absurd (.inl ⟨c₁, y, hold, hkey⟩) hfresh
      · exact h.clients c₁ c₂ y y' hold hold' hkey
  · obtain ⟨rfl, rfl⟩ | ⟨-, hold⟩ := clients_put_eq_some hy
    · exact fun hkey => hfresh (.inr ⟨i, hi, hkey.symm⟩)
    · exact h.apart c₁ y hold i hi

theorem KeysApart.issue {i : Issue} {s : ServerState} (h : n.KeysApart)
    (hfresh : ¬n.IsHonest i.key) :
    ({ n with server := s, issues := i :: n.issues } : Network).KeysApart := by
  refine ⟨h.clients, fun j hj k hk hkey => ?_, fun c x hx j hj => ?_⟩
  · obtain rfl | hold := List.mem_cons.1 hj
    · obtain rfl | hold' := List.mem_cons.1 hk
      · rfl
      · exact absurd (.inr ⟨k, hold', hkey.symm⟩) hfresh
    · obtain rfl | hold' := List.mem_cons.1 hk
      · exact absurd (.inr ⟨j, hold, hkey⟩) hfresh
      · exact h.issues j hold k hold' hkey
  · obtain rfl | hold := List.mem_cons.1 hj
    · exact fun hkey => hfresh (.inl ⟨c, x, hx, hkey⟩)
    · exact h.apart c x hx j hold

theorem KeysApart.step (h : n.KeysApart) (hstep : Step server n n') : n'.KeysApart := by
  cases hstep with
  | start _ _ hfresh => exact h.start hfresh
  | derive hx _ _ => exact h.put hx rfl
  | submit hx _ _ _ => exact h.put hx rfl
  | finish hx _ _ _ _ => exact h.put hx rfl
  | issue _ hfresh _ => exact h.issue hfresh
  | login _ _ => exact ⟨h.clients, h.issues, h.apart⟩
  | other _ => exact ⟨h.clients, h.issues, h.apart⟩

/-! ### The store -/

/-- A call that grants nothing adds nothing to the store of pre-keys. -/
theorem contains_of_after {s : ServerState} {call : ServerCall} {index : String}
    {record : PreKeyRecord} (hgrants : ¬Grants server s call)
    (h : (server.after s call).preKeys.Contains index record) :
    s.preKeys.Contains index record := by
  obtain ⟨e, hmem, rfl⟩ := h
  rcases LoginServer.mem_preKeys_after hmem with ⟨record, hissues, -, -⟩ | ⟨-, hold⟩
  · obtain ⟨identifier, request, response, rest, hc, -, hissue⟩ := hissues
    unfold Grants at hgrants
    rw [hc] at hgrants
    exact absurd ⟨_, _, _, hissue⟩ hgrants
  · exact ⟨e, hold, rfl⟩

/-! ### Owners -/

theorem Issue.Keeps.serverSigning {i : Issue} {record : PreKeyRecord} (h : i.Keeps record) :
    record.serverSigning = i.material.signing := by
  obtain ⟨client, keys, -, -, rfl⟩ := h
  rfl

theorem Issue.Keeps.index {i : Issue} {record : PreKeyRecord} (h : i.Keeps record) :
    record.index = i.index := by
  obtain ⟨client, keys, -, -, rfl⟩ := h
  rfl

/-- The record for the request of a client has the key of that client. -/
theorem Issue.Keeps.clientSigningKey {i : Issue} {record : PreKeyRecord} {x : Client}
    (h : i.Keeps record) (hrequest : x.sent.request = i.request) :
    record.clientSigningKey = x.key := by
  obtain ⟨client, keys, hclient, -, rfl⟩ := h
  rw [← hrequest] at hclient
  obtain ⟨-, -, -, hsigning, -, -⟩ := PreKeyRequest.keys_eq_ok_iff.1 hclient
  exact SigningIdentity.eq_publicKey_of_ofHex hsigning

/-- A response that the server gave has the key of its issue. -/
theorem Issued.serverSigningKey {i : Issue} {sent : PreKeySent} {derived : KeysDerived}
    (h : n.Issued server i) (hderive : sent.deriveKeys i.response = .ok derived) :
    derived.serverSigningKey = i.key := by
  rw [h.1] at hderive
  obtain ⟨-, -, -, -, hsigning, -⟩ := PreKeySent.deriveKeys_eq_ok_iff.1 hderive
  exact SigningIdentity.eq_publicKey_of_ofHex hsigning

/-- What is signed by a client's key was signed by the client. -/
theorem Inv.signs_of_signedBy {c : Nat} {x : Client} {m : Bytes} (h : n.Inv server)
    (hx : n.clients c = some x) (hm : n.SignedBy x.key m) : x.Signs m := by
  obtain ⟨c', y, hy, hkey, hsigns⟩ | ⟨l, hl, record, hrecord, hkey, -⟩ := hm
  · obtain rfl := h.keys.clients c' c y x hy hx hkey
    rw [hx] at hy
    cases hy
    exact hsigns
  · obtain ⟨-, i, hi, record', -, hrecord', hkeeps, -⟩ := h.logged l hl
    rw [hrecord] at hrecord'
    cases hrecord'
    rw [hkeeps.serverSigning] at hkey
    exact absurd hkey.symm (h.keys.apart c x hx i hi)

/-- What is signed by the key of an issue was signed in a login with its index. -/
theorem Inv.exists_login_of_signedBy {i : Issue} {m : Bytes} (h : n.Inv server) (hi : i ∈ n.issues)
    (hm : n.SignedBy i.key m) : ∃ l ∈ n.logins, l.index = i.index ∧ l.SignsWith i.key m := by
  obtain ⟨c, x, hx, hkey, -⟩ | ⟨l, hl, hsigns⟩ := hm
  · exact absurd hkey (h.keys.apart c x hx i hi)
  · obtain ⟨record, hrecord, hkey, -⟩ := id hsigns
    obtain ⟨-, j, hj, record', hindex, hrecord', hkeeps, -⟩ := h.logged l hl
    rw [hrecord] at hrecord'
    cases hrecord'
    rw [hkeeps.serverSigning] at hkey
    obtain rfl := h.keys.issues j hj i hi hkey
    exact ⟨l, hl, hindex.symm, hsigns⟩

/-! ### Steps -/

/-- What an issue answers, and the record that it keeps. -/
theorem issued_of_issuePreKey {s after : ServerState} {now : Tick} {identifier : String}
    {request : PreKeyRequest} {response : PreKeyResponse} {entropy rest : Entropy}
    (delivered : Prop)
    (h : server.issuePreKey now identifier request s entropy = ((.ok response, after), rest)) :
    response = server.responseFor (LoginServer.indexHead ++ identifier) (.ofEntropy entropy)
      ∧ ∃ record, Issue.Keeps ⟨request, .ofEntropy entropy, response, delivered⟩ record
        ∧ after.preKeys = s.preKeys.put record now server.lifetimes.preKey := by
  obtain ⟨client, record, hclient, hanswer, rfl⟩ := LoginServer.issuePreKey_eq_ok_iff.1 h
  obtain ⟨-, ⟨keys, hkeys, rfl⟩, rfl, -⟩ := LoginServer.answerPreKey_eq_ok_iff.1 hanswer
  exact ⟨rfl, _, ⟨client, keys, hclient, hkeys, rfl⟩, rfl⟩

/-- A client that goes on soundly keeps the invariants. -/
theorem Inv.put {c : Nat} {x : Client} (h : n.Inv server) (hgrows : n.Grows (n.put c x))
    (hkeys : (n.put c x).KeysApart) (hsound : (n.put c x).Sound x) : (n.put c x).Inv server where
  keys := hkeys
  indices := h.indices
  issued := fun i hi => hgrows.issued (h.issued i hi)
  kept := h.kept
  single := h.single
  logged := fun l hl => hgrows.logged (h.logged l hl)
  sound := by
    intro c' y hy
    obtain ⟨rfl, rfl⟩ | ⟨-, hold⟩ := clients_put_eq_some hy
    · exact hsound
    · exact hgrows.sound (h.sound c' y hold)

/-- The answer that a client takes was signed by the owner of the key. -/
theorem Inv.signedBy_of_unforged {c : Nat} {x : Client} {a : Agreement} {z : Sealing}
    {text : String} {m : Bytes} (h : n.Inv server) (hx : n.clients c = some x)
    (ha : x.agreement = some a) (hz : x.sealing = some z) (hdelivered : a.delivered)
    (hunforged : n.Unforged text) (hm : Envelope.Verified z.waiting.serverSigningKey text m) :
    n.SignedBy z.waiting.serverSigningKey m := by
  obtain ⟨a', rest, ha', hlogin⟩ := (h.sound c x hx).sealing z hz
  rw [ha] at ha'
  cases ha'
  obtain ⟨hderive, hgiven⟩ := (h.sound c x hx).agreement a ha
  obtain ⟨i, hi, hresponse⟩ := hgiven hdelivered
  rw [← hresponse] at hderive
  obtain ⟨-, hwaiting, -⟩ := KeysDerived.login_eq_ok_iff.1 hlogin
  have hkey : z.waiting.serverSigningKey = i.key := by
    rw [hwaiting]
    exact (h.issued i hi).serverSigningKey hderive
  exact hunforged _ m (.inr ⟨i, hi, hkey.symm⟩) hm

/-- An issue under a new index leaves the issues told apart by their indices. -/
theorem Inv.indices_cons {i : Issue} (h : n.Inv server) (hnew : ∀ j ∈ n.issues, j.index ≠ i.index) :
    ∀ j ∈ i :: n.issues, ∀ k ∈ i :: n.issues, j.index = k.index → j = k := by
  intro j hj k hk hjk
  obtain rfl | hold := List.mem_cons.1 hj
  · obtain rfl | hold' := List.mem_cons.1 hk
    · rfl
    · exact absurd hjk.symm (hnew k hold')
  · obtain rfl | hold' := List.mem_cons.1 hk
    · exact absurd hjk (hnew j hold)
    · exact h.indices j hold k hold' hjk

theorem Inv.issue {now : Tick} {identifier : String} {request : PreKeyRequest}
    {entropy rest : Entropy} {response : PreKeyResponse} {after : ServerState} (h : n.Inv server)
    (hissue : server.issuePreKey now identifier request n.server entropy
      = ((.ok response, after), rest))
    (hfresh : ¬n.IsHonest (SessionKeyMaterial.ofEntropy entropy).signing.publicKey)
    (hindex : ∀ i ∈ n.issues, i.index ≠ LoginServer.indexHead ++ identifier) :
    ({ n with
      server := after
      issues := ⟨request, .ofEntropy entropy, response, n.HasSent request⟩ :: n.issues }
      : Network).Inv server := by
  have hgrows := Step.grows (Step.issue hissue hfresh hindex)
  obtain ⟨hresponse, record, hkeeps, hafter⟩ := issued_of_issuePreKey (n.HasSent request) hissue
  have hnew : response.i = LoginServer.indexHead ++ identifier := by rw [hresponse]; rfl
  refine ⟨h.keys.issue hfresh, h.indices_cons fun j hj => ?_, ?_, ?_, h.single,
    fun l hl => hgrows.logged (h.logged l hl), fun c x hx => hgrows.sound (h.sound c x hx)⟩
  · show j.index ≠ response.i
    rw [hnew]
    exact hindex j hj
  · intro i hi
    obtain rfl | hold := List.mem_cons.1 hi
    · refine ⟨?_, fun hsent => hgrows.hasSent hsent⟩
      show response = server.responseFor response.i _
      rw [hnew]
      exact hresponse
    · exact hgrows.issued (h.issued i hold)
  · intro index kept hkept
    dsimp only at hkept
    rw [hafter, PreKeyStore.put, ExpiringTable.contains_insert_iff] at hkept
    obtain ⟨rfl, rfl⟩ | ⟨-, hkept⟩ := hkept
    · refine ⟨⟨_, .head _, ?_, hkeeps⟩, fun l hl => ?_⟩
      · exact hkeeps.index.symm
      · obtain ⟨-, i, hi, -, hil, -⟩ := h.logged l hl
        have hne := hindex i hi
        rw [hil, ← hnew] at hne
        exact fun heq => hne (heq.trans hkeeps.index)
    · obtain ⟨⟨i, hi, hiindex, hikeeps⟩, hlogins⟩ := h.kept index kept hkept
      exact ⟨⟨i, .tail _ hi, hiindex, hikeeps⟩, hlogins⟩

theorem Inv.login {now : Moment} {request : LoginRequest} {entropy rest : Entropy}
    {response : LoginResponse} {after : ServerState} (h : n.Inv server)
    (hunforged : n.Unforged request.d)
    (hlogin : server.login now request n.server entropy = ((.ok response, after), rest)) :
    ({ n with server := after, logins := ⟨n.server, now, request, entropy⟩ :: n.logins }
      : Network).Inv server := by
  have hgrows := Step.grows (Step.login hunforged hlogin)
  obtain ⟨-, -, record, user, session, hlive, huser, -, hafter⟩ :=
    LoginServer.login_eq_ok_iff.1 hlogin
  obtain ⟨⟨i, hi, hindex, hkeeps⟩, hunused⟩ :=
    h.kept request.i record (ExpiringTable.contains_of_live? hlive)
  obtain ⟨payloads, attempt, hunpack, -, -⟩ := LoginServer.readLogin_eq_ok_iff.1 huser
  obtain ⟨m, -, hverified, -⟩ := Envelope.exists_verified_of_unpack hunpack
  refine ⟨⟨h.keys.clients, h.keys.issues, h.keys.apart⟩, h.indices,
    fun i hi => hgrows.issued (h.issued i hi), ?_, ?_, ?_,
    fun c x hx => hgrows.sound (h.sound c x hx)⟩
  · intro index kept hkept
    dsimp only at hkept
    rw [hafter, ExpiringTable.contains_erase_iff] at hkept
    obtain ⟨hold, hlogins⟩ := h.kept index kept hkept.2
    refine ⟨hold, fun l hl => ?_⟩
    obtain rfl | hl := List.mem_cons.1 hl
    · exact hkept.1.symm
    · exact hlogins l hl
  · refine List.nodup_cons.2 ⟨fun hmem => ?_, h.single⟩
    obtain ⟨l, hl, hlindex⟩ := List.mem_map.1 hmem
    exact hunused l hl hlindex
  · intro l hl
    obtain rfl | hl := List.mem_cons.1 hl
    · refine ⟨⟨response, after, rest, hlogin⟩, i, hi, record, hindex, hlive, hkeeps,
        fun hdelivered => ?_⟩
      obtain ⟨c, x, hx, hrequest⟩ := (h.issued i hi).2 hdelivered
      rw [hkeeps.clientSigningKey hrequest] at hverified
      have hsigned := hunforged x.key m (.inl ⟨c, x, hx, rfl⟩) hverified
      exact ⟨c, x, m, hx, hrequest, hverified, h.signs_of_signedBy hx hsigned⟩
    · exact hgrows.logged (h.logged l hl)

theorem Inv.other {call : ServerCall} (h : n.Inv server) (hgrants : ¬Grants server n.server call) :
    ({ n with server := server.after n.server call } : Network).Inv server := by
  have hgrows := Step.grows (Step.other hgrants)
  refine ⟨⟨h.keys.clients, h.keys.issues, h.keys.apart⟩, h.indices,
    fun i hi => hgrows.issued (h.issued i hi), fun index record hkept => ?_, h.single,
    fun l hl => hgrows.logged (h.logged l hl), fun c x hx => hgrows.sound (h.sound c x hx)⟩
  exact h.kept index record (contains_of_after hgrants hkept)

theorem Inv.initial : Network.initial.Inv server where
  keys := ⟨fun _ _ _ _ h => absurd h not_clients_initial, fun _ h => absurd h List.not_mem_nil,
    fun _ _ h => absurd h not_clients_initial⟩
  indices := fun _ h => absurd h List.not_mem_nil
  issued := fun _ h => absurd h List.not_mem_nil
  kept := fun _ _ h => absurd h ExpiringTable.not_contains_empty
  single := List.nodup_nil
  logged := fun _ h => absurd h List.not_mem_nil
  sound := fun _ _ h => absurd h not_clients_initial

theorem Inv.step (h : n.Inv server) (hstep : Step server n n') : n'.Inv server := by
  have hkeys := h.keys.step hstep
  have hgrows := hstep.grows
  cases hstep with
  | start _ _ _ =>
    exact h.put hgrows hkeys ⟨nofun, nofun, nofun⟩
  | derive hx hnone hderive =>
    have hold := h.sound _ _ hx
    have hsealing : ∀ z, _ ≠ some z := fun z hz => by
      obtain ⟨a, -, ha, -⟩ := hold.sealing z hz
      rw [hnone] at ha
      cases ha
    refine h.put hgrows hkeys ⟨?_, fun z hz => absurd hz (hsealing z), fun e he => ?_⟩
    · intro a ha
      cases ha
      exact ⟨hderive, fun hgiven => hgrows.hasGiven hgiven⟩
    · obtain ⟨z, -, -, -, hz, -⟩ := hold.session e he
      exact absurd hz (hsealing z)
  | submit hx ha hnone hlogin =>
    have hold := h.sound _ _ hx
    refine h.put hgrows hkeys ⟨fun a' ha' => ?_, fun z hz => ?_, fun e he => ?_⟩
    · exact (hgrows.sound hold).agreement a' ha'
    · cases hz
      exact ⟨_, _, ha, hlogin⟩
    · obtain ⟨z, -, -, -, hz, -⟩ := hold.session e he
      rw [hnone] at hz
      cases hz
  | finish hx hz hnone hunforged hfinish =>
    have hold := h.sound _ _ hx
    refine h.put hgrows hkeys ⟨fun a ha => ?_, hold.sealing, fun e he => ?_⟩
    · exact (hgrows.sound hold).agreement a ha
    · cases he
      refine ⟨_, _, _, _, hz, hfinish, fun a ha hdelivered m hm => ?_⟩
      exact hgrows.signedBy (h.signedBy_of_unforged hx ha hz hdelivered hunforged hm)
  | issue hissue hfresh hindex => exact h.issue hissue hfresh hindex
  | login hunforged hlogin => exact h.login hunforged hlogin
  | other hgrants => exact h.other hgrants

theorem inv_of_reachable (h : Reachable server n) : n.Inv server := by
  induction h with
  | refl => exact Inv.initial
  | tail _ hstep ih => exact ih.step hstep

end SealedLogin.Network
