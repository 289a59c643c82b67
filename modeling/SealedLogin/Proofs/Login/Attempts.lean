import SealedLogin.Proofs.Login.Steps

/-!
# What the payloads of a login are read as

Two payloads at least are wanted, and those that count, the first three of them, must be texts.
`LoginAttempt.Outcome` lists what may become of payloads, and exactly one of its rules holds of any
(`LoginAttempt.ofPayloads_eq_iff`). The login id is looked at last: when it is empty, a later
payload that is no text is reported all the same.
-/

namespace SealedLogin

/-- The value is the UTF-8 of some text. -/
def Record.IsText (r : Record) : Prop := ∃ s, r = Record.ofString s

/-- The first of some records that is no text, with what is wrong with it. -/
inductive Record.Garbled : List Record → Record.Fault → Prop
  | here {r : Record} {rs : List Record} {fault : Record.Fault} (h : r.text = .error fault) :
      Garbled (r :: rs) fault
  | later {s : String} {rs : List Record} {fault : Record.Fault} (h : Garbled rs fault) :
      Garbled (Record.ofString s :: rs) fault

namespace Record

theorem text_ofString (s : String) : (ofString s).text = .ok s := Envelope.text_eq_ok_iff.2 rfl

theorem isText_iff {r : Record} : r.IsText ↔ ∃ s, r.text = .ok s := by
  constructor
  · rintro ⟨s, rfl⟩
    exact ⟨s, text_ofString s⟩
  · rintro ⟨s, h⟩
    exact ⟨s, by rw [ofString, ← Envelope.text_eq_ok_iff.1 h]⟩

theorem exists_garbled_iff {rs : List Record} :
    (∃ fault, Garbled rs fault) ↔ ∃ r ∈ rs, ¬r.IsText := by
  constructor
  · rintro ⟨fault, h⟩
    induction h with
    | @here r rs fault h =>
      refine ⟨r, by simp, fun htext => ?_⟩
      obtain ⟨s, hs⟩ := isText_iff.1 htext
      rw [hs] at h
      cases h
    | later _ ih =>
      obtain ⟨r, hr, htext⟩ := ih
      exact ⟨r, by simp [hr], htext⟩
  · rintro ⟨r, hr, htext⟩
    induction rs with
    | nil => cases hr
    | cons first rs ih =>
      by_cases hfirst : first.IsText
      · obtain ⟨s, rfl⟩ := hfirst
        obtain rfl | hr := List.mem_cons.1 hr
        · exact absurd ⟨s, rfl⟩ htext
        · obtain ⟨fault, h⟩ := ih hr
          exact ⟨fault, .later h⟩
      · cases hread : first.text with
        | ok s => exact absurd (isText_iff.2 ⟨s, hread⟩) hfirst
        | error fault => exact ⟨fault, .here hread⟩

end Record

namespace LoginAttempt

variable {payloads : List Record} {attempt : LoginAttempt} {fault : Record.Fault}
  {c : Credentials}

/-! ### Failures -/

theorem ofPayloads_of_length_lt (h : payloads.length < 2) :
    ofPayloads payloads = .error .invalidCredential := by
  match payloads, h with
  | [], _ | [_], _ => rfl

theorem payloadText_of_text_eq_error {r : Record} (h : r.text = .error fault) :
    payloadText r = .error (.decode (.record fault)) :=
  ofRead_eq_error_iff.2 ⟨fault, h, rfl⟩

/-- The first payload that is no text decides, whatever the login id is. -/
theorem ofPayloads_of_garbled (hlength : 2 ≤ payloads.length)
    (h : Record.Garbled (payloads.take 3) fault) :
    ofPayloads payloads = .error (.decode (.record fault)) := by
  match payloads, hlength with
  | loginId :: password :: rest, _ =>
    have htake : (loginId :: password :: rest).take 3 = loginId :: password :: rest.take 1 := rfl
    rw [htake] at h
    rw [ofPayloads]
    cases h with
    | here h =>
      rw [payloadText_of_text_eq_error h]
      rfl
    | later h =>
      rw [payloadText_ofString]
      cases h with
      | here h =>
        rw [payloadText_of_text_eq_error h]
        rfl
      | later h =>
        rw [payloadText_ofString]
        cases rest with
        | nil => cases h
        | cons organization rest =>
          cases h with
          | here h =>
            rw [List.head?_cons, optionalPayloadText, payloadText_of_text_eq_error h]
            rfl
          | later h => cases h

/-! ### Texts -/

/-- Payloads that are texts are read in their places, and those after the third are ignored. -/
theorem ofPayloads_ofString (loginId password : String) {requested : Option String}
    {rest : List Record} (h : rest.head? = requested.map Record.ofString) :
    ofPayloads (Record.ofString loginId :: Record.ofString password :: rest) =
      if loginId = "" then .error .invalidCredential
      else .ok ⟨loginId, password, requested.filter (· ≠ "")⟩ := by
  rw [ofPayloads, h, payloadText_ofString, payloadText_ofString, optionalPayloadText_map]
  show (if loginId.isEmpty then _ else _) = _
  simp only [String.isEmpty_iff]

theorem exists_texts (hlength : 2 ≤ payloads.length) (h : ∀ r ∈ payloads.take 3, r.IsText) :
    ∃ (loginId password : String) (requested : Option String) (rest : List Record),
      payloads = Record.ofString loginId :: Record.ofString password :: rest
        ∧ rest.head? = requested.map Record.ofString := by
  match payloads, hlength with
  | first :: second :: rest, _ =>
    obtain ⟨loginId, rfl⟩ := h first (by simp)
    obtain ⟨password, rfl⟩ := h second (by simp)
    cases rest with
    | nil => exact ⟨loginId, password, none, [], rfl, rfl⟩
    | cons third more =>
      obtain ⟨organization, rfl⟩ := h third (by simp)
      exact ⟨loginId, password, some organization, _, rfl, rfl⟩

/-! ### Any payloads -/

/-- What may become of payloads. -/
inductive Outcome (payloads : List Record) : Except ProtocolError LoginAttempt → Prop
  | short (h : payloads.length < 2) : Outcome payloads (.error .invalidCredential)
  | garbled {fault : Record.Fault} (hlength : 2 ≤ payloads.length)
      (h : Record.Garbled (payloads.take 3) fault) :
      Outcome payloads (.error (.decode (.record fault)))
  /-- Only payloads that are texts are found to name no one. -/
  | nameless (hlength : 2 ≤ payloads.length) (htext : ∀ r ∈ payloads.take 3, r.IsText)
      (h : payloads.head? = some ⟨[]⟩) : Outcome payloads (.error .invalidCredential)
  | attempt {loginId password : String} {requested : Option String} {rest : List Record}
      (h : payloads = Record.ofString loginId :: Record.ofString password :: rest)
      (hrest : rest.head? = requested.map Record.ofString) (hid : loginId ≠ "") :
      Outcome payloads (.ok ⟨loginId, password, requested.filter (· ≠ "")⟩)

theorem ofString_eq_empty_iff {s : String} : Record.ofString s = ⟨[]⟩ ↔ s = "" := by
  rw [Record.ofString, Record.mk.injEq]
  exact ⟨fun h => Utf8.encode_injective h, fun h => by rw [h]; rfl⟩

theorem ofPayloads_of_outcome {result : Except ProtocolError LoginAttempt}
    (h : Outcome payloads result) : ofPayloads payloads = result := by
  cases h with
  | short h => exact ofPayloads_of_length_lt h
  | garbled hlength h => exact ofPayloads_of_garbled hlength h
  | nameless hlength htext h =>
    obtain ⟨loginId, password, requested, rest, rfl, hrest⟩ := exists_texts hlength htext
    rw [ofPayloads_ofString _ _ hrest, if_pos (ofString_eq_empty_iff.1 (Option.some.inj h))]
  | attempt h hrest hid => rw [h, ofPayloads_ofString _ _ hrest, if_neg hid]

theorem exists_outcome (payloads : List Record) : ∃ result, Outcome payloads result := by
  by_cases hlength : payloads.length < 2
  · exact ⟨_, .short hlength⟩
  · replace hlength : 2 ≤ payloads.length := Nat.le_of_not_lt hlength
    by_cases htext : ∀ r ∈ payloads.take 3, r.IsText
    · obtain ⟨loginId, password, requested, rest, h, hrest⟩ := exists_texts hlength htext
      by_cases hid : loginId = ""
      · have hhead : payloads.head? = some ⟨[]⟩ := by
          rw [h, List.head?_cons, ofString_eq_empty_iff.2 hid]
        exact ⟨_, .nameless hlength htext hhead⟩
      · exact ⟨_, .attempt h hrest hid⟩
    · obtain ⟨fault, h⟩ := Record.exists_garbled_iff.2 (by simpa using htext)
      exact ⟨_, .garbled hlength h⟩

theorem ofPayloads_eq_iff {result : Except ProtocolError LoginAttempt} :
    ofPayloads payloads = result ↔ Outcome payloads result := by
  refine ⟨?_, ofPayloads_of_outcome⟩
  rintro rfl
  obtain ⟨result, h⟩ := exists_outcome payloads
  rwa [ofPayloads_of_outcome h]

/-- Payloads are wrong credentials if there are fewer than two, or if the login id is empty and the
payloads that count are texts; they are not understood if there are two and one of those that count
is no text, and the first such payload is reported. There is no other failure. The rest make the
attempt that the first two and the third, if there is one, spell, in which an empty organization is
none. In particular the payloads of credentials that name a login id make the attempt with these. -/
theorem ofPayloads_exact (payloads : List Record) :
    (ofPayloads payloads = .error .invalidCredential ↔
      payloads.length < 2 ∨ payloads.head? = some ⟨[]⟩ ∧ ∀ r ∈ payloads.take 3, r.IsText)
    ∧ ((∃ e, ofPayloads payloads = .error e ∧ e.code = "DECODE_ERROR") ↔
      2 ≤ payloads.length ∧ ∃ r ∈ payloads.take 3, ¬r.IsText)
    ∧ (∀ e, ofPayloads payloads = .error e → e = .invalidCredential
      ∨ ∃ fault, Record.Garbled (payloads.take 3) fault ∧ e = .decode (.record fault))
    ∧ (∀ attempt, ofPayloads payloads = .ok attempt ↔
      ∃ (requested : Option String) (rest : List Record),
        payloads = Record.ofString attempt.loginId :: Record.ofString attempt.password :: rest
          ∧ rest.head? = requested.map Record.ofString ∧ attempt.loginId ≠ ""
          ∧ attempt.organization = requested.filter (· ≠ ""))
    ∧ ∀ c : Credentials, c.payloads = payloads → c.loginId ≠ "" →
      ofPayloads payloads = .ok ⟨c.loginId, c.password, c.organization.filter (· ≠ "")⟩ := by
  refine ⟨?_, ?_, fun e h => ?_, fun _ => ofPayloads_eq_ok_iff, fun c hc hid => ?_⟩
  · rw [ofPayloads_eq_iff]
    constructor
    · rintro (h | _ | ⟨-, htext, h⟩)
      · exact .inl h
      · exact .inr ⟨h, htext⟩
    · intro h
      by_cases hlength : payloads.length < 2
      · exact .short hlength
      · obtain ⟨hhead, htext⟩ := h.resolve_left hlength
        exact .nameless (Nat.le_of_not_lt hlength) htext hhead
  · simp only [ofPayloads_eq_iff]
    constructor
    · rintro ⟨e, h | ⟨hlength, h⟩ | _, hcode⟩
      · exact absurd hcode (by decide)
      · exact ⟨hlength, Record.exists_garbled_iff.1 ⟨_, h⟩⟩
      · exact absurd hcode (by decide)
    · rintro ⟨hlength, h⟩
      obtain ⟨fault, hfault⟩ := Record.exists_garbled_iff.2 h
      exact ⟨_, .garbled hlength hfault, rfl⟩
  · cases ofPayloads_eq_iff.1 h with
    | short _ => exact .inl rfl
    | garbled _ hfault => exact .inr ⟨_, hfault, rfl⟩
    | nameless _ _ _ => exact .inl rfl
  · rw [← hc, ofPayloads_payloads, if_neg hid, Credentials.attempt]

/-- An empty login id does not make credentials wrong before all else: a password that is no text
is reported first. -/
theorem garbled_password_reported_first :
    ¬∀ payloads : List Record, payloads.length < 2 ∨ payloads.head? = some ⟨[]⟩ →
      ofPayloads payloads = .error .invalidCredential := by
  intro h
  have hfails : ofPayloads [⟨[]⟩, ⟨[0xff]⟩] =
      .error (.decode (.record (.notText (.invalid 1 0)))) := rfl
  have hwrong := h [⟨[]⟩, ⟨[0xff]⟩] (.inr rfl)
  rw [hfails] at hwrong
  cases hwrong

end LoginAttempt

end SealedLogin
