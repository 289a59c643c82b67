import SealedLogin.Proofs.Login.Provenance
import SealedLogin.Proofs.Password.CredentialFiles
import SealedLogin.Proofs.Password.Hashes

/-!
# Sessions of the users of a file

Let a credential file decide about logins. Each session belongs to one user of the file, whose
password was in the envelope, and is of the organization that the user is bound to; a user who is
not bound gets the organization that was asked for (`organization_binding`).
-/

namespace SealedLogin

namespace LoginServer

/-- What the payloads of a login must be for a user to be admitted by the file. -/
theorem exists_user_of_authenticate {file : CredentialFile}
    (hfile : CredentialFile.Accepted file.entries) {payloads : List Record}
    {attempt : LoginAttempt} {user : AuthenticatedUser}
    (hattempt : LoginAttempt.ofPayloads payloads = .ok attempt)
    (huser : file.authenticate attempt = .ok (some user)) :
    ∃ (password : String) (requested : Option String) (rest : List Record) (e : UserEntry)
      (hash : PasswordHash),
      payloads = Record.ofString user.userId :: Record.ofString password :: rest
        ∧ rest.head? = requested.map Record.ofString
        ∧ file.entries.filter (·.loginId == user.userId) = [e]
        ∧ PasswordHash.parse? e.passwordHash = some hash ∧ hash.verify password = true
        ∧ user.organization = e.organization.or (requested.filter (· ≠ "")) := by
  obtain ⟨requested, rest, rfl, hrest, -, horganization⟩ :=
    LoginAttempt.ofPayloads_eq_ok_iff.1 hattempt
  obtain ⟨e, hash, hmem, hid, hhash, hverify, -, rfl⟩ := hfile.authenticate_eq_some_iff.1 huser
  rw [horganization]
  exact ⟨attempt.password, requested, rest, e, hash, by rw [hid], hrest,
    hfile.filter_eq_singleton hmem, hhash, hverify, rfl⟩

/-! ### The outcome -/

/-- Let the file of a text decide about logins. Whatever calls came, each session comes from a login
with the id of exactly one user of the file and a password that fits the hash of the user. Its
organization is the one that the user is bound to, if there is one, whatever was asked for; if there
is none, it is the one asked for, unless that was left out or empty. Nobody who is not in the file
has a session. -/
theorem organization_binding (text : String) (file : CredentialFile) (server : LoginServer)
    (calls : List ServerCall) (hfile : CredentialFile.parse text = .ok file)
    (hserver : server.authenticate = file.authenticate) :
    (∃ fields, JsonText.readList UserEntry.shape text = .ok fields
      ∧ file.entries = fields.map UserEntry.ofFields)
    ∧ (∀ token session, (server.run .empty calls).sessions.Contains token session →
      ∃ before c request record, server.Origin calls session before c request record
        ∧ ∃ (password : String) (requested : Option String) (rest : List Record) (e : UserEntry)
          (hash : PasswordHash),
          Envelope.unpack c.now.wall record.index record.clientSigningKey record.keys.clientToServer
              server.lifetimes.envelope request.d
            = .ok (Record.ofString session.user.userId :: Record.ofString password :: rest)
          ∧ rest.head? = requested.map Record.ofString
          ∧ file.entries.filter (·.loginId == session.user.userId) = [e]
          ∧ PasswordHash.parse? e.passwordHash = some hash ∧ hash.verify password = true
          ∧ (∀ bound, e.organization = some bound → session.user.organization = some bound)
          ∧ (e.organization = none → session.user.organization = requested.filter (· ≠ "")))
    ∧ ∀ loginId, (∀ e ∈ file.entries, e.loginId ≠ loginId) → ∀ token session,
        (server.run .empty calls).sessions.Contains token session →
        session.user.userId ≠ loginId := by
  obtain ⟨fields, hread, hentries, haccepted⟩ := CredentialFile.parse_eq_ok_iff.1 hfile
  refine ⟨⟨fields, hread, hentries⟩, fun token session hcontains => ?_,
    fun loginId hnone token session hcontains => ?_⟩
  · obtain ⟨-, before, c, request, record, horigin⟩ := exists_origin_of_contains hcontains
    obtain ⟨payloads, attempt, hunpack, hattempt, huser⟩ := horigin.opens
    rw [hserver] at huser
    obtain ⟨password, requested, rest, e, hash, rfl, hrest, hone, hhash, hverify, horganization⟩ :=
      exists_user_of_authenticate haccepted hattempt huser
    refine ⟨before, c, request, record, horigin, password, requested, rest, e, hash, hunpack, hrest,
      hone, hhash, hverify, fun bound hbound => ?_, fun hnone => ?_⟩
    · rw [horganization, hbound, Option.some_or]
    · rw [horganization, hnone, Option.none_or]
  · obtain ⟨-, before, c, request, record, horigin⟩ := exists_origin_of_contains hcontains
    obtain ⟨payloads, attempt, -, -, huser⟩ := horigin.opens
    rw [hserver] at huser
    obtain ⟨e, -, hmem, -, -, -, -, huserId⟩ := haccepted.authenticate_eq_some_iff.1 huser
    rw [huserId]
    exact hnone e hmem

end LoginServer

namespace Encounter

/-- The user of the login after the leap second, whose password is empty, bound to an
organization. -/
def boundUser : UserEntry :=
  ⟨"a", PasswordHash.make (Utf8.encode "") (List.replicate 8 1), some "acme"⟩

theorem parse?_boundUser : PasswordHash.parse? boundUser.passwordHash
    = some (PasswordHash.made (Utf8.encode "") (List.replicate 8 1)) :=
  PasswordHash.parse?_make (by decide +kernel)

theorem accepted_boundUser : CredentialFile.Accepted [boundUser] :=
  ⟨by simpa using ⟨_, parse?_boundUser⟩, List.nodup_singleton _⟩

theorem authenticate_boundUser :
    (CredentialFile.mk [boundUser]).authenticate leap.credentials.attempt
      = .ok (some ⟨"a", some "acme"⟩) := by
  refine accepted_boundUser.authenticate_eq_some_iff.2 ⟨boundUser, _, List.mem_singleton_self _,
    rfl, parse?_boundUser, PasswordHash.verify_made "" (by decide), ?_, rfl⟩
  rintro _ _ - ⟨⟩

/-- The login after the leap second asks for no organization and gets the one of its user, and no
other session comes about. -/
theorem organization_binding_leap : ∃ (server : LoginServer) (calls : List ServerCall),
    (server.run .empty calls).sessions.Contains leap.token (leap.record ⟨"a", some "acme"⟩)
      ∧ ∀ token session, (server.run .empty calls).sessions.Contains token session →
        session.user = ⟨"a", some "acme"⟩ := by
  obtain ⟨envelope, hadmits⟩ :=
    exists_admits_loginCall (honest_leap.admitting authenticate_boundUser)
  have hlookup := LoginServer.lookup_sessions_of_admits hadmits
  rw [← LoginServer.run_concat] at hlookup
  refine ⟨_, _, ⟨_, ExpiringTable.mem_entries_of_lookup hlookup, rfl⟩,
    fun token session hcontains => ?_⟩
  obtain ⟨-, hsessions, -⟩ := LoginServer.organization_binding _ _
    ⟨(CredentialFile.mk [boundUser]).authenticate, leap.server.lifetimes⟩ _
    (CredentialFile.parse_printList accepted_boundUser) rfl
  obtain ⟨before, c, request, record, -, password, requested, rest, e, hash, -, -, hone, -, -,
    hbound, -⟩ := hsessions token session hcontains
  have he : e ∈ [boundUser].filter (·.loginId == session.user.userId) :=
    hone ▸ List.mem_singleton_self e
  obtain ⟨hmem, hid⟩ := List.mem_filter.1 he
  obtain rfl := List.mem_singleton.1 hmem
  obtain ⟨_, ⟨userId, organization⟩, _⟩ := session
  rw [beq_iff_eq] at hid
  rw [AuthenticatedUser.mk.injEq]
  exact ⟨hid.symm, hbound "acme" rfl⟩

end Encounter

end SealedLogin
