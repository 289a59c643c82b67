import Mathlib.Data.List.Induction
import Mathlib.Data.List.Nodup
import Mathlib.Tactic.SplitIfs
import SealedLogin.Password.CredentialFile
import SealedLogin.Proofs.JsonText.Printing

/-!
# Credential files

A file is accepted exactly if each of its users has a hash that can be read and no two have the same
login id (`parse_eq_ok_iff`). Such a file answers every attempt, and admits a user who is in it,
with the right password, to the organization that the user is bound to or else to the one asked for
(`authenticate_eq_some_iff`).
-/

namespace SealedLogin.CredentialFile

variable {file file' : CredentialFile} {e : UserEntry} {entries : List UserEntry}
  {attempt : LoginAttempt} {user : AuthenticatedUser} {loginId : String}

/-- The hash of each user can be read, and no login id occurs twice. -/
structure Accepted (entries : List UserEntry) : Prop where
  readable : ∀ e ∈ entries, ∃ h, PasswordHash.parse? e.passwordHash = some h
  distinct : (entries.map (·.loginId)).Nodup

/-! ### Acceptance -/

theorem lookup_eq_none_iff :
    file.lookup loginId = none ↔ ∀ e ∈ file.entries, e.loginId ≠ loginId := by
  simp [lookup, List.find?_eq_none]

theorem insert_eq_ok_iff : file.insert e = .ok file' ↔
    (∃ h, PasswordHash.parse? e.passwordHash = some h)
      ∧ (∀ e' ∈ file.entries, e'.loginId ≠ e.loginId) ∧ file' = ⟨file.entries ++ [e]⟩ := by
  rw [← lookup_eq_none_iff]
  unfold insert
  cases PasswordHash.parse? e.passwordHash with
  | none => simp
  | some h => cases file.lookup e.loginId <;> simp [eq_comm]

theorem accepted_concat_iff : Accepted (entries ++ [e]) ↔ Accepted entries
    ∧ (∃ h, PasswordHash.parse? e.passwordHash = some h)
    ∧ ∀ e' ∈ entries, e'.loginId ≠ e.loginId := by
  constructor
  · rintro ⟨hreadable, hdistinct⟩
    rw [List.map_append, List.map_singleton, List.nodup_append] at hdistinct
    refine ⟨⟨fun e' he' => hreadable e' (List.mem_append_left _ he'), hdistinct.1⟩,
      hreadable e (by simp), fun e' he' => ?_⟩
    exact hdistinct.2.2 _ (List.mem_map_of_mem he') _ (List.mem_singleton_self _)
  · rintro ⟨⟨hreadable, hdistinct⟩, hhash, hnew⟩
    constructor
    · intro e' he'
      rcases List.mem_append.1 he' with hold | hlast
      · exact hreadable e' hold
      · rw [List.mem_singleton.1 hlast]
        exact hhash
    · rw [List.map_append, List.map_singleton, List.nodup_append]
      refine ⟨hdistinct, List.nodup_singleton _, fun id hid id' hid' => ?_⟩
      obtain ⟨e', he', rfl⟩ := List.mem_map.1 hid
      rw [List.mem_singleton.1 hid']
      exact hnew e' he'

theorem ofEntries_eq_ok_iff :
    ofEntries entries = .ok file ↔ Accepted entries ∧ file = ⟨entries⟩ := by
  induction entries using List.reverseRecOn generalizing file with
  | nil =>
    have hnil : Accepted [] := ⟨nofun, List.nodup_nil⟩
    constructor
    · intro h
      cases h
      exact ⟨hnil, rfl⟩
    · rintro ⟨-, rfl⟩
      rfl
  | append_singleton entries e ih =>
    unfold ofEntries at ih ⊢
    simp only [List.foldlM_append, List.foldlM_cons, List.foldlM_nil, bind_pure, bind_eq_ok_iff, ih,
      insert_eq_ok_iff, accepted_concat_iff]
    constructor
    · rintro ⟨_, ⟨haccepted, rfl⟩, hhash, hnew, rfl⟩
      exact ⟨⟨haccepted, hhash, hnew⟩, rfl⟩
    · rintro ⟨⟨haccepted, hhash, hnew⟩, rfl⟩
      exact ⟨_, ⟨haccepted, rfl⟩, hhash, hnew, rfl⟩

/-- The users of an accepted file are those listed in the text, all of them and in their order. -/
theorem parse_eq_ok_iff {text : String} : parse text = .ok file ↔
    ∃ fields, JsonText.readList UserEntry.shape text = .ok fields
      ∧ file.entries = fields.map UserEntry.ofFields ∧ Accepted file.entries := by
  obtain ⟨entries⟩ := file
  unfold parse
  cases JsonText.readList UserEntry.shape text with
  | error fault =>
    refine iff_of_false (fun h => by cases h) ?_
    rintro ⟨_, h, -⟩
    cases h
  | ok fields =>
    dsimp only
    rw [ofEntries_eq_ok_iff]
    constructor
    · rintro ⟨haccepted, h⟩
      cases h
      exact ⟨fields, rfl, rfl, haccepted⟩
    · rintro ⟨_, h, rfl, haccepted⟩
      cases h
      exact ⟨haccepted, rfl⟩

/-- The fields of a user as they are written. -/
def fields (e : UserEntry) : JsonText.Fields :=
  [("login_id", .text e.loginId), ("password_hash", .text e.passwordHash),
    ("organization_uid", e.organization.elim .null .text)]

theorem fits_fields (e : UserEntry) : JsonText.Fits UserEntry.shape (fields e) where
  readsBack := by
    intro name value hmem
    simp only [fields, List.mem_cons, Prod.mk.injEq, List.not_mem_nil, or_false] at hmem
    rcases hmem with ⟨rfl, rfl⟩ | ⟨rfl, rfl⟩ | ⟨rfl, rfl⟩
    · exact ⟨_, rfl, JsonText.readsBack_text _⟩
    · exact ⟨_, rfl, JsonText.readsBack_text _⟩
    · refine ⟨_, rfl, ?_⟩
      cases e.organization with
      | none => exact JsonText.readsBack_null
      | some organization => exact JsonText.readsBack_optionalText organization
  distinct := by
    show ["login_id", "password_hash", "organization_uid"].Nodup
    decide
  complete := rfl

theorem ofFields_fields (e : UserEntry) : UserEntry.ofFields (fields e) = e := by
  obtain ⟨loginId, passwordHash, organization⟩ := e
  cases organization <;> rfl

/-- The text is a list of these users, whether or not they can be accepted. -/
def Lists (text : String) (entries : List UserEntry) : Prop :=
  ∃ fields, JsonText.readList UserEntry.shape text = .ok fields
    ∧ entries = fields.map UserEntry.ofFields

/-- Any users are those of a text. -/
theorem lists_printList (entries : List UserEntry) :
    Lists (JsonText.printList (entries.map fields)) entries := by
  refine ⟨entries.map fields, JsonText.readList_printList fun fs hfs => ?_, ?_⟩
  · obtain ⟨e, -, rfl⟩ := List.mem_map.1 hfs
    exact fits_fields e
  · rw [List.map_map]
    exact (List.map_id' entries).symm.trans
      (List.map_congr_left fun e _ => (ofFields_fields e).symm)

theorem parse_printList (h : Accepted entries) :
    parse (JsonText.printList (entries.map fields)) = .ok ⟨entries⟩ := by
  obtain ⟨fs, hread, hfs⟩ := lists_printList entries
  exact parse_eq_ok_iff.2 ⟨fs, hread, hfs, h⟩

/-! ### Users -/

theorem Accepted.eq_of_mem (h : Accepted file.entries) {e' : UserEntry} (he : e ∈ file.entries)
    (he' : e' ∈ file.entries) (hid : e.loginId = e'.loginId) : e = e' :=
  List.inj_on_of_nodup_map h.distinct he he' hid

theorem Accepted.lookup_eq_some_iff (h : Accepted file.entries) :
    file.lookup loginId = some e ↔ e ∈ file.entries ∧ e.loginId = loginId := by
  have hfound : ∀ {e}, file.lookup loginId = some e → e ∈ file.entries ∧ e.loginId = loginId :=
    fun h => ⟨List.mem_of_find?_eq_some h, by simpa using List.find?_some h⟩
  refine ⟨hfound, ?_⟩
  rintro ⟨hmem, rfl⟩
  cases hlookup : file.lookup e.loginId with
  | none => exact absurd rfl (lookup_eq_none_iff.1 hlookup e hmem)
  | some e' => rw [h.eq_of_mem (hfound hlookup).1 hmem (hfound hlookup).2]

/-- Exactly one user of the file has the login id of a user of the file. -/
theorem Accepted.filter_eq_singleton (h : Accepted file.entries) (he : e ∈ file.entries) :
    file.entries.filter (·.loginId == e.loginId) = [e] := by
  have hsame : file.entries.filter (·.loginId == e.loginId) = file.entries.filter (· == e) := by
    refine List.filter_congr fun e' he' => ?_
    rw [Bool.eq_iff_iff, beq_iff_eq, beq_iff_eq]
    exact ⟨h.eq_of_mem he' he, congrArg _⟩
  rw [hsame, List.filter_beq, List.count_eq_one_of_mem (List.Nodup.of_map _ h.distinct) he]
  rfl

/-! ### Attempts -/

theorem parse?_decoyHash : ∃ h, PasswordHash.parse? decoyHash = some h :=
  Option.isSome_iff_exists.1 (by decide +kernel)

theorem storedHash_eq_ok_iff {text : String} {h : PasswordHash} :
    storedHash text = .ok h ↔ PasswordHash.parse? text = some h := by
  unfold storedHash
  cases PasswordHash.parse? text <;> simp

/-- An unknown user is no one, whatever the password is. -/
theorem authenticate_of_lookup_eq_none (h : file.lookup attempt.loginId = none) :
    file.authenticate attempt = .ok none := by
  obtain ⟨decoy, hdecoy⟩ := parse?_decoyHash
  unfold authenticate
  rw [h]
  dsimp only
  rw [storedHash_eq_ok_iff.2 hdecoy]
  rfl

theorem authenticate_of_lookup_eq_some {h : PasswordHash}
    (hlookup : file.lookup attempt.loginId = some e)
    (hhash : PasswordHash.parse? e.passwordHash = some h) : file.authenticate attempt =
      .ok (if h.verify attempt.password && admits e.organization attempt.organization then
        some ⟨e.loginId, attempt.organization.or e.organization⟩ else none) := by
  unfold authenticate
  rw [hlookup]
  dsimp only
  rw [storedHash_eq_ok_iff.2 hhash]
  show (if _ then _ else _) = _
  split_ifs <;> rfl

/-- An accepted file never fails. -/
theorem Accepted.exists_answer (h : Accepted file.entries) (attempt : LoginAttempt) :
    ∃ answer, file.authenticate attempt = .ok answer := by
  cases hlookup : file.lookup attempt.loginId with
  | none => exact ⟨none, authenticate_of_lookup_eq_none hlookup⟩
  | some e =>
    obtain ⟨hash, hhash⟩ := h.readable e (List.mem_of_find?_eq_some hlookup)
    exact ⟨_, authenticate_of_lookup_eq_some hlookup hhash⟩

theorem admits_iff {bound requested : Option String} :
    admits bound requested = true ↔ ∀ b r, bound = some b → requested = some r → b = r := by
  cases bound <;> cases requested <;> simp [admits]

/-- Who is admitted: a user of the file, by a password that fits the hash, to the organization that
the user is bound to, or else to the one that is asked for. -/
theorem Accepted.authenticate_eq_some_iff (h : Accepted file.entries) :
    file.authenticate attempt = .ok (some user) ↔
      ∃ e hash, e ∈ file.entries ∧ e.loginId = attempt.loginId
        ∧ PasswordHash.parse? e.passwordHash = some hash ∧ hash.verify attempt.password = true
        ∧ (∀ b r, e.organization = some b → attempt.organization = some r → b = r)
        ∧ user = ⟨e.loginId, e.organization.or attempt.organization⟩ := by
  have hor : ∀ e : UserEntry,
      (∀ b r, e.organization = some b → attempt.organization = some r → b = r) →
      attempt.organization.or e.organization = e.organization.or attempt.organization := by
    intro e hsame
    cases hbound : e.organization with
    | none => cases attempt.organization <;> rfl
    | some b =>
      cases hrequested : attempt.organization with
      | none => rfl
      | some r => rw [hsame b r hbound hrequested]
  constructor
  · intro hanswer
    cases hlookup : file.lookup attempt.loginId with
    | none =>
      rw [authenticate_of_lookup_eq_none hlookup] at hanswer
      cases hanswer
    | some e =>
      obtain ⟨hmem, hid⟩ := h.lookup_eq_some_iff.1 hlookup
      obtain ⟨hash, hhash⟩ := h.readable e hmem
      rw [authenticate_of_lookup_eq_some hlookup hhash] at hanswer
      split_ifs at hanswer with hadmitted
      · cases hanswer
        rw [Bool.and_eq_true, admits_iff] at hadmitted
        exact ⟨e, hash, hmem, hid, hhash, hadmitted.1, hadmitted.2, by rw [hor e hadmitted.2]⟩
      · cases hanswer
  · rintro ⟨e, hash, hmem, hid, hhash, hverify, hsame, rfl⟩
    rw [authenticate_of_lookup_eq_some (h.lookup_eq_some_iff.2 ⟨hmem, hid⟩) hhash, hverify,
      admits_iff.2 hsame, hor e hsame]
    rfl

end SealedLogin.CredentialFile
