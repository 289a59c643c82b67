import SealedLogin.Proofs.Password.CredentialFiles

/-!
# Users that cannot be accepted

A user cannot be added to those before it if its hash is none or if its login id is there already,
and the bad hash is named if both are so (`CredentialFile.Faulty`). A file fails by the first user
of that kind (`CredentialFile.ofEntries_eq_error_iff`), and is accepted if there is none
(`CredentialFile.accepted_iff_forall_not_faulty`).
-/

namespace SealedLogin.CredentialFile

variable {file : CredentialFile} {e : UserEntry} {before entries : List UserEntry} {fault : Fault}
  {text : String}

/-- What is wrong with a user that comes after others. -/
inductive Faulty (before : List UserEntry) (e : UserEntry) : Fault → Prop
  | badHash (h : PasswordHash.parse? e.passwordHash = none) : Faulty before e (.badHash e.loginId)
  | duplicate {hash : PasswordHash} {e' : UserEntry}
      (h : PasswordHash.parse? e.passwordHash = some hash) (hmem : e' ∈ before)
      (hid : e'.loginId = e.loginId) : Faulty before e (.duplicate e.loginId)

/-- The fault is that of the first user in the list with which anything is wrong. -/
def FirstFault (entries : List UserEntry) (fault : Fault) : Prop :=
  ∃ before e after, entries = before ++ e :: after ∧ Faulty before e fault
    ∧ ∀ earlier e' later, before = earlier ++ e' :: later → ∀ f, ¬Faulty earlier e' f

/-! ### One user -/

theorem insert_eq_error_iff : file.insert e = .error fault ↔ Faulty file.entries e fault := by
  unfold insert
  cases hhash : PasswordHash.parse? e.passwordHash with
  | none =>
    rw [if_pos Option.isNone_none]
    constructor
    · intro h
      cases h
      exact .badHash hhash
    · rintro (_ | ⟨h, -, -⟩)
      · rfl
      · rw [hhash] at h
        cases h
  | some hash =>
    rw [if_neg (by simp)]
    cases hlookup : file.lookup e.loginId with
    | none =>
      refine iff_of_false (by simp) ?_
      rintro (h | ⟨-, hmem, hid⟩)
      · rw [hhash] at h
        cases h
      · exact lookup_eq_none_iff.1 hlookup _ hmem hid
    | some e' =>
      rw [if_pos Option.isSome_some]
      have hid : e'.loginId = e.loginId := by simpa using List.find?_some hlookup
      constructor
      · intro h
        cases h
        exact .duplicate hhash (List.mem_of_find?_eq_some hlookup) hid
      · rintro (h | _)
        · rw [hhash] at h
          cases h
        · rfl

theorem forall_not_faulty_iff : (∀ fault, ¬Faulty before e fault) ↔
    (∃ h, PasswordHash.parse? e.passwordHash = some h)
      ∧ ∀ e' ∈ before, e'.loginId ≠ e.loginId := by
  constructor
  · intro h
    cases hinsert : insert ⟨before⟩ e with
    | error fault => exact absurd (insert_eq_error_iff.1 hinsert) (h fault)
    | ok file =>
      obtain ⟨hhash, hnew, -⟩ := insert_eq_ok_iff.1 hinsert
      exact ⟨hhash, hnew⟩
  · rintro ⟨hhash, hnew⟩ fault h
    have hok : insert ⟨before⟩ e = .ok ⟨before ++ [e]⟩ := insert_eq_ok_iff.2 ⟨hhash, hnew, rfl⟩
    have herror : insert ⟨before⟩ e = .error fault := insert_eq_error_iff.2 h
    rw [hok] at herror
    cases herror

/-! ### All users -/

/-- A user in a list with one more at its end is that one or stands further in front. -/
theorem concat_eq_append_cons_iff {last : UserEntry} {after : List UserEntry} :
    entries ++ [last] = before ++ e :: after ↔
      (before = entries ∧ e = last ∧ after = [])
      ∨ ∃ between, entries = before ++ e :: between ∧ after = between ++ [last] := by
  constructor
  · intro h
    rcases List.eq_nil_or_concat' after with rfl | ⟨between, last', rfl⟩
    · obtain ⟨rfl, rfl⟩ := List.append_singleton_inj.1 h
      exact .inl ⟨rfl, rfl, rfl⟩
    · rw [← List.cons_append, ← List.append_assoc] at h
      obtain ⟨rfl, rfl⟩ := List.append_singleton_inj.1 h
      exact .inr ⟨between, rfl, rfl⟩
  · rintro (⟨rfl, rfl, rfl⟩ | ⟨between, rfl, rfl⟩)
    · rfl
    · rw [List.append_assoc, List.cons_append]

theorem accepted_iff_forall_not_faulty : Accepted entries ↔
    ∀ before e after, entries = before ++ e :: after → ∀ fault, ¬Faulty before e fault := by
  induction entries using List.reverseRecOn with
  | nil => exact iff_of_true ⟨nofun, List.nodup_nil⟩ fun before _ _ h => by simp at h
  | append_singleton entries last ih =>
    rw [accepted_concat_iff, ih, ← forall_not_faulty_iff]
    simp only [concat_eq_append_cons_iff]
    constructor
    · rintro ⟨hentries, hlast⟩ before e after (⟨rfl, rfl, -⟩ | ⟨between, h, -⟩)
      · exact hlast
      · exact hentries before e between h
    · intro h
      exact ⟨fun before e between heq => h before e _ (.inr ⟨between, heq, rfl⟩),
        h entries last [] (.inl ⟨rfl, rfl, rfl⟩)⟩

theorem ofEntries_eq_error_iff : ofEntries entries = .error fault ↔ FirstFault entries fault := by
  have hfirst : FirstFault entries fault ↔ ∃ before e after, entries = before ++ e :: after
      ∧ Faulty before e fault ∧ Accepted before := by
    simp only [FirstFault, accepted_iff_forall_not_faulty]
  rw [hfirst]
  clear hfirst
  induction entries using List.reverseRecOn with
  | nil =>
    refine iff_of_false nofun ?_
    rintro ⟨before, e, after, h, -⟩
    simp at h
  | append_singleton entries last ih =>
    unfold ofEntries at ih ⊢
    simp only [List.foldlM_append, List.foldlM_cons, List.foldlM_nil, bind_pure, bind_eq_error_iff,
      ih, insert_eq_error_iff, concat_eq_append_cons_iff]
    constructor
    · rintro (⟨before, e, between, h, hfaulty, haccepted⟩ | ⟨file, hfile, hfaulty⟩)
      · exact ⟨before, e, _, .inr ⟨between, h, rfl⟩, hfaulty, haccepted⟩
      · obtain ⟨haccepted, rfl⟩ := ofEntries_eq_ok_iff.1 hfile
        exact ⟨entries, last, [], .inl ⟨rfl, rfl, rfl⟩, hfaulty, haccepted⟩
    · rintro ⟨before, e, after, ⟨rfl, rfl, -⟩ | ⟨between, h, -⟩, hfaulty, haccepted⟩
      · exact .inr ⟨⟨before⟩, ofEntries_eq_ok_iff.2 ⟨haccepted, rfl⟩, hfaulty⟩
      · exact .inl ⟨before, e, between, h, hfaulty, haccepted⟩

/-! ### Files -/

theorem parse_of_lists (h : Lists text entries) : parse text = ofEntries entries := by
  obtain ⟨fields, hread, rfl⟩ := h
  rw [parse, hread]

theorem exists_parse_iff :
    (∃ file, parse text = .ok file) ↔ ∃ entries, Lists text entries ∧ Accepted entries := by
  constructor
  · rintro ⟨file, hfile⟩
    obtain ⟨fields, hread, hentries, haccepted⟩ := parse_eq_ok_iff.1 hfile
    exact ⟨file.entries, ⟨fields, hread, hentries⟩, haccepted⟩
  · rintro ⟨entries, hlists, haccepted⟩
    exact ⟨⟨entries⟩, by rw [parse_of_lists hlists, ofEntries_eq_ok_iff]; exact ⟨haccepted, rfl⟩⟩

/-- A text is accepted exactly if it lists users of whom each has a hash that can be read and no two
have the same login id. A text that lists no users fails by what is wrong with its form, and one
that lists users fails by the first of them whose hash is none or whose login id came before. In an
accepted file each user is found by its login id, and no one else is, and it has as many users as
the text lists. It answers every attempt. -/
theorem file_exact :
    (∀ text, (∃ file, parse text = .ok file) ↔ ∃ entries, Lists text entries ∧ Accepted entries)
    ∧ (∀ text fault, JsonText.readList UserEntry.shape text = .error fault →
      parse text = .error (.json fault))
    ∧ (∀ text entries fault, Lists text entries →
      (parse text = .error fault ↔ FirstFault entries fault))
    ∧ (∀ text entries file, Lists text entries → parse text = .ok file →
      (∀ e ∈ entries, file.lookup e.loginId = some e)
        ∧ (∀ loginId e, file.lookup loginId = some e → e ∈ entries ∧ e.loginId = loginId)
        ∧ file.size = entries.length)
    ∧ ∀ text file attempt, parse text = .ok file →
      ∃ answer, file.authenticate attempt = .ok answer := by
  refine ⟨fun _ => exists_parse_iff, fun text fault h => ?_, fun text entries fault h => ?_,
    fun text entries file hlists h => ?_, fun text file attempt h => ?_⟩
  · rw [parse, h]
  · rw [parse_of_lists h, ofEntries_eq_error_iff]
  · rw [parse_of_lists hlists, ofEntries_eq_ok_iff] at h
    obtain ⟨haccepted, rfl⟩ := h
    have hlookup : ∀ loginId e, lookup ⟨entries⟩ loginId = some e ↔
        e ∈ entries ∧ e.loginId = loginId := fun _ _ => Accepted.lookup_eq_some_iff haccepted
    exact ⟨fun e he => (hlookup _ e).2 ⟨he, rfl⟩, fun loginId e => (hlookup loginId e).1, rfl⟩
  · obtain ⟨-, -, -, haccepted⟩ := parse_eq_ok_iff.1 h
    exact haccepted.exists_answer attempt

/-- A user with a password in place of a hash and with the login id of the user before it is refused
for the hash. -/
theorem file_exact_repeated_plain : ∃ text,
    Lists text [⟨"alice", decoyHash, none⟩, ⟨"alice", "secret", none⟩]
      ∧ parse text = .error (.badHash "alice") := by
  obtain ⟨-, -, hfails, -, -⟩ := file_exact
  have hlists := lists_printList [⟨"alice", decoyHash, none⟩, ⟨"alice", "secret", none⟩]
  have hfirst : Accepted [⟨"alice", decoyHash, none⟩] := by
    refine ⟨fun e he => ?_, List.nodup_singleton _⟩
    rw [List.mem_singleton.1 he]
    exact parse?_decoyHash
  have hplain : PasswordHash.parse? "secret" = none := by decide +kernel
  exact ⟨_, hlists, (hfails _ _ _ hlists).2 ⟨[⟨"alice", decoyHash, none⟩], _, [], rfl,
    .badHash hplain, accepted_iff_forall_not_faulty.1 hfirst⟩⟩

end SealedLogin.CredentialFile
