import SealedLogin.JsonText.Fields
import SealedLogin.Proofs.Coding.Utf8
import SealedLogin.Proofs.Computations

/-!
# Printed JSON text

What is written is read back: strings, character by character through their escapes, and records
that are written as objects (`readRecord_print`, `readList_printList`).
-/

namespace SealedLogin.JsonText

/-! ### Strings -/

theorem digit_control {n : Nat} (h : n < 32) : hexValue '0' = some 0
    ∧ hexValue (Nat.digitChar (n / 16)) = some (n / 16)
    ∧ hexValue (Nat.digitChar (n % 16)) = some (n % 16)
    ∧ isLowSurrogate n = false ∧ isHighSurrogate n = false := by
  revert n
  decide

theorem escapeChar_cases (c : Char) :
    (∃ d, escapeChar c = ['\\', d] ∧ d ≠ 'u' ∧ escaped d = some c)
      ∨ (c.toNat < 32 ∧ escapeChar c
        = ['\\', 'u', '0', '0', Nat.digitChar (c.toNat / 16), Nat.digitChar (c.toNat % 16)])
      ∨ (escapeChar c = [c] ∧ c ≠ '\x22' ∧ c ≠ '\\' ∧ ¬c < ' ') := by
  unfold escapeChar
  split
  · exact .inl ⟨'\x22', rfl, by decide, rfl⟩
  · exact .inl ⟨'\\', rfl, by decide, rfl⟩
  · exact .inl ⟨'b', rfl, by decide, rfl⟩
  · exact .inl ⟨'f', rfl, by decide, rfl⟩
  · exact .inl ⟨'n', rfl, by decide, rfl⟩
  · exact .inl ⟨'r', rfl, by decide, rfl⟩
  · exact .inl ⟨'t', rfl, by decide, rfl⟩
  · next hquote hslash _ _ _ _ _ =>
    by_cases hc : c < ' '
    · rw [if_pos hc]
      exact .inr (.inl ⟨hc, rfl⟩)
    · rw [if_neg hc]
      exact .inr (.inr ⟨rfl, hquote, hslash, hc⟩)

theorem length_escapeChar_le (c : Char) : (escapeChar c).length ≤ 6 := by
  rcases escapeChar_cases c with ⟨_, h, -⟩ | ⟨-, h⟩ | ⟨h, -⟩ <;> simp [h]

/-- A string is printed in at most six characters for each of its own, between two quotes. -/
theorem length_printString_le (s : String) : (printString s).length ≤ 6 * s.length + 2 := by
  have hflat : ∀ cs : List Char, (cs.flatMap escapeChar).length ≤ 6 * cs.length := by
    intro cs
    induction cs with
    | nil => exact Nat.zero_le _
    | cons c cs ih =>
      have hc := length_escapeChar_le c
      rw [List.flatMap_cons, List.length_append, List.length_cons]
      omega
  have hle := hflat s.toList
  rw [String.length_toList] at hle
  rw [printString, List.length_append, List.length_cons, List.length_singleton]
  omega

theorem readStringFrom_escaped {acc rest : List Char} {c d : Char} (hu : d ≠ 'u')
    (h : escaped d = some c) :
    readStringFrom acc ('\\' :: d :: rest) = readStringFrom (c :: acc) rest := by
  rw [readStringFrom.eq_5 _ _ _ (by simpa using hu), h]

theorem readStringFrom_control {acc rest : List Char} {c : Char} (h : c.toNat < 32) :
    readStringFrom acc ('\\' :: 'u' :: '0' :: '0' :: Nat.digitChar (c.toNat / 16)
      :: Nat.digitChar (c.toNat % 16) :: rest) = readStringFrom (c :: acc) rest := by
  obtain ⟨hzero, hhigh, hlow, hlowSurrogate, hhighSurrogate⟩ := digit_control h
  have hunit : hexUnit ('0' :: '0' :: Nat.digitChar (c.toNat / 16)
      :: Nat.digitChar (c.toNat % 16) :: rest) = .ok c.toNat := by
    unfold hexUnit
    simp only [List.take_succ_cons, List.take_zero, List.mapM_cons, List.mapM_nil, hzero, hhigh,
      hlow]
    show Except.ok (((0 * 16 + 0) * 16 + c.toNat / 16) * 16 + c.toNat % 16) = _
    congr 1
    omega
  rw [readStringFrom, hunit]
  simp [hlowSurrogate, hhighSurrogate]

theorem readStringFrom_plain {acc rest : List Char} {c : Char} (hquote : c ≠ '\x22')
    (hslash : c ≠ '\\') (hc : ¬c < ' ') :
    readStringFrom acc (c :: rest) = readStringFrom (c :: acc) rest := by
  rw [readStringFrom.eq_6, if_neg hc]
  all_goals simp_all

theorem readStringFrom_escapeChar (acc rest : List Char) (c : Char) :
    readStringFrom acc (escapeChar c ++ rest) = readStringFrom (c :: acc) rest := by
  rcases escapeChar_cases c with ⟨d, h, hu, hd⟩ | ⟨hc, h⟩ | ⟨h, hquote, hslash, hc⟩
  · rw [h]
    exact readStringFrom_escaped hu hd
  · rw [h]
    exact readStringFrom_control hc
  · rw [h]
    exact readStringFrom_plain hquote hslash hc

theorem readStringFrom_flatMap (s acc rest : List Char) :
    readStringFrom acc (s.flatMap escapeChar ++ '\x22' :: rest)
      = .ok (String.ofList (acc.reverse ++ s), rest) := by
  induction s generalizing acc with
  | nil =>
    rw [List.append_nil]
    rfl
  | cons c s ih =>
    rw [List.flatMap_cons, List.append_assoc, readStringFrom_escapeChar, ih, List.reverse_cons,
      List.append_assoc]
    rfl

theorem readString_print (s : String) (rest : List Char) :
    readString (s.toList.flatMap escapeChar ++ '\x22' :: rest) = .ok (s, rest) := by
  rw [readString, readStringFrom_flatMap]
  simp

/-! ### Values -/

theorem dropBlank_cons {c : Char} {rest : List Char} (h : isBlank c = false) :
    dropBlank (c :: rest) = c :: rest := by
  rw [dropBlank, List.dropWhile_cons_of_neg (by simp [h])]

/-- Where a member may follow, or the end of the object, the value is read as it was written. -/
def ReadsBack (kind : Kind) (value : Value) : Prop :=
  ∀ c rest, c = ',' ∨ c = '\x7d' →
    readValue kind (printValue value ++ c :: rest) = .ok (value, c :: rest)

theorem readText_printString (s : String) (rest : List Char) :
    readText (printString s ++ rest) = .ok (.text s, rest) := by
  have hprint : printString s ++ rest
      = '\x22' :: (s.toList.flatMap escapeChar ++ '\x22' :: rest) := by simp [printString]
  rw [hprint, readText, dropBlank_cons (by decide)]
  show (readString _ >>= fun p => Except.ok (Value.text p.1, p.2)) = _
  rw [readString_print]
  rfl

theorem readsBack_text (s : String) : ReadsBack .text (.text s) :=
  fun c rest _ => readText_printString s (c :: rest)

theorem readsBack_optionalText (s : String) : ReadsBack .optionalText (.text s) := by
  intro c rest _
  have hquote : dropBlank (printString s ++ c :: rest) = printString s ++ c :: rest :=
    dropBlank_cons (by decide)
  rw [readValue, printValue, hquote]
  exact readText_printString s (c :: rest)

theorem readsBack_null : ReadsBack .optionalText .null := fun _ _ _ => rfl

/-! ### Records -/

/-- The fields are of the shape and readable, none of them is there twice, and no field that must be
there is missing. -/
structure Fits (shape : Shape) (fs : Fields) : Prop where
  readsBack : ∀ name value, (name, value) ∈ fs →
    ∃ f, shape.find? (·.name == name) = some f ∧ ReadsBack f.kind value
  distinct : (fs.map (·.1)).Nodup
  complete : isComplete shape fs = true

/-- Members that follow others, and the end of the object. -/
def printMore : Fields → List Char → List Char
  | [], rest => '\x7d' :: rest
  | f :: fs, rest => ',' :: (printMembers (f :: fs) ++ '\x7d' :: rest)

theorem printMembers_cons (name : String) (value : Value) (fs : Fields) (rest : List Char) :
    printMembers ((name, value) :: fs) ++ '\x7d' :: rest
      = printString name ++ ':' :: (printValue value ++ printMore fs rest) := by
  cases fs <;> simp [printMembers, printMore]

theorem ReadsBack.printMore {kind : Kind} {value : Value} (h : ReadsBack kind value) (fs : Fields)
    (rest : List Char) : readValue kind (printValue value ++ printMore fs rest)
      = .ok (value, JsonText.printMore fs rest) := by
  cases fs with
  | nil => exact h _ _ (.inr rfl)
  | cons f fs => exact h _ _ (.inl rfl)

theorem takeColon_colon (rest : List Char) : takeColon (':' :: rest) = .ok rest := by
  rw [takeColon, dropBlank_cons (by decide)]
  rfl

theorem has_eq_false {fs : Fields} {name : String} (h : name ∉ fs.map (·.1)) :
    fs.has name = false := by
  rw [Fields.has, List.lookup_eq_none_iff.2]
  · rfl
  · intro p hp
    refine bne_iff_ne.2 fun heq => h ?_
    rw [heq]
    exact List.mem_map_of_mem hp

theorem readMember_print {shape : Shape} {seen : Fields} {name : String} {value : Value} {f : Field}
    (hfind : shape.find? (·.name == name) = some f) (hvalue : ReadsBack f.kind value)
    (hnew : name ∉ seen.map (·.1)) (fs : Fields) (rest : List Char) :
    readMember shape seen name (':' :: (printValue value ++ printMore fs rest))
      = .ok (seen ++ [(name, value)], printMore fs rest) := by
  rw [readMember, hfind, has_eq_false hnew]
  dsimp only
  rw [if_neg (by decide), takeColon_colon]
  dsimp only [bind, Except.bind]
  rw [hvalue.printMore]

/-- A member is read, and then the rest of the object. -/
theorem readMembers_member {shape : Shape} {seen : Fields} {name : String} {value : Value}
    {f : Field} (hfind : shape.find? (·.name == name) = some f) (hvalue : ReadsBack f.kind value)
    (hnew : name ∉ seen.map (·.1)) (fs : Fields) (fuel : Nat) (first : Bool) (rest : List Char) :
    readMembers (fuel + 1) first shape seen ((if first then [] else [','])
        ++ (printMembers ((name, value) :: fs) ++ '\x7d' :: rest))
      = readMembers fuel false shape (seen ++ [(name, value)]) (printMore fs rest) := by
  have hprint : printMembers ((name, value) :: fs) ++ '\x7d' :: rest = '\x22' ::
      (name.toList.flatMap escapeChar
        ++ '\x22' :: ':' :: (printValue value ++ printMore fs rest)) := by
    rw [printMembers_cons]
    simp [printString]
  have hmember : (readString (name.toList.flatMap escapeChar
        ++ '\x22' :: ':' :: (printValue value ++ printMore fs rest)) >>= fun key =>
      readMember shape seen key.1 key.2 >>= fun fields =>
      readMembers fuel false shape fields.1 fields.2)
      = readMembers fuel false shape (seen ++ [(name, value)]) (printMore fs rest) := by
    rw [readString_print]
    dsimp only [bind, Except.bind]
    rw [readMember_print hfind hvalue hnew]
  rw [hprint, readMembers]
  cases first with
  | true => exact hmember
  | false => exact hmember

theorem readMembers_printMore {shape : Shape} (fs seen : Fields) (fuel : Nat) (rest : List Char)
    (h : ∀ name value, (name, value) ∈ fs →
      ∃ f, shape.find? (·.name == name) = some f ∧ ReadsBack f.kind value)
    (hdistinct : ((seen ++ fs).map (·.1)).Nodup) (hcomplete : isComplete shape (seen ++ fs) = true)
    (hfuel : fs.length < fuel) :
    readMembers fuel false shape seen (printMore fs rest) = .ok (seen ++ fs, rest) := by
  induction fs generalizing seen fuel with
  | nil =>
    obtain ⟨fuel, rfl⟩ := Nat.exists_eq_succ_of_ne_zero (Nat.ne_of_gt hfuel)
    rw [List.append_nil] at hcomplete ⊢
    rw [printMore, readMembers]
    show (if isComplete shape seen then _ else _) = _
    rw [if_pos hcomplete]
  | cons member fs ih =>
    obtain ⟨name, value⟩ := member
    obtain ⟨fuel, rfl⟩ := Nat.exists_eq_succ_of_ne_zero (Nat.ne_of_gt (Nat.zero_lt_of_lt hfuel))
    obtain ⟨f, hfind, hvalue⟩ := h name value (by simp)
    have hassoc : seen ++ (name, value) :: fs = (seen ++ [(name, value)]) ++ fs := by simp
    have hnew : name ∉ seen.map (·.1) := by
      rw [List.map_append, List.nodup_append] at hdistinct
      exact fun hmem => hdistinct.2.2 name hmem name (by simp) rfl
    rw [hassoc] at hdistinct hcomplete ⊢
    rw [← ih _ fuel (fun name value hmem => h name value (.tail _ hmem)) hdistinct hcomplete
      (Nat.lt_of_succ_lt_succ hfuel)]
    exact readMembers_member hfind hvalue hnew fs fuel false rest

theorem length_le_printMembers (fs : Fields) : fs.length ≤ (printMembers fs).length := by
  induction fs with
  | nil => exact Nat.zero_le _
  | cons member fs ih =>
    cases fs with
    | nil => simp [printMembers, printString]
    | cons next fs =>
      simp only [printMembers, printString, List.length_append, List.length_cons] at ih ⊢
      omega

/-- Every member is printed with a colon in it and a comma or a brace behind it. -/
theorem length_printMembers_le (fs : Fields) : (printMembers fs).length
    ≤ (fs.map fun f => (printString f.1).length + (printValue f.2).length + 2).sum := by
  induction fs with
  | nil => exact Nat.zero_le _
  | cons member fs ih =>
    cases fs with
    | nil =>
      simp only [printMembers, List.map_cons, List.sum_cons, List.length_append, List.length_cons]
      omega
    | cons next fs =>
      have hprint : printMembers (member :: next :: fs) = printString member.1
          ++ ':' :: printValue member.2 ++ ',' :: printMembers (next :: fs) := rfl
      rw [hprint, List.map_cons, List.sum_cons]
      simp only [List.length_append, List.length_cons]
      omega

theorem utf8ByteSize_print_le (fs : Fields) : (print fs).utf8ByteSize
    ≤ 4 * ((fs.map fun f => (printString f.1).length + (printValue f.2).length + 2).sum + 2) := by
  have hmembers := length_printMembers_le fs
  refine Nat.le_trans (Utf8.utf8ByteSize_le _) (Nat.mul_le_mul_left 4 ?_)
  rw [List.length_append, List.length_cons, List.length_singleton]
  omega

theorem readRecord_print {shape : Shape} {fs : Fields} (h : Fits shape fs) (rest : List Char) :
    readRecord shape ((print fs).toList ++ rest) = .ok (fs, rest) := by
  have hprint : (print fs).toList ++ rest = '\x7b' :: (printMembers fs ++ '\x7d' :: rest) := by
    simp [print]
  rw [hprint, readRecord, dropBlank_cons (by decide)]
  show readMembers _ true shape [] (printMembers fs ++ '\x7d' :: rest) = _
  cases fs with
  | nil =>
    show (if isComplete shape [] then _ else _) = _
    rw [if_pos h.complete]
  | cons member fs =>
    obtain ⟨name, value⟩ := member
    obtain ⟨f, hfind, hvalue⟩ := h.readsBack name value (by simp)
    have hnew : name ∉ ([] : Fields).map (·.1) := List.not_mem_nil
    refine (readMembers_member hfind hvalue hnew fs _ true rest).trans ?_
    refine readMembers_printMore fs [(name, value)] _ rest ?_ h.distinct h.complete ?_
    · exact fun name value hmem => h.readsBack name value (.tail _ hmem)
    · have hlength := length_le_printMembers ((name, value) :: fs)
      rw [List.length_append]
      simp only [List.length_cons] at hlength ⊢
      omega

theorem read_print {shape : Shape} {fs : Fields} (h : Fits shape fs) :
    read shape (print fs) = .ok fs := by
  have hrecord := readRecord_print h []
  rw [List.append_nil] at hrecord
  rw [read, hrecord]
  rfl

/-! ### Arrays of records -/

/-- The rest of an array of records, after the first one. -/
def printRecords : List Fields → List Char
  | [] => [']']
  | fs :: list => ',' :: ((print fs).toList ++ printRecords list)

/-- The array of some records. -/
def printList : List Fields → String
  | [] => "[]"
  | fs :: list => String.ofList ('[' :: ((print fs).toList ++ printRecords list))

theorem readRecords_record {shape : Shape} {fs : Fields} (h : Fits shape fs) (acc : List Fields)
    (fuel : Nat) (first : Bool) (rest : List Char) :
    readRecords (fuel + 1) first shape acc ((if first then [] else [','])
        ++ ((print fs).toList ++ rest)) = readRecords fuel false shape (fs :: acc) rest := by
  have hprint : (print fs).toList ++ rest = '\x7b' :: (printMembers fs ++ '\x7d' :: rest) := by
    simp [print]
  have hrecord : (readRecord shape ((print fs).toList ++ rest) >>= fun record =>
      readRecords fuel false shape (record.1 :: acc) record.2)
      = readRecords fuel false shape (fs :: acc) rest := by
    rw [readRecord_print h]
    rfl
  rw [hprint] at hrecord ⊢
  rw [readRecords]
  cases first with
  | true => exact hrecord
  | false => exact hrecord

theorem readRecords_printRecords {shape : Shape} (list acc : List Fields) (fuel : Nat)
    (h : ∀ fs ∈ list, Fits shape fs) (hfuel : list.length < fuel) :
    readRecords fuel false shape acc (printRecords list) = .ok (acc.reverse ++ list, []) := by
  induction list generalizing acc fuel with
  | nil =>
    obtain ⟨fuel, rfl⟩ := Nat.exists_eq_succ_of_ne_zero (Nat.ne_of_gt hfuel)
    rw [List.append_nil]
    rfl
  | cons fs list ih =>
    obtain ⟨fuel, rfl⟩ := Nat.exists_eq_succ_of_ne_zero (Nat.ne_of_gt (Nat.zero_lt_of_lt hfuel))
    refine (readRecords_record (h fs (.head _)) acc fuel false (printRecords list)).trans ?_
    rw [ih _ fuel (fun fs hfs => h fs (.tail _ hfs)) (Nat.lt_of_succ_lt_succ hfuel),
      List.reverse_cons, List.append_assoc]
    rfl

theorem length_le_printRecords (list : List Fields) : list.length < (printRecords list).length := by
  induction list with
  | nil => decide
  | cons fs list ih =>
    rw [printRecords]
    simp only [List.length_cons, List.length_append]
    omega

theorem readList_printList {shape : Shape} {list : List Fields} (h : ∀ fs ∈ list, Fits shape fs) :
    readList shape (printList list) = .ok list := by
  cases list with
  | nil =>
    show atEnd (readRecords 2 true shape [] [']']) = _
    rfl
  | cons fs list =>
    have hread : readRecords (((print fs).toList ++ printRecords list).length + 1) true shape []
        ((print fs).toList ++ printRecords list) = .ok (fs :: list, []) := by
      refine (readRecords_record (h fs (.head _)) [] _ true (printRecords list)).trans ?_
      refine readRecords_printRecords list [fs] _ (fun fs hfs => h fs (.tail _ hfs)) ?_
      have hlength := length_le_printRecords list
      rw [List.length_append]
      omega
    rw [readList, printList, String.toList_ofList, dropBlank_cons (by decide)]
    show atEnd (readRecords _ true shape [] ((print fs).toList ++ printRecords list)) = _
    rw [hread]
    rfl

end SealedLogin.JsonText
