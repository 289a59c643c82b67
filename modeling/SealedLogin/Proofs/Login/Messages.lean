import SealedLogin.Login.Message
import SealedLogin.Proofs.JsonText.Printing

/-!
# Messages are read back

A message whose fields are all text is read as it was written (`fits_textFields`), whatever the text
is.
-/

namespace SealedLogin

open JsonText

theorem find?_textField {names : List String} {name : String} (h : name ∈ names) :
    (names.map Message.textField).find? (·.name == name) = some (Message.textField name) := by
  induction names with
  | nil => cases h
  | cons first names ih =>
    rw [List.map_cons, List.find?_cons, Message.textField]
    by_cases heq : first = name
    · subst heq
      rw [beq_self_eq_true]
      rfl
    · rw [beq_false_of_ne heq]
      exact ih ((List.mem_cons.1 h).resolve_left (Ne.symm heq))

/-- Fields of text fit the shape that names them, each once. -/
theorem fits_textFields {names : List String} (values : List String) (hnames : names.Nodup)
    (hlength : names.length = values.length) :
    Fits (names.map Message.textField) (names.zip (values.map .text)) where
  readsBack := by
    intro name value hmem
    obtain ⟨hname, hvalue⟩ := List.of_mem_zip hmem
    obtain ⟨s, -, rfl⟩ := List.mem_map.1 hvalue
    exact ⟨_, find?_textField hname, readsBack_text s⟩
  distinct := by
    rw [List.map_fst_zip (by simp [hlength])]
    exact hnames
  complete := by simp [isComplete, Message.textField]

theorem PreKeyRequest.ofJson_toJson (m : PreKeyRequest) : ofJson m.toJson = .ok m := by
  have hfits : Fits shape m.fields :=
    @fits_textFields ["a0", "a1", "a2"] [m.a0, m.a1, m.a2] (by decide) rfl
  rw [ofJson, toJson, read_print hfits]
  rfl

theorem LoginRequest.ofJson_toJson (m : LoginRequest) : ofJson m.toJson = .ok m := by
  have hfits : Fits shape m.fields :=
    @fits_textFields ["i", "d"] [m.i, m.d] (by decide) rfl
  rw [ofJson, toJson, read_print hfits]
  rfl

theorem LoginResponse.ofJson_toJson (m : LoginResponse) : ofJson m.toJson = .ok m := by
  have hfits : Fits shape m.fields := @fits_textFields ["d"] [m.d] (by decide) rfl
  rw [ofJson, toJson, read_print hfits]
  rfl

/-! ### Sizes -/

theorem PreKeyRequest.utf8ByteSize_toJson_le (m : PreKeyRequest) :
    m.toJson.utf8ByteSize ≤ 24 * (m.a0.length + m.a1.length + m.a2.length) + 128 := by
  have hprint := utf8ByteSize_print_le m.fields
  have ha0 := length_printString_le m.a0
  have ha1 := length_printString_le m.a1
  have ha2 := length_printString_le m.a2
  have hnames : (printString "a0").length = 4 ∧ (printString "a1").length = 4
      ∧ (printString "a2").length = 4 := by decide
  simp only [fields, printValue, List.map_cons, List.map_nil, List.sum_cons, List.sum_nil] at hprint
  rw [toJson, fields]
  omega

theorem LoginRequest.utf8ByteSize_toJson_le (m : LoginRequest) :
    m.toJson.utf8ByteSize ≤ 24 * (m.i.length + m.d.length) + 128 := by
  have hprint := utf8ByteSize_print_le m.fields
  have hi := length_printString_le m.i
  have hd := length_printString_le m.d
  have hnames : (printString "i").length = 3 ∧ (printString "d").length = 3 := by decide
  simp only [fields, printValue, List.map_cons, List.map_nil, List.sum_cons, List.sum_nil] at hprint
  rw [toJson, fields]
  omega

end SealedLogin
