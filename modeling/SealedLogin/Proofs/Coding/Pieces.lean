import SealedLogin.Bytes

/-!
# Pieces of byte strings

A string of whole pieces is cut where they meet: `Bytes.chunks` takes one piece off after another
(`chunks_append`), and the pieces make up the string again (`chunks_of_dvd`).
-/

namespace SealedLogin.Bytes

theorem chunks_append {n : Nat} (hn : n ≠ 0) {front : Bytes} (h : front.length = n) (rest : Bytes) :
    chunks n (front ++ rest) = front :: chunks n rest := by
  have hne : ¬(n = 0 ∨ front ++ rest = []) := by
    rintro (h0 | hnil)
    · exact hn h0
    · rw [(List.append_eq_nil_iff.1 hnil).1] at h
      exact hn h.symm
  rw [chunks, if_neg hne, ← h, List.take_left, List.drop_left]

theorem chunks_nil (n : Nat) : chunks n [] = [] := by
  rw [chunks, if_pos (.inr rfl)]

/-- A string of whole pieces is cut into pieces of full length, which make it up again. -/
theorem chunks_of_dvd {n : Nat} (hn : n ≠ 0) {b : Bytes} (h : n ∣ b.length) :
    (∀ c ∈ chunks n b, c.length = n) ∧ (chunks n b).flatten = b := by
  obtain ⟨k, hk⟩ := h
  induction k generalizing b with
  | zero =>
    rw [List.length_eq_zero_iff.1 hk, chunks_nil]
    exact ⟨by simp, rfl⟩
  | succ k ih =>
    have hle : n ≤ b.length := by
      rw [hk, Nat.mul_succ]
      exact Nat.le_add_left n _
    have htake : (b.take n).length = n := by rw [List.length_take, Nat.min_eq_left hle]
    have hdrop : (b.drop n).length = n * k := by
      rw [List.length_drop, hk, Nat.mul_succ, Nat.add_sub_cancel]
    obtain ⟨hlength, hflatten⟩ := ih hdrop
    rw [← List.take_append_drop n b, chunks_append hn htake]
    refine ⟨fun c hc => ?_, ?_⟩
    · rcases List.mem_cons.1 hc with rfl | hc
      · exact htake
      · exact hlength c hc
    · rw [List.flatten_cons, hflatten]

end SealedLogin.Bytes
