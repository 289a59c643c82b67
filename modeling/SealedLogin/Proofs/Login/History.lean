import Mathlib.Data.List.Induction
import SealedLogin.Proofs.Login.Calls

/-!
# The history of a server

Which calls came in a run, and after which others (`Came`), and which was the latest of its kind
(`Latest`). What is so after one more call is told by `came_concat_iff` and `latest_concat_iff`, so
that a proof about a run goes by induction on its calls, the last one first.
-/

namespace SealedLogin

/-! ### Calls in a run -/

section

variable {α : Type} {calls before before' : List α} {c c' d : α} {p : List α → α → Prop}

/-- In the run, the call came right after the ones before it. -/
def Came (calls before : List α) (c : α) : Prop := before ++ [c] <+: calls

/-- In the run, the call is the last one of a kind; of what kind it is may depend on those before
it. -/
structure Latest (p : List α → α → Prop) (calls before : List α) (c : α) : Prop where
  came : Came calls before c
  holds : p before c
  last : ∀ before' c', Came before' before c → Came calls before' c' → ¬p before' c'

theorem not_came_nil : ¬Came [] before c := by
  intro h
  simpa using List.prefix_nil.1 h

theorem came_concat_iff :
    Came (calls ++ [d]) before c ↔ before = calls ∧ c = d ∨ Came calls before c := by
  rw [Came, List.prefix_concat_iff, ← List.concat_eq_append, ← List.concat_eq_append,
    List.concat_inj, List.concat_eq_append]
  rfl

theorem came_cons_iff : Came (d :: calls) before c ↔
    before = [] ∧ c = d ∨ ∃ rest, before = d :: rest ∧ Came calls rest c := by
  cases before with
  | nil => simp [Came, List.cons_prefix_cons]
  | cons first rest => simp [Came, List.cons_prefix_cons, and_assoc]

theorem came_concat_self (calls : List α) (c : α) : Came (calls ++ [c]) calls c :=
  List.prefix_rfl

theorem Came.append (h : Came calls before c) (more : List α) : Came (calls ++ more) before c :=
  List.IsPrefix.trans h (List.prefix_append calls more)

theorem Came.trans (h : Came calls before' c') (h' : Came before' before c) : Came calls before c :=
  List.IsPrefix.trans (h'.append [c']) h

theorem Came.length_lt (h : Came calls before c) : before.length < calls.length := by
  have := List.IsPrefix.length_le h
  rw [List.length_append, List.length_singleton] at this
  omega

theorem not_came_self : ¬Came calls calls c := fun h => Nat.lt_irrefl _ h.length_lt

/-- Two calls of a run are the same, or one of them came before the other. -/
theorem Came.trichotomy (h : Came calls before c) (h' : Came calls before' c') :
    before = before' ∧ c = c' ∨ Came before' before c ∨ Came before before' c' := by
  induction calls using List.reverseRecOn with
  | nil => exact absurd h not_came_nil
  | append_singleton calls d ih =>
    rcases came_concat_iff.1 h with ⟨rfl, rfl⟩ | hold
    · rcases came_concat_iff.1 h' with ⟨rfl, rfl⟩ | hold'
      · exact .inl ⟨rfl, rfl⟩
      · exact .inr (.inr hold')
    · rcases came_concat_iff.1 h' with ⟨rfl, rfl⟩ | hold'
      · exact .inr (.inl hold)
      · exact ih hold hold'

theorem Came.unique (h : Came calls before c) (h' : Came calls before c') : c = c' := by
  rcases h.trichotomy h' with ⟨-, heq⟩ | hself | hself
  · exact heq
  · exact absurd hself not_came_self
  · exact absurd hself not_came_self

/-- Nothing came after the last call. -/
theorem not_came_of_last (h : Came (calls ++ [d]) before c) : ¬Came before calls d := by
  rcases came_concat_iff.1 h with ⟨rfl, rfl⟩ | hold
  · exact not_came_self
  · exact fun hlater => not_came_self (hold.trans hlater)

theorem Latest.unique (h : Latest p calls before c) (h' : Latest p calls before' c') :
    before = before' ∧ c = c' := by
  rcases h.came.trichotomy h'.came with heq | hlater | hlater
  · exact heq
  · exact absurd h'.holds (h.last _ _ hlater h'.came)
  · exact absurd h.holds (h'.last _ _ hlater h.came)

/-- The latest call of a kind is the one just made, or the latest one before it. -/
theorem latest_concat_iff : Latest p (calls ++ [d]) before c ↔
    p calls d ∧ before = calls ∧ c = d ∨ ¬p calls d ∧ Latest p calls before c := by
  constructor
  · rintro ⟨hcame, hp, hlast⟩
    rcases came_concat_iff.1 hcame with ⟨rfl, rfl⟩ | hold
    · exact .inl ⟨hp, rfl, rfl⟩
    · refine .inr ⟨hlast _ _ hold (came_concat_self _ _), hold, hp, fun _ _ hlater hcame' => ?_⟩
      exact hlast _ _ hlater (hcame'.append [d])
  · rintro (⟨hp, rfl, rfl⟩ | ⟨hnone, hcame, hp, hlast⟩)
    · refine ⟨came_concat_self _ _, hp, fun before' c' hlater hcame' => ?_⟩
      exact absurd hlater (not_came_of_last hcame')
    · refine ⟨hcame.append [d], hp, fun before' c' hlater hcame' => ?_⟩
      rcases came_concat_iff.1 hcame' with ⟨rfl, rfl⟩ | hold
      · exact hnone
      · exact hlast before' c' hlater hold

theorem exists_latest_concat_iff {q : List α → α → Prop} :
    (∃ before c, Latest p (calls ++ [d]) before c ∧ q before c) ↔
      p calls d ∧ q calls d ∨ ¬p calls d ∧ ∃ before c, Latest p calls before c ∧ q before c := by
  constructor
  · rintro ⟨before, c, hlatest, hq⟩
    rcases latest_concat_iff.1 hlatest with ⟨hp, rfl, rfl⟩ | ⟨hnone, hold⟩
    · exact .inl ⟨hp, hq⟩
    · exact .inr ⟨hnone, before, c, hold, hq⟩
  · rintro (⟨hp, hq⟩ | ⟨hnone, before, c, hold, hq⟩)
    · exact ⟨calls, d, latest_concat_iff.2 (.inl ⟨hp, rfl, rfl⟩), hq⟩
    · exact ⟨before, c, latest_concat_iff.2 (.inr ⟨hnone, hold⟩), hq⟩

end

/-- The clock can show the tick, and has shown nothing later during the calls. -/
structure ClockReads (calls : List ServerCall) (now : Tick) : Prop where
  readable : now / Duration.nanosPerSecond < Tick.secondLimit
  past : ∀ c ∈ calls, c.now.tick ≤ now

theorem ClockReads.of_append {calls more : List ServerCall} {now : Tick}
    (h : ClockReads (calls ++ more) now) : ClockReads calls now :=
  ⟨h.readable, fun c hc => h.past c (List.mem_append_left _ hc)⟩

namespace LoginServer

theorem run_concat (server : LoginServer) (s : ServerState) (calls : List ServerCall)
    (c : ServerCall) : server.run s (calls ++ [c]) = server.after (server.run s calls) c := by
  rw [run, List.foldl_append]
  rfl

theorem run_singleton (server : LoginServer) (s : ServerState) (c : ServerCall) :
    server.run s [c] = server.after s c := rfl

end LoginServer

end SealedLogin
